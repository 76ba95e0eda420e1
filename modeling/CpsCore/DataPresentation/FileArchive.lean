import Mathlib
import CpsCore.DataPresentation.Extract

/-!
# File archives

`FileToArchive` and `FileFromArchive` are the binary archives over a `std::ofstream` and a
`std::ifstream`.  Writing is the same.  Reading is not: `file_.read` throws nothing, and at the
end of the file it leaves the rest of the object as it was and fails from then on, where
`BinaryFromArchive` throws an `ArchiveError` or copies what is behind its string.

* `file_follows` — the file archive does what the checked one does as long as that reads on, and
  never throws an `ArchiveError`.
* `file_agrees` — the two archives agree on a byte string that begins with a complete value, and
  on no other that the binary archive reads within its bounds.

The matrices of Eigen ask their archive for `compressDouble()`, which file archives do not have.
-/

namespace CpsCore

/-! ## FileToArchive -/

/-- An archive that writes to a file; `file_` is what the file holds. -/
structure FileToArchive where
  options_ : ArchiveOptions
  file_ : Bytes
  deriving DecidableEq, Repr

namespace FileToArchive

def append (c : Bytes) (ar : FileToArchive) : FileToArchive := { ar with file_ := ar.file_ ++ c }

/-- `FileToArchive` as the templates see it; `operator<<(const double&)` asks the options. -/
def archive : ToArchive FileToArchive := ⟨append, fun ar => ar.options_.compressDouble⟩

end FileToArchive

/-! ## FileFromArchive -/

/-- An archive that reads from a file.  `pos` is the position of the stream and `fail` its
`failbit`; `stale` is what the object of each read holds before, and `reads` counts them. -/
structure FileFromArchive where
  options_ : ArchiveOptions
  file_ : Bytes
  stale : ℕ → ℕ → UInt8
  pos : ℕ
  fail : Bool
  reads : ℕ

namespace FileFromArchive

/-- The constructor, over a stream that was just opened. -/
def open_ (file : Bytes) (opts : ArchiveOptions) (stale : ℕ → ℕ → UInt8) : FileFromArchive :=
  ⟨opts, file, stale, 0, false, 0⟩

/-- What the stream still gives for a read of that many bytes: nothing once it has failed. -/
def available (ar : FileFromArchive) (bytes : ℕ) : Bytes :=
  if ar.fail then [] else (ar.file_.drop ar.pos).take bytes

/-- `file_.read(val, bytes)`: a read that comes short sets `failbit` and leaves the rest of the
object alone. -/
def read (bytes : ℕ) : EStateM Exn FileFromArchive Bytes := do
  let ar ← get
  let got := ar.available bytes
  set { ar with
    pos := ar.pos + got.length
    fail := ar.fail || decide (got.length < bytes)
    reads := ar.reads + 1 }
  pure (got ++ (List.range (bytes - got.length)).map fun i => ar.stale ar.reads (got.length + i))

/-- `FileFromArchive` as the templates see it: `dp::load(FileFromArchive&, char*, unsigned long)`
calls `read`. -/
def archive : FromArchive FileFromArchive := ⟨read, read, fun ar => ar.options_.compressDouble⟩

lemma run_read_of_le {ar : FileFromArchive} {bytes : ℕ} (hgood : ar.fail = false)
    (hle : bytes ≤ (ar.file_.drop ar.pos).length) :
    (read bytes).run ar = .ok ((ar.file_.drop ar.pos).take bytes)
      { ar with pos := ar.pos + bytes, reads := ar.reads + 1 } := by
  have hgot : ar.available bytes = (ar.file_.drop ar.pos).take bytes := by
    rw [available, hgood]
    rfl
  have hlen : (ar.available bytes).length = bytes := by
    rw [hgot, List.length_take, Nat.min_eq_left hle]
  show EStateM.Result.ok (ar.available bytes ++ _) _ = _
  rw [hlen, Nat.sub_self, List.range_zero, List.map_nil, List.append_nil, hgot, hgood,
    decide_eq_false (Nat.lt_irrefl _)]
  rfl

end FileFromArchive

namespace dp

open StateExcept

variable (fl : FloatCast)

/-- `dp::serialize(data, file)`: what the file holds. -/
def serializeFile {o : Bool} {α : Type} (t : Ty o α) (data : α) (options : ArchiveOptions) : Bytes :=
  (store fl FileToArchive.archive t data ⟨options, []⟩).file_

/-- `archive >> t` on an archive over the file, `t` holding `prior` before. -/
def decodeFile {o : Bool} {α : Type} (t : Ty o α) (prior : α) (options : ArchiveOptions)
    (stale : ℕ → ℕ → UInt8) (file : Bytes) : EStateM.Result Exn FileFromArchive α :=
  (load fl FileFromArchive.archive t prior).run (FileFromArchive.open_ file options stale)

/-- `dp::deserialize<T>(file)`. -/
def deserializeFile {o : Bool} {α : Type} (t : Ty o α) (options : ArchiveOptions)
    (stale : ℕ → ℕ → UInt8) (file : Bytes) : Except Exn α :=
  match decodeFile fl t t.default options stale file with
  | .ok val _ => .ok val
  | .error (.archiveError _) _ => .ok t.default
  | .error e _ => .error e

/-! ## Writing -/

lemma FileToArchive.lawful : ToArchive.Lawful FileToArchive.archive where
  append_nil ar := by simp [FileToArchive.archive, FileToArchive.append]
  append_append b b' ar := by simp [FileToArchive.archive, FileToArchive.append]
  compressDouble_append _ _ := rfl

/-- **The same bytes are written.** -/
theorem serializeFile_eq {o : Bool} {α : Type} (t : Ty o α) (data : α) (options : ArchiveOptions) :
    serializeFile fl t data options = (serialize fl t data options).buffer_ := by
  rw [serializeFile, store_eq fl FileToArchive.lawful, serialize_eq]
  rfl

/-! ## Reading -/

/-- The file archive is where the checked one is. -/
def FileFollows (ar : FileFromArchive) (ch : Checked) : Prop :=
  ar.fail = false ∧ ch.rest = ar.file_.drop ar.pos ∧ ch.options_ = ar.options_

/-- No `ArchiveError` was thrown. -/
def NoArchiveError (o : Option Exn) : Prop := ∀ what, o ≠ some (.archiveError what)

lemma noArchiveError_none : NoArchiveError none := fun _ h => by cases h

lemma noArchiveError_badAlloc : NoArchiveError (some .badAlloc) := fun _ h => by cases h

lemma noArchiveError_parseError : NoArchiveError (some .parseError) := fun _ h => by cases h

lemma tracks_file_read (bytes : ℕ) :
    Tracks FileFollows (fun _ o _ => NoArchiveError o) (FileFromArchive.read bytes)
      (Checked.take bytes) := by
  rintro ar ⟨opts, rest, k⟩ ⟨hgood, rfl, rfl⟩
  have htake : (Checked.take bytes).run ⟨ar.options_, ar.file_.drop ar.pos, k⟩ =
      if bytes ≤ (ar.file_.drop ar.pos).length ∧ k + bytes < 2 ^ 32 then
        .ok ((ar.file_.drop ar.pos).take bytes)
          ⟨ar.options_, (ar.file_.drop ar.pos).drop bytes, k + bytes⟩
      else .error overrun ⟨ar.options_, ar.file_.drop ar.pos, k⟩ := rfl
  rw [htake]
  split_ifs with hfit
  · exact ⟨_, FileFromArchive.run_read_of_le hgood hfit.1, hgood, List.drop_drop, rfl⟩
  · exact noArchiveError_none

lemma tracks_file_load (bytes : ℕ) :
    Tracks FileFollows (fun _ o _ => NoArchiveError o) (FileFromArchive.read bytes)
      (Checked.load bytes) := by
  intro ar ch hfollows
  by_cases hrest : ch.rest = []
  · have hload : (Checked.load bytes).run ch = .error endOfData ch := if_pos hrest
    rw [hload]
    exact noArchiveError_none
  · have hload : (Checked.load bytes).run ch = (Checked.take bytes).run ch := if_neg hrest
    rw [hload]
    exact tracks_file_read bytes ar ch hfollows

/-- **The file archive follows the checked one**, and throws no `ArchiveError` where it cannot. -/
theorem file_follows :
    Related FileFromArchive.archive Checked.archive fun m m' =>
      Tracks FileFollows (fun _ o _ => NoArchiveError o) m m' ∧
        Absorbs (fun (_ : Exn) o _ => NoArchiveError o) m where
  compositional := Tracks.compositional
  load bytes _ := ⟨tracks_file_load bytes, fun _ _ h => h⟩
  read bytes := ⟨tracks_file_read bytes, fun _ _ h => h⟩
  option hf := by
    refine ⟨Tracks.get fun ar ch hfollows => ?_, Absorbs.get fun ar => (hf _).2⟩
    have hopts : Checked.archive.compressDouble ch = FileFromArchive.archive.compressDouble ar :=
      congrArg ArchiveOptions.compressDouble hfollows.2.2
    rw [hopts]
    exact (hf _).1
  badAlloc := ⟨Tracks.throw fun _ _ _ => noArchiveError_badAlloc,
    fun _ _ _ => noArchiveError_badAlloc⟩
  parseError := ⟨Tracks.throw fun _ _ _ => noArchiveError_parseError,
    fun _ _ _ => noArchiveError_parseError⟩

/-! ## The errors of a reader that stays inside -/

/-- The types of integers, doubles, strings, containers, pairs, structs and parameter sets. -/
def Streamed : {o : Bool} → {α : Type} → Ty o α → Prop
  | _, _, .vector t => Streamed t
  | _, _, .optional t => Streamed t
  | _, _, .array _ t => Streamed t
  | _, _, @Ty.map _ _ _ _ k t => Streamed k ∧ Streamed t
  | _, _, .pair s t => Streamed s ∧ Streamed t
  | _, _, .param _ t rest => Streamed t ∧ Streamed rest
  | _, _, .custom _ t => Streamed t
  | _, _, .eigen _ _ _ _ => False
  | _, _, .configuration _ => False
  | _, _, _ => True

/-- The only errors are those of a block that is not there. -/
abbrev EndsOnly {α : Type} (m : EStateM Exn Checked α) : Prop :=
  Keeps (fun _ => True) (fun e _ => e = endOfData ∨ e = overrun) m

lemma endsOnly_take (bytes : ℕ) : EndsOnly (Checked.take bytes) := by
  intro ch _
  have htake : (Checked.take bytes).run ch = if bytes ≤ ch.rest.length ∧
      ch.consumed + bytes < 2 ^ 32 then _ else .error overrun ch := rfl
  rw [htake]
  split_ifs
  · trivial
  · exact Or.inr rfl

lemma endsOnly_pod {α : Type} (p : Pod α) : EndsOnly (loadPod Checked.archive p) := by
  refine Keeps.bind (fun ch _ => ?_) fun _ => Keeps.pure _
  by_cases hrest : ch.rest = []
  · have hload : (Checked.archive.load p.size).run ch = .error endOfData ch := if_pos hrest
    rw [hload]
    exact Or.inl rfl
  · have hload : (Checked.archive.load p.size).run ch = (Checked.take p.size).run ch :=
      if_neg hrest
    rw [hload]
    exact endsOnly_take p.size ch trivial

/-- **Only the end of the data can stop it.** -/
theorem streamed_errors : ∀ {o : Bool} {α : Type} (t : Ty o α) (prior : α), Streamed t →
    EndsOnly (load fl Checked.archive t prior)
  | _, _, .pod p, _, _ => endsOnly_pod p
  | _, _, .enum _, _, _ => (endsOnly_pod _).bind fun _ => Keeps.pure _
  | _, _, .double, _, _ => by
      refine Keeps.get fun ch => ?_
      split_ifs
      · exact (endsOnly_pod (.raw .w32)).bind fun _ => Keeps.pure _
      · exact endsOnly_pod (.raw .w64)
  | _, _, .string, _, _ => (endsOnly_pod (.raw .w16)).bind fun _ => endsOnly_take _
  | _, _, .vector t, _, h => (endsOnly_pod (.raw .w16)).bind fun _ =>
      Keeps.iterate (fun _ =>
        (streamed_errors t t.default h).bind fun _ => Keeps.pure _) _ _
  | _, _, .optional t, prior, h => by
      refine (endsOnly_pod .bool).bind fun init => ?_
      cases init
      · exact Keeps.pure prior
      · exact (streamed_errors t t.default h).bind fun _ => Keeps.pure _
  | _, _, .array n t, _, h => (streamed_errors t t.default h).collect (n + 1)
  | _, _, @Ty.map _ _ _ _ k t, _, h => (endsOnly_pod (.raw .w8)).bind fun _ =>
      Keeps.iterate (fun _ =>
        (streamed_errors k k.default h.1).bind fun _ =>
          (streamed_errors t t.default h.2).bind fun _ => Keeps.pure _) _ _
  | _, _, .pair s t, prior, h => (streamed_errors s prior.1 h.1).bind fun _ =>
      (streamed_errors t prior.2 h.2).bind fun _ => Keeps.pure _
  | _, _, .noParams, _, _ => Keeps.pure ()
  | _, _, .param _ t rest, prior, h => (streamed_errors t prior.1 h.1).bind fun _ =>
      (streamed_errors rest prior.2 h.2).bind fun _ => Keeps.pure _
  | _, _, .custom fields t, prior, h =>
      (streamed_errors t (fields prior) h).bind fun _ => Keeps.pure _
  | _, _, .timePoint, prior, _ => by
      refine (endsOnly_pod (.raw .w8)).bind fun unit => ?_
      cases nanosecondsPer unit.toNat with
      | none => exact Keeps.pure prior
      | some scale => exact (endsOnly_pod (.raw .w64)).bind fun _ => Keeps.pure _

/-! ## Agreement -/

/-- The value, or the exception. -/
def outcome {σ α : Type} : EStateM.Result Exn σ α → Except Exn α
  | .ok val _ => .ok val
  | .error e _ => .error e

section Agreement

variable {fl} {o : Bool} {α : Type} {t : Ty o α} {prior : α} {opts : ArchiveOptions} {b : Bytes}

variable (fl t prior opts b) in
/-- The file archive and the binary archive make the same of the bytes. -/
def Agrees (beyond : ℕ → UInt8) (stale : ℕ → ℕ → UInt8) : Prop :=
  outcome (decodeFile fl t prior opts stale b) = outcome (decode fl t prior opts beyond ⟨b⟩)

variable (fl t prior opts b) in
/-- The binary archive copies nothing from outside its string. -/
def StaysInside (beyond : ℕ → UInt8) : Prop :=
  ∀ blk ∈ (endState (decode fl t prior opts beyond ⟨b⟩)).blocks, blk.1 + blk.2 ≤ b.length

variable (fl t prior opts b) in
/-- The bytes begin with all the blocks of a value, and with no more than `idx_` counts. -/
def Complete : Prop :=
  ∃ val ch, (load fl Checked.archive t prior).run ⟨opts, b, 0⟩ = .ok val ch

lemma decodeFile_of_complete {val : α} {ch : Checked}
    (hch : (load fl Checked.archive t prior).run ⟨opts, b, 0⟩ = .ok val ch)
    (stale : ℕ → ℕ → UInt8) : ∃ ar, decodeFile fl t prior opts stale b = .ok val ar := by
  have htracks := (load_related fl file_follows t prior).1
    (FileFromArchive.open_ b opts stale) ⟨opts, b, 0⟩ ⟨rfl, rfl, rfl⟩
  rw [hch] at htracks
  obtain ⟨ar, hrun, -⟩ := htracks
  exact ⟨ar, hrun⟩

/-- **On a complete value the archives agree.** -/
theorem agrees_of_complete (h : Complete fl t prior opts b) (beyond : ℕ → UInt8)
    (stale : ℕ → ℕ → UInt8) :
    StaysInside fl t prior opts b beyond ∧ Agrees fl t prior opts b beyond stale := by
  obtain ⟨val, ch, hch⟩ := h
  obtain ⟨ar, hdecode, hstr, hin, -⟩ := @decode_of_checked_ok fl _ _ t opts ⟨b⟩ _ _ _ hch beyond
  obtain ⟨ar', hfile⟩ := decodeFile_of_complete hch stale
  constructor
  · rw [StaysInside, hdecode, show b = ar.string_ from hstr.symm]
    exact hin.inside
  · rw [Agrees, hdecode, hfile]
    rfl

/-- So the two `dp::deserialize` return the same. -/
lemma deserializeFile_eq (h : Complete fl t t.default opts b) (hne : b ≠ [])
    (beyond : ℕ → UInt8) (stale : ℕ → ℕ → UInt8) :
    deserializeFile fl t opts stale b = deserialize fl t opts beyond ⟨b⟩ := by
  obtain ⟨val, ch, hch⟩ := h
  obtain ⟨ar, hdecode, -⟩ := @decode_of_checked_ok fl _ _ t opts ⟨b⟩ _ _ _ hch beyond
  obtain ⟨ar', hfile⟩ := decodeFile_of_complete hch stale
  have hsize : (⟨b⟩ : Packet).getSize ≠ 0 := fun h => hne (List.eq_nil_of_length_eq_zero h)
  rw [deserializeFile, hfile, deserialize, if_neg hsize, hdecode]

/-- **Where the value is cut off** the binary archive throws an `ArchiveError`, which the file
archive never does, or leaves its string. -/
theorem not_agrees_of_cut (ht : Streamed t) (hlen : b.length < 2 ^ 32)
    (hcut : ¬Complete fl t prior opts b) (beyond : ℕ → UInt8) (stale : ℕ → ℕ → UInt8)
    (hinside : StaysInside fl t prior opts b beyond) :
    ¬Agrees fl t prior opts b beyond stale := by
  have herrors := streamed_errors fl t prior ht ⟨opts, b, 0⟩ trivial
  have hfile := (load_related fl file_follows t prior).1
    (FileFromArchive.open_ b opts stale) ⟨opts, b, 0⟩ ⟨rfl, rfl, rfl⟩
  cases hch : (load fl Checked.archive t prior).run ⟨opts, b, 0⟩ with
  | ok val ch => exact absurd ⟨val, ch, hch⟩ hcut
  | error e ch =>
      rw [hch] at herrors hfile
      obtain ⟨hover, hend⟩ := @end_of_checked_error fl _ _ t opts ⟨b⟩ prior e ch hch beyond hlen hinside
      obtain rfl := herrors.resolve_right hover
      intro hagrees
      have hthrown : outcome (decode fl t prior opts beyond ⟨b⟩) = .error endOfData := by
        cases hdecode : decode fl t prior opts beyond ⟨b⟩ with
        | ok val ar =>
            rw [hdecode] at hend
            cases hend
        | error e' ar =>
            rw [hdecode] at hend
            exact congrArg Except.error (Option.some.inj hend)
      rw [Agrees, hthrown] at hagrees
      cases hdecode : decodeFile fl t prior opts stale b with
      | ok val ar =>
          rw [hdecode] at hagrees
          cases hagrees
      | error e' ar =>
          rw [hdecode] at hagrees
          rw [show (load fl FileFromArchive.archive t prior).run _ = _ from hdecode] at hfile
          exact hfile _ (congrArg some (Except.error.inj hagrees))

end Agreement

/-- **When file archives agree with binary ones.**  They write the same.  On bytes that begin
with a complete value they read the same, and the binary archive stays inside them; of fewer than
`2 ^ 32` bytes that do not, and that the binary archive does not leave, they make something
different.  From a complete value the two `dp::deserialize` return the same, too. -/
theorem file_agrees (fl : FloatCast) {o : Bool} {α : Type} {t : Ty o α} (ht : Streamed t)
    (opts : ArchiveOptions) (prior : α) (b : Bytes) :
    (∀ val, serializeFile fl t val opts = (serialize fl t val opts).buffer_) ∧
    (Complete fl t prior opts b → ∀ beyond stale,
      StaysInside fl t prior opts b beyond ∧ Agrees fl t prior opts b beyond stale) ∧
    (b.length < 2 ^ 32 → ∀ beyond stale, StaysInside fl t prior opts b beyond →
      Agrees fl t prior opts b beyond stale → Complete fl t prior opts b) ∧
    (Complete fl t t.default opts b → b ≠ [] → ∀ beyond stale,
      deserializeFile fl t opts stale b = deserialize fl t opts beyond ⟨b⟩) := by
  refine ⟨fun val => serializeFile_eq fl t val opts, agrees_of_complete, ?_, deserializeFile_eq⟩
  intro hlen beyond stale hinside hagrees
  by_contra hcut
  exact not_agrees_of_cut ht hlen hcut beyond stale hinside hagrees

/-- A string of two bytes, from a file that holds it. -/
theorem file_agrees_string :
    Agrees default .string [] {} [2, 0, 65, 66] (fun _ => 0) fun _ _ => 0 := by
  have ht : Streamed .string := trivial
  exact ((file_agrees default ht {} [] [2, 0, 65, 66]).2.1 ⟨_, _, rfl⟩ _ _).2

/-- A vector of two bytes cut off behind the first: the binary archive throws, and the file
archive returns two bytes, of which one is what the object held before. -/
theorem file_disagrees :
    outcome (decode default (.vector (.pod (.raw .w8))) [] {} (fun _ => 0) ⟨[2, 0, 7]⟩) =
      .error endOfData ∧
    outcome (decodeFile default (.vector (.pod (.raw .w8))) [] {} (fun _ _ => 9) [2, 0, 7]) =
      .ok [7#8, 9#8] := ⟨rfl, rfl⟩

end dp

end CpsCore

import Mathlib
import CpsCore.DataPresentation.Extract
import CpsCore.DataPresentation.RoundTrip

/-!
# Several values in one packet

The methods `serialize`, `deserialize` and `extract` of `DataPresentation` take a pack of types and
stream all its values through one archive.  Taking them out one after another starts a new archive
for each, on what the packet has left.

* `Tuple`: `std::tuple<Types...>`.
* `checked_shift`: what the checked archive reads does not depend on how much it has read before.
* `extract_at_once`: at once and one after another are the same, up to what an exception leaves.
-/

namespace CpsCore

open StateExcept

variable (fl : FloatCast)

/-- One of the types in a pack. -/
structure AnyTy where
  {o : Bool}
  {α : Type}
  ty : Ty o α

/-- `std::tuple<Types...>`. -/
def Tuple : List AnyTy → Type
  | [] => Unit
  | t :: ts => t.α × Tuple ts

def Tuple.head {t : AnyTy} {ts : List AnyTy} (vals : Tuple (t :: ts)) : t.α := vals.1

/-- `(archive << ... << vals)`. -/
def storeAll {σ : Type} (A : ToArchive σ) (vals : List dp.Value) (ar : σ) : σ :=
  vals.foldl (fun ar v => dp.store fl A v.ty v.val ar) ar

namespace DataPresentation

/-- `extractTuple`, on a tuple that holds what its types default to. -/
def extractTuple {σ : Type} (A : FromArchive σ) : (ts : List AnyTy) → EStateM Exn σ (Tuple ts)
  | [] => pure ()
  | t :: ts => do
      let val ← dp.load fl A t.ty t.ty.default
      let vals ← extractTuple A ts
      pure (val, vals)

variable (self : DataPresentation)

/-- `serialize(vals..., packet)`; without the packet, on an empty one. -/
def serialize (vals : List dp.Value) (packet : Packet := ⟨[]⟩) : Packet :=
  ⟨(storeAll fl BinaryToArchive.archive vals ⟨self.params, packet.buffer_⟩).string_⟩

/-- The archive of `deserialize` and `extract`, after the pack has been read. -/
def decode (ts : List AnyTy) (beyond : ℕ → UInt8) (packet : Packet) :
    EStateM.Result Exn BinaryFromArchive (Tuple ts) :=
  (extractTuple fl BinaryFromArchive.archive ts).run
    (BinaryFromArchive.open_ packet.buffer_ self.params beyond)

def deserialize (ts : List AnyTy) (beyond : ℕ → UInt8) (packet : Packet) : Except Exn (Tuple ts) :=
  match self.decode fl ts beyond packet with
  | .ok vals _ => .ok vals
  | .error e _ => .error e

def extract (ts : List AnyTy) (beyond : ℕ → UInt8) : EStateM Exn Packet (Tuple ts) := fun packet =>
  match self.decode fl ts beyond packet with
  | .ok vals archive => .ok vals (packet.consume archive.getConsumed).2
  | .error e _ => .error e packet

/-- `extract<T>` for one type of the list after another; `beyond` is what the memory holds at each
call. -/
def extractEach : (ts : List AnyTy) → (ℕ → ℕ → UInt8) → EStateM Exn Packet (Tuple ts)
  | [], _ => pure ()
  | t :: ts, beyond => do
      let val ← self.extractHeader fl t.ty (beyond 0)
      let vals ← extractEach ts fun n => beyond (n + 1)
      pure (val, vals)

end DataPresentation

namespace dp

variable {fl}

/-! ## Reading at another place -/

/-- The same bytes are left, and `d` more have been read. -/
def Shifted (d : ℕ) (ch ch' : Checked) : Prop :=
  ch.options_ = ch'.options_ ∧ ch.rest = ch'.rest ∧ ch.consumed + d = ch'.consumed

/-- The same error, unless it is one that depends on the place. -/
def SameError (e : Exn) (o : Option Exn) (_ : Checked) : Prop := e = overrun ∨ o = some e

lemma sameError_absorbs {α : Type} (m : EStateM Exn Checked α) : Absorbs SameError m := by
  rintro e ch (hover | hnone)
  · exact Or.inl hover
  · cases hnone

lemma tracks_take (d bytes : ℕ) :
    Tracks (Shifted d) SameError (Checked.take bytes) (Checked.take bytes) := by
  rintro ⟨opts, b, k⟩ ⟨_, _, _⟩ ⟨rfl, rfl, rfl⟩
  have htake : ∀ j, (Checked.take bytes).run ⟨opts, b, j⟩ =
      if bytes ≤ b.length ∧ j + bytes < 2 ^ 32 then
        .ok (b.take bytes) ⟨opts, b.drop bytes, j + bytes⟩
      else .error overrun ⟨opts, b, j⟩ := fun j => rfl
  rw [htake, htake]
  by_cases hfit : bytes ≤ b.length ∧ k + d + bytes < 2 ^ 32
  · rw [if_pos hfit, if_pos ⟨hfit.1, by omega⟩]
    exact ⟨_, rfl, rfl, rfl, by simp only; omega⟩
  · rw [if_neg hfit]
    exact Or.inl rfl

lemma tracks_checked_load (d bytes : ℕ) :
    Tracks (Shifted d) SameError (Checked.load bytes) (Checked.load bytes) := by
  rintro ⟨opts, b, k⟩ ⟨_, _, _⟩ ⟨rfl, rfl, rfl⟩
  by_cases hb : b = []
  · have hload : ∀ j, (Checked.load bytes).run ⟨opts, b, j⟩ = .error endOfData ⟨opts, b, j⟩ :=
      fun j => if_pos hb
    rw [hload, hload]
    exact Or.inr rfl
  · have hload : ∀ j, (Checked.load bytes).run ⟨opts, b, j⟩ = (Checked.take bytes).run ⟨opts, b, j⟩ :=
      fun j => if_neg hb
    rw [hload, hload]
    exact tracks_take d bytes _ _ ⟨rfl, rfl, rfl⟩

/-- **What is read does not depend on what has been read before**, as long as the count holds. -/
theorem checked_shift (d : ℕ) : Related Checked.archive Checked.archive fun m m' =>
    Tracks (Shifted d) SameError m m' ∧ Absorbs SameError m where
  compositional := Tracks.compositional
  load bytes _ := ⟨tracks_checked_load d bytes, sameError_absorbs _⟩
  read bytes := ⟨tracks_take d bytes, sameError_absorbs _⟩
  option hf := by
    refine ⟨Tracks.get fun ch ch' hshift => ?_, sameError_absorbs _⟩
    have hoption : Checked.archive.compressDouble ch = Checked.archive.compressDouble ch' :=
      congrArg ArchiveOptions.compressDouble hshift.1
    rw [hoption]
    exact (hf _).1
  badAlloc := ⟨Tracks.throw fun _ _ _ => Or.inr rfl, sameError_absorbs _⟩
  parseError := ⟨Tracks.throw fun _ _ _ => Or.inr rfl, sameError_absorbs _⟩

end dp

namespace DataPresentation

open dp

/-! ## A pack -/

/-- A pack respects what its types respect. -/
lemma extractTuple_related {σ τ : Type} {A : FromArchive σ} {A' : FromArchive τ}
    {Rel : ∀ {α : Type}, EStateM Exn σ α → EStateM Exn τ α → Prop} (h : Related A A' Rel) :
    ∀ ts : List AnyTy, Rel (extractTuple fl A ts) (extractTuple fl A' ts)
  | [] => h.compositional.pure _
  | t :: ts =>
      h.compositional.bind (load_related fl h t.ty t.ty.default) fun _ =>
        h.compositional.bind (extractTuple_related h ts) fun _ => h.compositional.pure _

variable (self : DataPresentation)

/-- The pack, read with bounds checks. -/
def checked (ts : List AnyTy) (packet : Packet) : EStateM.Result Exn Checked (Tuple ts) :=
  (extractTuple fl Checked.archive ts).run ⟨self.params, packet.buffer_, 0⟩

/-- No block of the pack sticks out of the packet, and its size can be counted. -/
def Bounded (ts : List AnyTy) (packet : Packet) : Prop :=
  endError (self.checked fl ts packet) ≠ some overrun

instance (ts : List AnyTy) (packet : Packet) : Decidable (self.Bounded fl ts packet) :=
  inferInstanceAs (Decidable (_ ≠ _))

variable {fl} {self}

lemma decode_of_checked_ok {ts : List AnyTy} {packet : Packet} {vals : Tuple ts} {ch : Checked}
    (h : self.checked fl ts packet = .ok vals ch) (beyond : ℕ → UInt8) :
    ∃ ar, self.decode fl ts beyond packet = .ok vals ar ∧ Follows packet.buffer_ ar ch := by
  have htracks := (extractTuple_related fl (binary_follows packet.buffer_) ts).1 _ _
    (follows_open packet.buffer_ self.params beyond)
  rw [checked] at h
  rwa [h] at htracks

lemma decode_of_checked_error {ts : List AnyTy} {packet : Packet} {e : Exn} {ch : Checked}
    (h : self.checked fl ts packet = .error e ch) (hover : e ≠ overrun) (beyond : ℕ → UInt8) :
    ∃ ar, self.decode fl ts beyond packet = .error e ar := by
  have htracks := (extractTuple_related fl (binary_follows packet.buffer_) ts).1 _ _
    (follows_open packet.buffer_ self.params beyond)
  rw [checked] at h
  rw [h] at htracks
  obtain ⟨-, herror⟩ := htracks
  rw [if_neg hover] at herror
  cases hdecode : self.decode fl ts beyond packet with
  | ok vals ar =>
      rw [decode] at hdecode
      rw [hdecode] at herror
      cases herror.1
  | error e' ar =>
      rw [decode] at hdecode
      rw [hdecode] at herror
      exact ⟨ar, by rw [Option.some.inj herror.1]⟩

/-- What is left behind the blocks that have been read. -/
lemma consume_of_follows {packet : Packet} {ar : BinaryFromArchive} {ch : Checked}
    (h : Follows packet.buffer_ ar ch) : (packet.consume ar.getConsumed).2 = ⟨ch.rest⟩ := by
  obtain ⟨hstr, hin, rfl⟩ := h
  have hle : ar.getConsumed ≤ packet.buffer_.length := hstr ▸ hin.idx_le
  rw [Packet.consume_of_le hle]
  rfl

/-! ## One type of the pack -/

/-- Reading goes on with the same options, at the end of what has been read. -/
lemma load_state {t : AnyTy} {opts : ArchiveOptions} {b : Bytes} {k : ℕ} {val : t.α} {ch : Checked}
    (h : (load fl Checked.archive t.ty t.ty.default).run ⟨opts, b, k⟩ = .ok val ch) :
    ch.options_ = opts := by
  obtain ⟨used, r, rfl, hlocal⟩ := load_related fl checked_local t.ty t.ty.default _ _ _ _ _ h
  have hend := h.symm.trans (hlocal r)
  simp only [EStateM.Result.ok.injEq, true_and] at hend
  rw [hend]

/-- A type read in a pack is read the same from the packet that begins with it. -/
lemma extractHeader_of_load {t : AnyTy} {b : Bytes} {k : ℕ} {val : t.α} {ch : Checked}
    (h : (load fl Checked.archive t.ty t.ty.default).run ⟨self.params, b, k⟩ = .ok val ch)
    (beyond : ℕ → UInt8) :
    (self.extractHeader fl t.ty beyond).run ⟨b⟩ = .ok val ⟨ch.rest⟩ := by
  have hshift := (load_related fl (checked_shift k) t.ty t.ty.default).1 ⟨self.params, b, 0⟩
    ⟨self.params, b, k⟩ ⟨rfl, rfl, Nat.zero_add k⟩
  rw [h] at hshift
  obtain ⟨ch', hload, -, hrest, -⟩ := hshift
  obtain ⟨ar, hdecode, hfollows⟩ := @dp.decode_of_checked_ok fl _ _ t.ty self.params ⟨b⟩ _ _ _
    hload beyond
  have hconsume := consume_of_follows hfollows
  show self.extractHeader fl t.ty beyond ⟨b⟩ = _
  rw [extractHeader, hdecode]
  simp only [hconsume, hrest]

lemma extractHeader_of_error {t : AnyTy} {b : Bytes} {k : ℕ} {e : Exn} {ch : Checked}
    (h : (load fl Checked.archive t.ty t.ty.default).run ⟨self.params, b, k⟩ = .error e ch)
    (hover : e ≠ overrun) (beyond : ℕ → UInt8) :
    (self.extractHeader fl t.ty beyond).run ⟨b⟩ = .error e ⟨b⟩ := by
  have hshift := (load_related fl (checked_shift k) t.ty t.ty.default).1 ⟨self.params, b, 0⟩
    ⟨self.params, b, k⟩ ⟨rfl, rfl, Nat.zero_add k⟩
  rw [h] at hshift
  have herror := hshift.resolve_left hover
  cases hload : (load fl Checked.archive t.ty t.ty.default).run ⟨self.params, b, 0⟩ with
  | ok val ch' =>
      rw [hload] at herror
      cases herror
  | error e' ch' =>
      rw [hload] at herror
      obtain rfl : e' = e := Option.some.inj herror
      have hleft := (@dp.decode_of_checked_error fl _ _ t.ty self.params ⟨b⟩ _ _ _ hload beyond).2
      rw [if_neg hover] at hleft
      show self.extractHeader fl t.ty beyond ⟨b⟩ = _
      rw [extractHeader]
      cases hdecode : dp.decode fl t.ty t.ty.default self.params beyond ⟨b⟩ with
      | ok val ar =>
          rw [hdecode] at hleft
          cases hleft.1
      | error e'' ar =>
          rw [hdecode] at hleft
          obtain rfl : e'' = e' := Option.some.inj hleft.1
          rfl

/-! ## One type after another -/

/-- Induction on the pack: the packet is what the pack has left. -/
lemma extractEach_of_ok : ∀ (ts : List AnyTy) {b : Bytes} {k : ℕ} {vals : Tuple ts} {ch : Checked}
    (beyond : ℕ → ℕ → UInt8),
    (extractTuple fl Checked.archive ts).run ⟨self.params, b, k⟩ = .ok vals ch →
    (self.extractEach fl ts beyond).run ⟨b⟩ = .ok vals ⟨ch.rest⟩
  | [], b, k, vals, ch, beyond, h => by
      obtain ⟨rfl, rfl⟩ := EStateM.Result.ok.inj (h : EStateM.Result.ok () _ = .ok vals ch)
      rfl
  | t :: ts, b, k, vals, ch, beyond, h => by
      obtain ⟨val, ch₁, hload, hrest⟩ := run_bind_eq_ok h
      obtain ⟨others, ch₂, hothers, hpure⟩ := run_bind_eq_ok hrest
      obtain ⟨rfl, rfl⟩ := EStateM.Result.ok.inj
        (hpure : EStateM.Result.ok ((val, others) : Tuple (t :: ts)) ch₂ = .ok vals ch)
      have hone := extractHeader_of_load hload (beyond 0)
      have hmore := extractEach_of_ok ts (fun n => beyond (n + 1)) (b := ch₁.rest)
        (k := ch₁.consumed) (by rw [← load_state hload]; exact hothers)
      rw [extractEach, run_bind_ok hone, run_bind_ok hmore]
      rfl

/-- The pack fails in one of its types, and the packet is what the types before have left. -/
lemma extractEach_of_error : ∀ (ts : List AnyTy) {b : Bytes} {k : ℕ} {e : Exn} {ch : Checked}
    (beyond : ℕ → ℕ → UInt8),
    (extractTuple fl Checked.archive ts).run ⟨self.params, b, k⟩ = .error e ch → e ≠ overrun →
    ∃ before t after, ∃ (vals : Tuple before) (ch₁ : Checked), ts = before ++ t :: after ∧
      (extractTuple fl Checked.archive before).run ⟨self.params, b, k⟩ = .ok vals ch₁ ∧
      (self.extractEach fl ts beyond).run ⟨b⟩ = .error e ⟨ch₁.rest⟩
  | [], b, k, e, ch, beyond, h, _ => by cases h
  | t :: ts, b, k, e, ch, beyond, h, hover => by
      cases hload : (load fl Checked.archive t.ty t.ty.default).run ⟨self.params, b, k⟩ with
      | error e' ch' =>
          have hfail : (extractTuple fl Checked.archive (t :: ts)).run ⟨self.params, b, k⟩ =
              .error e' ch' := run_bind_error hload _
          obtain ⟨rfl, -⟩ : e' = e ∧ ch' = ch := by simpa [hfail] using h
          refine ⟨[], t, ts, (), ⟨self.params, b, k⟩, rfl, rfl, ?_⟩
          exact run_bind_error (extractHeader_of_error hload hover (beyond 0)) _
      | ok val ch' =>
          have hmore : (extractTuple fl Checked.archive ts).run ch' = .error e ch := by
            have hbind := run_bind_ok hload fun val => extractTuple fl Checked.archive ts >>=
              fun vals => pure ((val, vals) : Tuple (t :: ts))
            have hrest := hbind.symm.trans h
            cases hothers : (extractTuple fl Checked.archive ts).run ch' with
            | ok others ch₂ =>
                rw [run_bind_ok hothers] at hrest
                cases hrest
            | error e' ch₂ =>
                rw [run_bind_error hothers] at hrest
                obtain ⟨rfl, rfl⟩ := EStateM.Result.error.inj hrest
                rfl
          obtain ⟨before, t', after, vals, ch₁, rfl, hbefore, heach⟩ := extractEach_of_error ts
            (fun n => beyond (n + 1)) (b := ch'.rest) (k := ch'.consumed)
            (by rw [← load_state hload]; exact hmore) hover
          rw [← load_state hload] at hbefore
          refine ⟨t :: before, t', after, (val, vals), ch₁, rfl, ?_, ?_⟩
          · rw [extractTuple, run_bind_ok hload, run_bind_ok hbefore]
            rfl
          · rw [extractEach, run_bind_ok (extractHeader_of_load hload (beyond 0)),
              run_bind_error heach]

/-! ## At once or one after another -/

lemma extract_of_checked_ok {ts : List AnyTy} {packet : Packet} {vals : Tuple ts} {ch : Checked}
    (h : self.checked fl ts packet = .ok vals ch) (beyond : ℕ → UInt8) :
    self.extract fl ts beyond packet = .ok vals ⟨ch.rest⟩ ∧
      self.deserialize fl ts beyond packet = .ok vals := by
  obtain ⟨ar, hdecode, hfollows⟩ := decode_of_checked_ok h beyond
  rw [extract, deserialize, hdecode]
  exact ⟨by simp only [consume_of_follows hfollows], rfl⟩

/-- **At once or one after another**: from a packet whose blocks do not stick out of it, a pack
gives the values, and leaves the rest, that its types give and leave one after another.  An
exception is the same one; the pack leaves the packet as it was, and the types one after another
leave it without the values in front of the one that failed. -/
theorem extract_at_once (fl : FloatCast) (self : DataPresentation) (ts : List AnyTy)
    (packet : Packet) (hbounded : self.Bounded fl ts packet) (beyond : ℕ → UInt8)
    (beyondEach : ℕ → ℕ → UInt8) :
    match self.extract fl ts beyond packet with
    | .ok vals rest => self.extractEach fl ts beyondEach packet = .ok vals rest ∧
        self.deserialize fl ts beyond packet = .ok vals
    | .error e packet' => packet' = packet ∧ self.deserialize fl ts beyond packet = .error e ∧
        ∃ before t after, ∃ (vals : Tuple before) (rest : Packet), ts = before ++ t :: after ∧
          self.extract fl before beyond packet = .ok vals rest ∧
          self.extractEach fl ts beyondEach packet = .error e rest := by
  cases hchecked : self.checked fl ts packet with
  | ok vals ch =>
      obtain ⟨hextract, hdeserialize⟩ := extract_of_checked_ok hchecked beyond
      rw [hextract]
      exact ⟨extractEach_of_ok ts beyondEach hchecked, hdeserialize⟩
  | error e ch =>
      have hover : e ≠ overrun := by
        rintro rfl
        exact hbounded (by rw [hchecked]; rfl)
      obtain ⟨ar, hdecode⟩ := decode_of_checked_error hchecked hover beyond
      obtain ⟨before, t, after, vals, ch₁, hts, hbefore, heach⟩ :=
        extractEach_of_error ts beyondEach hchecked hover
      have hextract : self.extract fl ts beyond packet = .error e packet := by rw [extract, hdecode]
      rw [hextract]
      refine ⟨rfl, by rw [deserialize, hdecode], before, t, after, vals, ⟨ch₁.rest⟩, hts, ?_, heach⟩
      exact (extract_of_checked_ok hbefore beyond).1

/-- A byte and a string of a length that is not there: the byte is gone, or it is not. -/
theorem extract_at_once_cut :
    match (⟨⟨true⟩⟩ : DataPresentation).extract default [⟨.pod (.raw .w8)⟩, ⟨.string⟩]
        (fun _ => 0) ⟨[7]⟩ with
    | .ok _ _ => False
    | .error e packet => packet = ⟨[7]⟩ ∧ e = endOfData ∧
        (⟨⟨true⟩⟩ : DataPresentation).extractEach default [⟨.pod (.raw .w8)⟩, ⟨.string⟩]
          (fun _ _ => 0) ⟨[7]⟩ = .error endOfData ⟨[]⟩ := by
  have h := extract_at_once default ⟨⟨true⟩⟩ [⟨.pod (.raw .w8)⟩, ⟨.string⟩] ⟨[7]⟩ (by decide)
    (fun _ => 0) (fun _ _ => 0)
  exact ⟨h.1, rfl, rfl⟩

/-! ## Round trip -/

/-- The types of a pack of values. -/
def types (vals : List Value) : List AnyTy := vals.map fun v => ⟨v.ty⟩

/-- What becomes of the values, each read into what its type defaults to. -/
def received (fl : FloatCast) (c : Bool) : (vals : List Value) → Tuple (types vals)
  | [] => ()
  | v :: vals => (readBack fl c v.ty v.ty.default v.val, received fl c vals)

lemma storeAll_eq {σ : Type} {A : ToArchive σ} (hA : ToArchive.Lawful A) (vals : List Value)
    (ar : σ) : storeAll fl A vals ar =
      A.append (vals.flatMap fun v => enc fl (A.compressDouble ar) v.ty v.val) ar := by
  have hstore := @foldl_append_eq _ _ hA _ _ (fun c (v : Value) => enc fl c v.ty v.val)
    (fun ar (v : Value) => store_eq fl hA v.ty v.val ar) vals ar
  rw [storeAll, hstore]

/-- A pack is written behind what the packet holds. -/
lemma serialize_eq (vals : List Value) (packet : Packet) :
    (self.serialize fl vals packet).buffer_ =
      packet.buffer_ ++ vals.flatMap fun v => enc fl self.params.compressDouble v.ty v.val := by
  rw [serialize, storeAll_eq BinaryToArchive.lawful]
  rfl

lemma reads_pack (c : Bool) : ∀ {vals : List Value}, (∀ v ∈ vals, CountsFit v.ty v.val) →
    Reads c (vals.flatMap fun v => enc fl c v.ty v.val) (received fl c vals)
      (extractTuple fl Checked.archive (types vals))
  | [], _ => Reads.pure ()
  | v :: vals, hfit => by
      have hone := reads_enc fl (c := c) v.ty v.ty.default v.val (hfit v (by simp))
      have hmore := reads_pack c fun x hx => hfit x (List.mem_cons_of_mem _ hx)
      exact hone.bind (hmore.map rfl)

/-- A pack comes out of a packet it stands at the front of. -/
theorem extract_written {vals : List Value} (hfit : ∀ v ∈ vals, CountsFit v.ty v.val)
    (hcount : (vals.flatMap fun v => enc fl self.params.compressDouble v.ty v.val).length < 2 ^ 32)
    {packet : Packet} {r : Bytes} (hbuf : packet.buffer_ =
      (vals.flatMap fun v => enc fl self.params.compressDouble v.ty v.val) ++ r)
    (beyond : ℕ → UInt8) :
    self.extract fl (types vals) beyond packet =
        .ok (received fl self.params.compressDouble vals) ⟨r⟩ ∧
      self.deserialize fl (types vals) beyond packet =
        .ok (received fl self.params.compressDouble vals) := by
  have hread := @reads_pack fl self.params.compressDouble vals hfit self.params r 0 rfl (by omega)
  rw [← hbuf] at hread
  exact extract_of_checked_ok hread beyond

end DataPresentation

end CpsCore

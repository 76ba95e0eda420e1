import Mathlib
import CpsCore.DataPresentation.RoundTrip

/-!
# The counts in front of containers

`store` writes the size of a string, a vector or a map through a `static_cast` to its field and
then every element.  It refuses nothing, so a container with more elements than the field can
count is written with a count that is too small, and what follows is read out of its surplus
elements.

* `truthful_iff` — the counts written are the numbers of elements behind them exactly where they
  fit their fields.
* `second_comes_back_iff` — behind such a value the next one is found, and read as what was
  written if it survives being written and read at all.
* `byte_behind_string_iff` — behind a longer string it is not found.
* `counts_hold_iff` — when both hold of two values.
-/

namespace CpsCore.dp

open StateExcept

variable (fl : FloatCast)

/-! ## What is written -/

/-- The block is a count field that holds `n`, and the elements. -/
def Counted (w : IntWidth) (n : ℕ) (elements block : Bytes) : Prop :=
  ∃ count : Bytes, count.length = w.bytes ∧ LittleEndian.toNat count = n ∧
    block = count ++ elements

/-- Every count in what is written for the value is the number of elements behind it. -/
def Truthful (opts : ArchiveOptions) : {o : Bool} → {α : Type} → Ty o α → α → Prop
  | _, _, .string, val =>
      Counted .w16 val.length val (serialize fl .string val opts).buffer_
  | _, _, .vector t, val =>
      Counted .w16 val.length (val.flatMap fun it => (serialize fl t it opts).buffer_)
        (serialize fl (.vector t) val opts).buffer_ ∧
      ∀ it ∈ val, Truthful opts t it
  | _, _, .optional t, val => ∀ it ∈ val, Truthful opts t it
  | _, _, .array _ t, val => ∀ it ∈ val.toList, Truthful opts t it
  | _, _, @Ty.map _ _ _ _ k t, val =>
      Counted .w8 val.size
        (val.entries.flatMap fun it =>
          (serialize fl k it.1 opts).buffer_ ++ (serialize fl t it.2 opts).buffer_)
        (serialize fl (.map k t) val opts).buffer_ ∧
      ∀ it ∈ val.entries, Truthful opts k it.1 ∧ Truthful opts t it.2
  | _, _, .pair s t, val => Truthful opts s val.1 ∧ Truthful opts t val.2
  | _, _, .param _ t rest, val => Truthful opts t val.1 ∧ Truthful opts rest val.2
  | _, _, .custom fields t, val => Truthful opts t (fields val)
  | _, _, .configuration lib, val =>
      Counted .w16 (lib.dump val).length (lib.dump val)
        (serialize fl (.configuration lib) val opts).buffer_
  | _, _, _, _ => True

variable {fl}

/-- A count that was narrowed to its field is right as long as it fits. -/
lemma counted_iff (w : IntWidth) (n : ℕ) (elements : Bytes) :
    Counted w n elements (encCount w n ++ elements) ↔ n < 2 ^ w.bits := by
  have hlen : (encCount w n).length = w.bytes := w.length_toBytes _
  have hback : w.ofBytes (encCount w n) = BitVec.ofNat w.bits n := w.ofBytes_toBytes _
  have hfield : LittleEndian.toNat (encCount w n) = n % 2 ^ w.bits := by
    have hlt : LittleEndian.toNat (encCount w n) < 2 ^ w.bits := by
      have h := LittleEndian.toNat_lt (encCount w n)
      rwa [hlen, show (256 : ℕ) = 2 ^ 8 from rfl, ← pow_mul] at h
    have hnat := congrArg BitVec.toNat hback
    rwa [IntWidth.ofBytes, BitVec.toNat_ofNat, BitVec.toNat_ofNat, Nat.mod_eq_of_lt hlt] at hnat
  constructor
  · rintro ⟨count, hcount, hn, heq⟩
    obtain rfl : encCount w n = count := (List.append_inj heq (hlen.trans hcount.symm)).1
    rw [← hn, hfield]
    exact Nat.mod_lt _ (Nat.two_pow_pos _)
  · intro hlt
    exact ⟨_, hlen, by rw [hfield, Nat.mod_eq_of_lt hlt], rfl⟩

/-- **When the counts are right.** -/
theorem truthful_iff {opts : ArchiveOptions} : ∀ {o : Bool} {α : Type} (t : Ty o α) (val : α),
    Truthful fl opts t val ↔ CountsFit t val
  | _, _, .pod _, _ => Iff.rfl
  | _, _, .enum _, _ => Iff.rfl
  | _, _, .double, _ => Iff.rfl
  | _, _, .string, val => by
      rw [Truthful, serialize_eq]
      exact counted_iff .w16 val.length val
  | _, _, .vector t, val => by
      simp only [Truthful, serialize_eq]
      exact and_congr (counted_iff .w16 val.length _) (forall₂_congr fun it _ => truthful_iff t it)
  | _, _, .optional t, val => forall₂_congr fun it _ => truthful_iff t it
  | _, _, .array _ t, val => forall₂_congr fun it _ => truthful_iff t it
  | _, _, @Ty.map _ _ _ _ k t, val => by
      simp only [Truthful, serialize_eq]
      exact and_congr (counted_iff .w8 val.size _) (forall₂_congr fun it _ =>
        and_congr (truthful_iff k it.1) (truthful_iff t it.2))
  | _, _, .pair s t, val => and_congr (truthful_iff s val.1) (truthful_iff t val.2)
  | _, _, .noParams, _ => Iff.rfl
  | _, _, .param _ t rest, val => and_congr (truthful_iff t val.1) (truthful_iff rest val.2)
  | _, _, .eigen _ _ _ _, _ => Iff.rfl
  | _, _, .custom fields t, val => truthful_iff t (fields val)
  | _, _, .timePoint, _ => Iff.rfl
  | _, _, .configuration lib, val => by
      rw [Truthful, serialize_eq]
      exact counted_iff .w16 (lib.dump val).length _

/-! ## What is read behind it -/

/-- Written one after the other and read back in this order, whatever becomes of `v₁`, `v₂` is
read as no other value. -/
def SecondComesBack (fl : FloatCast) (opts : ArchiveOptions) (trailing : Bytes)
    (beyond : ℕ → UInt8) (v₁ v₂ : Item) : Prop :=
  ∀ x ar, (load fl BinaryFromArchive.archive v₁.ty v₁.target).run
      (BinaryFromArchive.open_ (written fl opts [v₁, v₂] ++ trailing) opts beyond) = .ok x ar →
    ∀ y ar', (load fl BinaryFromArchive.archive v₂.ty v₂.target).run ar = .ok y ar' → y = v₂.val

lemma written_pair (opts : ArchiveOptions) (v₁ v₂ : Item) :
    written fl opts [v₁, v₂] = enc fl opts.compressDouble v₁.ty v₁.val ++
      enc fl opts.compressDouble v₂.ty v₂.val := by
  rw [written_eq]
  simp [Value.encoding_eq]

/-- **The next value is found** behind one whose counts fit, so it is read as another one only if
it does not survive being written and read. -/
theorem second_comes_back_iff {opts : ArchiveOptions} {trailing : Bytes} {beyond : ℕ → UInt8}
    {v₁ v₂ : Item} (h₁ : CountsFit v₁.ty v₁.val) (h₂ : CountsFit v₂.ty v₂.val)
    (hlen : (written fl opts [v₁, v₂]).length < 2 ^ 32) :
    SecondComesBack fl opts trailing beyond v₁ v₂ ↔
      Survives fl opts.compressDouble v₂.ty v₂.target v₂.val := by
  have hopen := follows_open (written fl opts [v₁, v₂] ++ trailing) opts beyond
  rw [written_pair, List.length_append] at hlen
  rw [written_pair, List.append_assoc] at hopen
  obtain ⟨ar₁, hrun₁, har₁⟩ := reads_enc_follows v₁.ty v₁.target h₁ hopen (by omega)
  obtain ⟨ar₂, hrun₂, -⟩ := reads_enc_follows v₂.ty v₂.target h₂ har₁ (by omega)
  rw [SecondComesBack, written_pair, List.append_assoc, ← readBack_eq_self_iff]
  constructor
  · intro hback
    exact hback _ ar₁ hrun₁ _ ar₂ hrun₂
  · intro hback x ar hx y ar' hy
    rw [hrun₁] at hx
    simp only [EStateM.Result.ok.injEq] at hx
    obtain ⟨-, rfl⟩ := hx
    rw [hrun₂] at hy
    simp only [EStateM.Result.ok.injEq] at hy
    rw [← hy.1, hback]

/-- A string, and a byte. -/
def stringItem (str : Bytes) : Item := ⟨⟨.string, str⟩, []⟩

def byteItem (b : BitVec IntWidth.w8.bits) : Item :=
  ⟨⟨.pod (.raw .w8), b⟩, (0 : BitVec IntWidth.w8.bits)⟩

/-- What the checked archive makes of a string whose count was narrowed. -/
lemma reads_narrowed (c : Bool) (str : Bytes) :
    Reads c (encCount .w16 str.length ++ str.take (str.length % 2 ^ 16))
      (str.take (str.length % 2 ^ 16)) (load fl Checked.archive .string []) := by
  refine (reads_count .w16 str.length).bind ?_
  have hsize : (BitVec.ofNat IntWidth.w16.bits str.length).toNat =
      (str.take (str.length % 2 ^ 16)).length := by
    rw [List.length_take, Nat.min_eq_left (Nat.mod_le _ _)]
    rfl
  rw [hsize]
  exact Reads.read _

/-- **Behind a string that is too long** the next byte is read out of its surplus, whatever was
written there. -/
theorem byte_out_of_surplus {opts : ArchiveOptions} {trailing : Bytes} {beyond : ℕ → UInt8}
    {str rest : Bytes} {x : UInt8} (hsurplus : str.drop (str.length % 2 ^ 16) = x :: rest)
    (b : BitVec IntWidth.w8.bits) : ∃ y ar ar',
      (load fl BinaryFromArchive.archive .string []).run
        (BinaryFromArchive.open_ (written fl opts [stringItem str, byteItem b] ++ trailing) opts
          beyond) = .ok y ar ∧
      (load fl BinaryFromArchive.archive (.pod (.raw .w8)) (0 : BitVec IntWidth.w8.bits)).run ar =
        .ok (IntWidth.w8.ofBytes [x]) ar' := by
  have hopen := follows_open (written fl opts [stringItem str, byteItem b] ++ trailing) opts beyond
  have hbytes : written fl opts [stringItem str, byteItem b] ++ trailing =
      (encCount .w16 str.length ++ str.take (str.length % 2 ^ 16)) ++
        ([x] ++ (rest ++ (enc fl opts.compressDouble (.pod (.raw .w8)) b ++ trailing))) := by
    have hstr : str = str.take (str.length % 2 ^ 16) ++ x :: rest := by
      rw [← hsurplus, List.take_append_drop]
    rw [written_pair]
    show encCount .w16 str.length ++ str ++ _ ++ trailing = _
    nth_rewrite 2 [hstr]
    simp [byteItem]
  rw [hbytes] at hopen ⊢
  have hshort : (encCount .w16 str.length ++ str.take (str.length % 2 ^ 16)).length < 2 ^ 17 := by
    have hmod : str.length % 2 ^ 16 < 2 ^ 16 := Nat.mod_lt _ (by decide)
    have hcount : (encCount .w16 str.length).length = 2 := IntWidth.w16.length_toBytes _
    rw [List.length_append, List.length_take, hcount]
    omega
  obtain ⟨ar, hrun, har⟩ := follows_of_reads (reads_narrowed opts.compressDouble str) hopen
    (by omega)
  have hbyte : Reads opts.compressDouble [x] (IntWidth.w8.ofBytes [x])
      (load fl Checked.archive (.pod (.raw .w8)) (0 : BitVec IntWidth.w8.bits)) := by
    have hpod := @reads_pod opts.compressDouble _ (.raw .w8) (IntWidth.w8.ofBytes [x])
    rwa [Pod.toBytes, IntWidth.toBytes_ofBytes rfl] at hpod
  obtain ⟨ar', hrun', -⟩ := follows_of_reads hbyte har (by
    rw [List.length_singleton]
    omega)
  exact ⟨_, ar, ar', hrun, hrun'⟩

/-- **A byte behind a string** comes back, whichever it is, exactly when the string is shorter
than its count field can say. -/
theorem byte_behind_string_iff (opts : ArchiveOptions) (trailing : Bytes) (beyond : ℕ → UInt8)
    (str : Bytes) :
    (∀ b, SecondComesBack fl opts trailing beyond (stringItem str) (byteItem b)) ↔
      str.length < 2 ^ 16 := by
  constructor
  · intro hall
    by_contra hlong
    have hmod : str.length % 2 ^ 16 < 2 ^ 16 := Nat.mod_lt _ (by decide)
    cases hsurplus : str.drop (str.length % 2 ^ 16) with
    | nil =>
        rw [List.drop_eq_nil_iff] at hsurplus
        omega
    | cons x rest =>
        -- a byte other than the first one of the surplus
        obtain ⟨y, ar, ar', hrun, hrun'⟩ := @byte_out_of_surplus fl opts trailing beyond str rest x
          hsurplus (IntWidth.w8.ofBytes [x] + 1)
        have hsame : IntWidth.w8.ofBytes [x] = IntWidth.w8.ofBytes [x] + 1 :=
          hall _ y ar hrun _ ar' hrun'
        exact absurd (left_eq_add.mp hsame) (by decide)
  · intro hlt b
    refine (@second_comes_back_iff fl opts trailing beyond (stringItem str) (byteItem b) hlt trivial
      ?_).mpr trivial
    have hstr : (enc fl opts.compressDouble .string str).length = 2 + str.length := by
      show (encCount .w16 str.length ++ str).length = _
      rw [List.length_append]
      rfl
    have hbyte : (enc fl opts.compressDouble (.pod (.raw .w8)) b).length = 1 :=
      IntWidth.w8.length_toBytes b
    rw [written_pair, List.length_append]
    show (enc fl opts.compressDouble .string str).length +
      (enc fl opts.compressDouble (.pod (.raw .w8)) b).length < 2 ^ 32
    omega

/-! ## The law -/

/-- Every count in what is written for two values is the number of elements behind it, and the
second value is read as no other one behind the first. -/
def CountsHold (fl : FloatCast) (opts : ArchiveOptions) (trailing : Bytes) (beyond : ℕ → UInt8)
    (v₁ v₂ : Item) : Prop :=
  Truthful fl opts v₁.ty v₁.val ∧ Truthful fl opts v₂.ty v₂.val ∧
    SecondComesBack fl opts trailing beyond v₁ v₂

/-- **When the counts hold**: as far as the index of the archive, an `unsigned int`, reaches.
Beyond that the archive reads from the front again, and what it makes of the second value there
is left to chance. -/
theorem counts_hold_iff (fl : FloatCast) (opts : ArchiveOptions) (trailing : Bytes)
    (beyond : ℕ → UInt8) (v₁ v₂ : Item) :
    ((written fl opts [v₁, v₂]).length < 2 ^ 32 →
      (CountsHold fl opts trailing beyond v₁ v₂ ↔
        CountsFit v₁.ty v₁.val ∧ CountsFit v₂.ty v₂.val ∧
          Survives fl opts.compressDouble v₂.ty v₂.target v₂.val)) ∧
    (CountsHold fl opts trailing beyond v₁ v₂ →
      CountsFit v₁.ty v₁.val ∧ CountsFit v₂.ty v₂.val) := by
  rw [CountsHold, truthful_iff, truthful_iff]
  constructor
  · intro hlen
    exact and_congr_right fun h₁ => and_congr_right fun h₂ => second_comes_back_iff h₁ h₂ hlen
  · rintro ⟨h₁, h₂, -⟩
    exact ⟨h₁, h₂⟩

/-- A string of `2 ^ 16` bytes is written with the count 0, and not every byte behind it comes
back. -/
theorem counts_fail : ¬CountsHold default ⟨false⟩ [] (fun _ => 0)
      (stringItem (List.replicate (2 ^ 16) 0)) (byteItem 1) ∧
    ¬∀ b, SecondComesBack default ⟨false⟩ [] (fun _ => 0)
      (stringItem (List.replicate (2 ^ 16) 0)) (byteItem b) := by
  have hlong : ¬(List.replicate (2 ^ 16) (0 : UInt8)).length < 2 ^ 16 := by
    rw [List.length_replicate]
    omega
  constructor
  · rintro ⟨h₁, -⟩
    exact hlong ((truthful_iff .string _).mp h₁)
  · rw [byte_behind_string_iff]
    exact hlong

end CpsCore.dp

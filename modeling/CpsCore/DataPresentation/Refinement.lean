import Mathlib
import CpsCore.DataPresentation.CheckedArchive

/-!
# The binary archive follows the checked one

`BinaryFromArchive` copies what its string holds at `idx_` and never compares the end of a block
with the end of the string.  Run next to the checked archive:

* as long as the checked archive reads on, both hold the same position and have returned the
  same bytes (`Follows`);
* where the checked archive refuses a block, the binary archive has strayed (`Strayed`): it has
  copied a block that sticks out of the string, or has counted past `2 ^ 32`;
* every other error is thrown by both.

`decode_of_checked_ok` and `decode_of_checked_error` state this for whole values.
-/

namespace CpsCore.dp

open StateExcept BinaryFromArchive

variable (fl : FloatCast)

/-- Every block copied so far is a slice of the string, and `idx_` counts them. -/
structure InBounds (ar : BinaryFromArchive) : Prop where
  idx_le : ar.idx_ ≤ ar.string_.length
  idx_lt : ar.idx_ < 2 ^ 32
  total : (ar.blocks.map Prod.snd).sum = ar.idx_
  inside : ∀ b ∈ ar.blocks, b.1 + b.2 ≤ ar.string_.length
  covers : ∀ i < ar.idx_, ∃ b ∈ ar.blocks, b.1 ≤ i ∧ i < b.1 + b.2

/-- A block was copied that is not a slice of the string, or more bytes were copied than `idx_`
can count (from a string that has as many). -/
def Strayed (ar : BinaryFromArchive) : Prop :=
  (∃ b ∈ ar.blocks, ar.string_.length < b.1 + b.2) ∨
    (2 ^ 32 ≤ (ar.blocks.map Prod.snd).sum ∧ 2 ^ 32 ≤ ar.string_.length)

/-- Both archives are at the same place of `str`. -/
def Follows (str : Bytes) (ar : BinaryFromArchive) (ch : Checked) : Prop :=
  ar.string_ = str ∧ InBounds ar ∧ ch = ⟨ar.options_, str.drop ar.idx_, ar.idx_⟩

/-- Where the binary archive is after the checked one has thrown `e`. -/
def Left (str : Bytes) (e : Exn) (o : Option Exn) (ar : BinaryFromArchive) : Prop :=
  ar.string_ = str ∧ if e = overrun then Strayed ar else o = some e ∧ InBounds ar

lemma inBounds_open (str : Bytes) (opts : ArchiveOptions) (beyond : ℕ → UInt8) :
    InBounds (open_ str opts beyond) where
  idx_le := Nat.zero_le _
  idx_lt := Nat.two_pow_pos 32
  total := rfl
  inside := by simp [open_]
  covers i hi := absurd hi (Nat.not_lt_zero i)

lemma follows_open (str : Bytes) (opts : ArchiveOptions) (beyond : ℕ → UInt8) :
    Follows str (open_ str opts beyond) ⟨opts, str, 0⟩ :=
  ⟨rfl, inBounds_open str opts beyond, rfl⟩

lemma Follows.getConsumed {str : Bytes} {ar : BinaryFromArchive} {ch : Checked}
    (h : Follows str ar ch) : ar.getConsumed = ch.consumed := by
  obtain ⟨-, -, rfl⟩ := h
  rfl

section Blocks

variable {ar : BinaryFromArchive} {bytes : ℕ}

/-- A block that fits keeps the archive within bounds. -/
lemma InBounds.advance (h : InBounds ar) (hfit : ar.idx_ + bytes ≤ ar.string_.length)
    (hcount : ar.idx_ + bytes < 2 ^ 32) : InBounds (ar.advance bytes) := by
  have hidx : (ar.advance bytes).idx_ = ar.idx_ + bytes := Nat.mod_eq_of_lt hcount
  refine ⟨by rw [hidx]; exact hfit, by rw [hidx]; exact hcount, ?_, ?_, ?_⟩
  · rw [hidx]
    simp [BinaryFromArchive.advance, h.total]
  · intro b hb
    rcases List.mem_append.mp hb with hb | hb
    · exact h.inside b hb
    · obtain rfl := List.mem_singleton.mp hb
      exact hfit
  · intro i hi
    rw [hidx] at hi
    rcases Nat.lt_or_ge i ar.idx_ with hlt | hge
    · obtain ⟨b, hb, hin⟩ := h.covers i hlt
      exact ⟨b, List.mem_append_left _ hb, hin⟩
    · exact ⟨(ar.idx_, bytes), List.mem_append_right _ (List.mem_singleton_self _), hge, hi⟩

/-- A block that does not fit is copied all the same. -/
lemma InBounds.strayed_advance (h : InBounds ar)
    (hmiss : ¬(ar.idx_ + bytes ≤ ar.string_.length ∧ ar.idx_ + bytes < 2 ^ 32)) :
    Strayed (ar.advance bytes) := by
  rcases Nat.lt_or_ge ar.string_.length (ar.idx_ + bytes) with hout | hin
  · exact Or.inl ⟨(ar.idx_, bytes), List.mem_append_right _ (List.mem_singleton_self _), hout⟩
  · refine Or.inr ?_
    have htotal := h.total
    simp only [BinaryFromArchive.advance, List.map_append, List.map_cons, List.map_nil,
      List.sum_append, List.sum_singleton]
    constructor <;> omega

lemma Strayed.advance (h : Strayed ar) : Strayed (ar.advance bytes) := by
  rcases h with ⟨b, hb, hout⟩ | ⟨hcount, hlen⟩
  · exact Or.inl ⟨b, List.mem_append_left _ hb, hout⟩
  · refine Or.inr ⟨hcount.trans ?_, hlen⟩
    simp [BinaryFromArchive.advance]

end Blocks

section Primitives

variable {str : Bytes}

lemma left_advance {e : Exn} {ar : BinaryFromArchive} {bytes : ℕ} (h : Left str e none ar) :
    Left str e none (ar.advance bytes) := by
  obtain ⟨hstr, h⟩ := h
  refine ⟨hstr, ?_⟩
  split_ifs at h ⊢
  · exact h.advance
  · exact absurd h.1 (by simp)

lemma left_throw {e e' : Exn} {ar : BinaryFromArchive} (h : Left str e none ar) :
    Left str e (some e') ar := by
  obtain ⟨hstr, h⟩ := h
  refine ⟨hstr, ?_⟩
  split_ifs at h ⊢
  · exact h
  · exact absurd h.1 (by simp)

lemma absorbs_read (bytes : ℕ) : Absorbs (Left str) (read bytes) :=
  fun _ _ h => left_advance h

lemma absorbs_load (bytes : ℕ) : Absorbs (Left str) (BinaryFromArchive.load bytes) := by
  intro e ar h
  rcases Nat.lt_or_ge ar.idx_ ar.string_.length with hlt | hge
  · rw [run_load_of_lt hlt]
    exact left_advance h
  · rw [run_load_of_le hge]
    exact left_throw h

lemma tracks_read (bytes : ℕ) :
    Tracks (Follows str) (Left str) (read bytes) (Checked.take bytes) := by
  rintro ar ch ⟨rfl, hin, rfl⟩
  have htake : (Checked.take bytes).run ⟨ar.options_, ar.string_.drop ar.idx_, ar.idx_⟩ =
      if ar.idx_ + bytes ≤ ar.string_.length ∧ ar.idx_ + bytes < 2 ^ 32 then
        .ok ((ar.string_.drop ar.idx_).take bytes)
          ⟨ar.options_, (ar.string_.drop ar.idx_).drop bytes, ar.idx_ + bytes⟩
      else .error overrun ⟨ar.options_, ar.string_.drop ar.idx_, ar.idx_⟩ := by
    have hidx := hin.idx_le
    refine if_congr ?_ rfl rfl
    show bytes ≤ (ar.string_.drop ar.idx_).length ∧ ar.idx_ + bytes < 2 ^ 32 ↔ _
    rw [List.length_drop]
    omega
  rw [htake]
  split_ifs with hfit
  · refine ⟨ar.advance bytes, ?_, rfl, hin.advance hfit.1 hfit.2, ?_⟩
    · rw [run_read, block_eq_slice hfit.1]
    · have hidx : (ar.advance bytes).idx_ = ar.idx_ + bytes := Nat.mod_eq_of_lt hfit.2
      rw [hidx, List.drop_drop]
      rfl
  · refine ⟨rfl, ?_⟩
    rw [if_pos rfl]
    exact hin.strayed_advance hfit

lemma tracks_load (bytes : ℕ) : Tracks (Follows str) (Left str) (BinaryFromArchive.load bytes)
    (Checked.load bytes) := by
  rintro ar ch ⟨rfl, hin, rfl⟩
  rcases Nat.lt_or_ge ar.idx_ ar.string_.length with hlt | hge
  · have hsame : (BinaryFromArchive.load bytes).run ar = (read bytes).run ar :=
      run_load_of_lt hlt bytes
    have hload : (Checked.load bytes).run ⟨ar.options_, ar.string_.drop ar.idx_, ar.idx_⟩ =
        (Checked.take bytes).run ⟨ar.options_, ar.string_.drop ar.idx_, ar.idx_⟩ :=
      if_neg (by simpa using hlt)
    rw [hsame, hload]
    exact tracks_read bytes ar _ ⟨rfl, hin, rfl⟩
  · have hload : (Checked.load bytes).run ⟨ar.options_, ar.string_.drop ar.idx_, ar.idx_⟩ =
        .error endOfData ⟨ar.options_, ar.string_.drop ar.idx_, ar.idx_⟩ :=
      if_pos (List.drop_eq_nil_of_le hge)
    rw [hload, run_load_of_le hge]
    refine ⟨rfl, ?_⟩
    rw [if_neg endOfData_ne_overrun]
    exact ⟨rfl, hin⟩

end Primitives

/-- **The binary archive follows the checked one.** -/
theorem binary_follows (str : Bytes) :
    Related BinaryFromArchive.archive Checked.archive fun m m' =>
      Tracks (Follows str) (Left str) m m' ∧ Absorbs (Left str) m where
  compositional := Tracks.compositional
  load bytes _ := ⟨tracks_load bytes, absorbs_load bytes⟩
  read bytes := ⟨tracks_read bytes, absorbs_read bytes⟩
  option hf := by
    refine ⟨Tracks.get fun ar ch hR => ?_, Absorbs.get fun ar => (hf _).2⟩
    obtain ⟨-, -, rfl⟩ := hR
    exact (hf _).1
  badAlloc := ⟨Tracks.throw fun _ _ hR => ⟨hR.1, by rw [if_neg (by decide)]; exact ⟨rfl, hR.2.1⟩⟩,
    fun _ _ h => left_throw h⟩
  parseError := ⟨Tracks.throw fun _ _ hR => ⟨hR.1, by rw [if_neg (by decide)]; exact ⟨rfl, hR.2.1⟩⟩,
    fun _ _ h => left_throw h⟩

/-- The index of a binary archive is an `unsigned int`, whatever was read, and an `ArchiveError`
means that it stands at or behind the end of the string. -/
theorem binary_index (str : Bytes) :
    Related BinaryFromArchive.archive BinaryFromArchive.archive fun m _ =>
      Keeps (fun ar => ar.string_ = str ∧ ar.idx_ < 2 ^ 32)
        (fun e _ => ∀ what, e = .archiveError what → str.length < 2 ^ 32) m where
  compositional := Keeps.compositional
  load bytes _ := by
    rintro ar ⟨rfl, hidx⟩
    rcases Nat.lt_or_ge ar.idx_ ar.string_.length with hlt | hge
    · have h : (archive.load bytes).run ar = _ := run_load_of_lt hlt bytes
      rw [h]
      exact ⟨rfl, Nat.mod_lt _ (by decide)⟩
    · have h : (archive.load bytes).run ar = _ := run_load_of_le hge bytes
      rw [h]
      exact fun _ _ => hge.trans_lt hidx
  read bytes := fun ar har => ⟨har.1, Nat.mod_lt _ (by decide)⟩
  option hf := Keeps.get fun ar => hf _
  badAlloc := Keeps.throw fun ar _ what h => by cases h
  parseError := Keeps.throw fun ar _ what h => by cases h

/-- The errors of the checked archive. -/
theorem checked_errors : Related Checked.archive Checked.archive fun m _ =>
    Keeps (fun _ => True)
      (fun e _ => e = endOfData ∨ e = overrun ∨ e = .badAlloc ∨ e = .parseError) m where
  compositional := Keeps.compositional
  load bytes _ := by
    rintro ⟨opts, b, k⟩ -
    by_cases hb : b = []
    · have h : (Checked.archive.load bytes).run ⟨opts, b, k⟩ = _ := if_pos hb
      rw [h]
      exact Or.inl rfl
    · have h : (Checked.archive.load bytes).run ⟨opts, b, k⟩ = (Checked.take bytes) ⟨opts, b, k⟩ :=
        if_neg hb
      rw [h, Checked.take]
      split_ifs <;> simp
  read bytes := by
    rintro ⟨opts, b, k⟩ -
    have h : (Checked.archive.read bytes).run ⟨opts, b, k⟩ = (Checked.take bytes) ⟨opts, b, k⟩ :=
      rfl
    rw [h, Checked.take]
    split_ifs <;> simp
  option hf := Keeps.get fun ar => hf _
  badAlloc := Keeps.throw fun _ _ => by simp
  parseError := Keeps.throw fun _ _ => by simp

end CpsCore.dp

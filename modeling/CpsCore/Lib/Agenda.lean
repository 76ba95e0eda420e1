import Mathlib
import CpsCore.Lib.Multimap

/-!
# Agendas

An agenda is a multimap from times to events, some of which are periodic.  The first entry is taken
out, and comes back a period later.

* `advance`, `taken`: one entry, and the entries of any number of advances.
* `taken_comparable`: of two parties that work off one agenda, one is behind the other.
* `taken_shift`: it does not matter when the agenda begins.
-/

universe u v

namespace Multimap

variable {κ : Type u} {α : Type v} [LinearOrder κ]

lemma ext_entries {m m' : Multimap κ α} (h : m.entries = m'.entries) : m = m' := by
  cases m
  cases m'
  simpa using h

/-! ## Working it off -/

section Advance

variable [Add κ] (period : α → Option κ)

/-- The first entry is taken, and put back a period later if its event has one. -/
def advance (m : Multimap κ α) : Multimap κ α :=
  match m.begin? with
  | none => m
  | some entry =>
      match period entry.2 with
      | some p => (m.insert (entry.1 + p) entry.2).eraseBegin
      | none => m.eraseBegin

/-- The entries taken in the first `n` advances, if there are as many. -/
def taken : ℕ → Multimap κ α → List (κ × α)
  | 0, _ => []
  | n + 1, m =>
      match m.begin? with
      | none => []
      | some entry => entry :: taken n (m.advance period)

variable {period} {m : Multimap κ α}

lemma advance_of_begin? {entry : κ × α} (h : m.begin? = some entry) :
    m.advance period = match period entry.2 with
      | some p => (m.insert (entry.1 + p) entry.2).eraseBegin
      | none => m.eraseBegin := by
  rw [advance, h]

lemma advance_of_none (h : m.begin? = none) : m.advance period = m := by rw [advance, h]

lemma taken_of_begin? {entry : κ × α} (h : m.begin? = some entry) (n : ℕ) :
    taken period (n + 1) m = entry :: taken period n (m.advance period) := by
  rw [taken, h]

/-- **One more** is the entry that is first then. -/
lemma taken_succ (n : ℕ) (m : Multimap κ α) :
    taken period (n + 1) m = taken period n m ++ ((advance period)^[n] m).begin?.toList := by
  induction n generalizing m with
  | zero => cases h : m.begin? <;> simp [taken, h]
  | succ n ih =>
      cases h : m.begin? with
      | none =>
          have hstays : (advance period)^[n + 1] m = m :=
            Function.iterate_fixed (advance_of_none h) (n + 1)
          simp [taken, h, hstays]
      | some entry =>
          rw [taken_of_begin? h, taken_of_begin? h, Function.iterate_succ_apply, ih,
            List.cons_append]

lemma taken_mono {n k : ℕ} (hle : n ≤ k) (m : Multimap κ α) :
    taken period n m <+: taken period k m := by
  induction hle with
  | refl => exact List.prefix_rfl
  | step _ ih =>
      rw [taken_succ]
      exact ih.trans (List.prefix_append _ _)

/-- **One is behind the other.** -/
theorem taken_comparable (n k : ℕ) (m : Multimap κ α) :
    taken period n m <+: taken period k m ∨ taken period k m <+: taken period n m :=
  (le_total n k).imp (taken_mono · m) (taken_mono · m)

end Advance

/-! ## At another time -/

section Shift

variable [AddCommMonoid κ] [IsOrderedCancelAddMonoid κ]

/-- All entries, later by `d`. -/
def shift (d : κ) (m : Multimap κ α) : Multimap κ α where
  entries := m.entries.map fun entry => (d + entry.1, entry.2)
  sorted := by
    rw [Sorted, List.pairwise_map]
    exact m.sorted.imp fun h => by simpa using h

lemma insertUpper_shift (d : κ) (entry : κ × α) (l : List (κ × α)) :
    insertUpper (d + entry.1, entry.2) (l.map fun x => (d + x.1, x.2)) =
      (insertUpper entry l).map fun x => (d + x.1, x.2) := by
  induction l with
  | nil => simp [insertUpper]
  | cons x l ih =>
      simp only [List.map_cons, insertUpper, add_le_add_iff_left]
      split
      · rw [ih, List.map_cons]
      · simp

@[simp] lemma begin?_shift (d : κ) (m : Multimap κ α) :
    (m.shift d).begin? = m.begin?.map fun entry => (d + entry.1, entry.2) := by
  simp [begin?, shift]

lemma insert_shift (d : κ) (m : Multimap κ α) (k : κ) (a : α) :
    (m.shift d).insert (d + k) a = (m.insert k a).shift d :=
  ext_entries (insertUpper_shift d (k, a) m.entries)

lemma eraseBegin_shift (d : κ) (m : Multimap κ α) :
    (m.shift d).eraseBegin = m.eraseBegin.shift d :=
  ext_entries (List.map_tail ..).symm

variable {period : α → Option κ}

lemma advance_shift (d : κ) (m : Multimap κ α) :
    (m.shift d).advance period = (m.advance period).shift d := by
  rw [advance, advance, begin?_shift]
  cases m.begin? with
  | none => rfl
  | some entry =>
      simp only [Option.map_some]
      cases period entry.2 with
      | none => exact eraseBegin_shift d m
      | some p => simp only [add_assoc, insert_shift, eraseBegin_shift]

/-- **At another time** the same entries are taken, each later by as much. -/
theorem taken_shift (d : κ) (n : ℕ) (m : Multimap κ α) :
    taken period n (m.shift d) =
      (taken period n m).map fun entry => (d + entry.1, entry.2) := by
  induction n generalizing m with
  | zero => rfl
  | succ n ih =>
      rw [taken, taken, begin?_shift, advance_shift]
      cases m.begin? with
      | none => rfl
      | some entry => simp [ih]

end Shift

end Multimap

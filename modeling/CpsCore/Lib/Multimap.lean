import Mathlib

/-!
# Multimaps

A multimap is a list of entries in the order of their keys; among equal keys the entry inserted
first comes first.

* `insertUpper` puts an entry behind all entries whose key is not greater.
* `insertAll` inserts one entry after the other.  The result is the **stable sort** of the
  entries there were, followed by the new ones: `insertAll_sorted`, `filter_insertAll`.
* `insertAll_append_of_le`: what lies before all new keys can be set aside.
-/

universe u v

namespace Multimap

variable {κ : Type u} {α : Type v} [LinearOrder κ]

/-- In the order of the keys. -/
def Sorted (l : List (κ × α)) : Prop := l.Pairwise fun a b => a.1 ≤ b.1

/-- Insertion at the upper bound of the key. -/
def insertUpper (x : κ × α) : List (κ × α) → List (κ × α)
  | [] => [x]
  | y :: l => if y.1 ≤ x.1 then y :: insertUpper x l else x :: y :: l

def insertAll (l : List (κ × α)) (xs : List (κ × α)) : List (κ × α) :=
  xs.foldl (fun l x => insertUpper x l) l

@[simp] lemma insertAll_nil (l : List (κ × α)) : insertAll l [] = l := by
  simp [insertAll]

@[simp] lemma insertAll_cons (l xs : List (κ × α)) (x : κ × α) :
    insertAll l (x :: xs) = insertAll (insertUpper x l) xs := by
  simp [insertAll]

lemma insertAll_append (l xs ys : List (κ × α)) :
    insertAll l (xs ++ ys) = insertAll (insertAll l xs) ys := by
  simp [insertAll]

/-! ## What is in it -/

lemma insertUpper_perm (x : κ × α) (l : List (κ × α)) : (insertUpper x l).Perm (x :: l) := by
  induction l with
  | nil => simp [insertUpper]
  | cons y l ih =>
      simp only [insertUpper]
      split
      case isTrue => exact (ih.cons y).trans (List.Perm.swap x y l)
      case isFalse => exact List.Perm.refl _

@[simp] lemma mem_insertUpper {x y : κ × α} {l : List (κ × α)} :
    y ∈ insertUpper x l ↔ y = x ∨ y ∈ l := by
  rw [(insertUpper_perm x l).mem_iff, List.mem_cons]

lemma insertAll_perm (l xs : List (κ × α)) : (insertAll l xs).Perm (l ++ xs) := by
  induction xs generalizing l with
  | nil => simp
  | cons x xs ih =>
      rw [insertAll_cons]
      have hx : (insertUpper x l ++ xs).Perm (x :: l ++ xs) :=
        (insertUpper_perm x l).append_right xs
      exact ((ih _).trans hx).trans List.perm_middle.symm

@[simp] lemma mem_insertAll {y : κ × α} {l xs : List (κ × α)} :
    y ∈ insertAll l xs ↔ y ∈ l ∨ y ∈ xs := by
  rw [(insertAll_perm l xs).mem_iff, List.mem_append]

/-! ## In which order -/

lemma insertUpper_sorted (x : κ × α) {l : List (κ × α)} (h : Sorted l) :
    Sorted (insertUpper x l) := by
  induction l with
  | nil => simp [insertUpper, Sorted]
  | cons y l ih =>
      obtain ⟨hy, hl⟩ := List.pairwise_cons.mp h
      simp only [insertUpper]
      split
      case isTrue hle =>
        refine List.pairwise_cons.mpr ⟨?_, ih hl⟩
        intro z hz
        rcases mem_insertUpper.mp hz with rfl | hz
        · exact hle
        · exact hy z hz
      case isFalse hlt =>
        refine List.pairwise_cons.mpr ⟨?_, h⟩
        intro z hz
        rcases List.mem_cons.mp hz with rfl | hz
        · exact (lt_of_not_ge hlt).le
        · exact (lt_of_not_ge hlt).le.trans (hy z hz)

theorem insertAll_sorted (xs : List (κ × α)) {l : List (κ × α)} (h : Sorted l) :
    Sorted (insertAll l xs) := by
  induction xs generalizing l with
  | nil => simpa using h
  | cons x xs ih =>
      rw [insertAll_cons]
      exact ih (insertUpper_sorted x h)

/-- The new entry is the last one with its key. -/
lemma filter_insertUpper (k : κ) (x : κ × α) {l : List (κ × α)} (h : Sorted l) :
    (insertUpper x l).filter (fun e => e.1 = k) = (l ++ [x]).filter fun e => e.1 = k := by
  induction l with
  | nil => simp [insertUpper]
  | cons y l ih =>
      obtain ⟨hy, hl⟩ := List.pairwise_cons.mp h
      simp only [insertUpper]
      split
      case isTrue => rw [List.cons_append, List.filter_cons, List.filter_cons, ih hl]
      case isFalse hlt =>
        have hlate : ∀ z ∈ y :: l, x.1 < z.1 := by
          intro z hz
          rcases List.mem_cons.mp hz with rfl | hz
          · exact lt_of_not_ge hlt
          · exact lt_of_lt_of_le (lt_of_not_ge hlt) (hy z hz)
        by_cases hk : x.1 = k
        · have hnone : (y :: l).filter (fun e => e.1 = k) = [] := by
            rw [List.filter_eq_nil_iff]
            intro z hz
            have hlt := hlate z hz
            simpa [hk] using hlt.ne'
          rw [List.filter_append, hnone, List.filter_cons_of_pos (by simpa using hk), hnone]
          simp [hk]
        · rw [List.filter_append, List.filter_cons_of_neg (by simpa using hk)]
          simp [hk]

theorem filter_insertAll (k : κ) (xs : List (κ × α)) {l : List (κ × α)} (h : Sorted l) :
    (insertAll l xs).filter (fun e => e.1 = k) = (l ++ xs).filter fun e => e.1 = k := by
  induction xs generalizing l with
  | nil => simp
  | cons x xs ih =>
      rw [insertAll_cons, ih (insertUpper_sorted x h), List.filter_append,
        filter_insertUpper k x h, ← List.filter_append, List.append_assoc, List.singleton_append]

lemma insertUpper_append_of_le {x : κ × α} {front : List (κ × α)} (h : ∀ y ∈ front, y.1 ≤ x.1)
    (l : List (κ × α)) : insertUpper x (front ++ l) = front ++ insertUpper x l := by
  induction front with
  | nil => simp
  | cons y front ih =>
      simp only [List.mem_cons, forall_eq_or_imp] at h
      rw [List.cons_append, insertUpper, if_pos h.1, ih h.2, List.cons_append]

/-- Entries that are not later than any new one stay in front. -/
theorem insertAll_append_of_le {front xs : List (κ × α)}
    (h : ∀ y ∈ front, ∀ x ∈ xs, y.1 ≤ x.1) (l : List (κ × α)) :
    insertAll (front ++ l) xs = front ++ insertAll l xs := by
  induction xs generalizing l with
  | nil => simp
  | cons x xs ih =>
      rw [insertAll_cons, insertAll_cons,
        insertUpper_append_of_le (fun y hy => h y hy x List.mem_cons_self)]
      exact ih (fun y hy z hz => h y hy z (List.mem_cons_of_mem x hz)) _

lemma insertAll_cons_of_le {y : κ × α} {xs : List (κ × α)} (h : ∀ x ∈ xs, y.1 ≤ x.1)
    (l : List (κ × α)) : insertAll (y :: l) xs = y :: insertAll l xs :=
  @insertAll_append_of_le κ α _ [y] xs (by simpa using h) l

lemma sorted_nil : Sorted ([] : List (κ × α)) := List.Pairwise.nil

end Multimap

open Multimap in
/-- A multimap; its entries are in order by construction. -/
structure Multimap (κ : Type u) (α : Type v) [LinearOrder κ] where
  entries : List (κ × α) := []
  sorted : Sorted entries := by exact Multimap.sorted_nil

namespace Multimap

variable {κ : Type u} {α : Type v} [LinearOrder κ]

def insert (m : Multimap κ α) (k : κ) (a : α) : Multimap κ α where
  entries := insertUpper (k, a) m.entries
  sorted := insertUpper_sorted (k, a) m.sorted

def begin? (m : Multimap κ α) : Option (κ × α) := m.entries.head?

def eraseBegin (m : Multimap κ α) : Multimap κ α where
  entries := m.entries.tail
  sorted := m.sorted.tail

@[simp] lemma entries_insert (m : Multimap κ α) (k : κ) (a : α) :
    (m.insert k a).entries = insertAll m.entries [(k, a)] := by
  simp [insert]

@[simp] lemma entries_eraseBegin (m : Multimap κ α) : m.eraseBegin.entries = m.entries.tail := by
  simp [eraseBegin]

/-- The first entry has the least key. -/
lemma begin?_le {m : Multimap κ α} {x y : κ × α} (h : m.begin? = some x) (hy : y ∈ m.entries) :
    x.1 ≤ y.1 := by
  have hsorted := m.sorted
  obtain ⟨l, hl⟩ := List.head?_eq_some_iff.mp h
  rw [hl] at hy hsorted
  rcases List.mem_cons.mp hy with rfl | hy
  · exact le_rfl
  · exact (List.pairwise_cons.mp hsorted).1 y hy

lemma entries_of_begin? {m : Multimap κ α} {x : κ × α} (h : m.begin? = some x) :
    m.entries = x :: m.eraseBegin.entries := by
  obtain ⟨l, hl⟩ := List.head?_eq_some_iff.mp h
  rw [entries_eraseBegin, hl, List.tail_cons]

lemma mem_insert_self (m : Multimap κ α) (k : κ) (a : α) : (k, a) ∈ (m.insert k a).entries :=
  mem_insertUpper.mpr (Or.inl rfl)

lemma exists_begin?_of_mem {m : Multimap κ α} {x : κ × α} (h : x ∈ m.entries) :
    ∃ first, m.begin? = some first := by
  obtain ⟨first, l, hl⟩ := List.exists_cons_of_ne_nil (List.ne_nil_of_mem h)
  exact ⟨first, by rw [begin?, hl, List.head?_cons]⟩

lemma insert_perm (m : Multimap κ α) (k : κ) (a : α) :
    (m.insert k a).entries.Perm ((k, a) :: m.entries) := insertUpper_perm (k, a) m.entries

/-- Behind the first entry, it does not matter whether it is erased first. -/
lemma eraseBegin_insert_of_le {m : Multimap κ α} {x : κ × α} (h : m.begin? = some x) {k : κ}
    (hle : x.1 ≤ k) (a : α) : (m.insert k a).eraseBegin = m.eraseBegin.insert k a := by
  obtain ⟨l, hl⟩ := List.head?_eq_some_iff.mp h
  simp only [insert, eraseBegin, hl, insertUpper, if_pos hle, List.tail_cons]

lemma mem_eraseBegin_insert {m : Multimap κ α} {x : κ × α} (h : x ∈ m.eraseBegin.entries) (k : κ)
    (a : α) : x ∈ (m.insert k a).eraseBegin.entries := by
  cases hentries : m.entries with
  | nil => simp [eraseBegin, hentries] at h
  | cons y l =>
      have hx : x ∈ l := by simpa [eraseBegin, hentries] using h
      simp only [eraseBegin, insert, hentries, insertUpper]
      split
      case isTrue => exact mem_insertUpper.mpr (Or.inr hx)
      case isFalse => exact List.mem_cons_of_mem y hx

/-- Where the first value is inserted again and the first entry erased, the values stay. -/
lemma insert_eraseBegin_perm {m : Multimap κ α} {k : κ} {a : α} (h : m.begin? = some (k, a))
    (k' : κ) : ((m.insert k' a).eraseBegin.entries.map Prod.snd).Perm (m.entries.map Prod.snd) := by
  have hfirst : ∃ x, (m.insert k' a).begin? = some x ∧ x.2 = a := by
    simp only [begin?, insert, entries_of_begin? h, insertUpper]
    split
    case isTrue => exact ⟨_, rfl, rfl⟩
    case isFalse => exact ⟨_, rfl, rfl⟩
  obtain ⟨x, hx, hvalue⟩ := hfirst
  have hperm := (m.insert_perm k' a).map Prod.snd
  rw [entries_of_begin? hx, List.map_cons, List.map_cons, hvalue] at hperm
  exact hperm.cons_inv

end Multimap

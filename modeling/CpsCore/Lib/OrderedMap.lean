import Mathlib

/-!
# Maps kept as a sorted list of entries

`OrderedMap κ α` is a finite map in the order of its keys, as an ordered associative container
iterates over it.  The order of the entries and the uniqueness of the keys are one field,
`sorted`, so a list of entries that is no map cannot be built.

* `insert` — the insertion that leaves an existing entry alone;
* `update` — the assignment to an entry that is there;
* `ofList` — a list of entries inserted one after the other;
* `ofList_entries` — inserting the entries of a map in their own order rebuilds the map.
-/

universe u v

/-- A finite map, listed by strictly increasing key. -/
@[ext]
structure OrderedMap (κ : Type u) (α : Type v) [LinearOrder κ] where
  entries : List (κ × α)
  sorted : (entries.map Prod.fst).Pairwise (· < ·)

namespace OrderedMap

variable {κ : Type u} {α : Type v} [LinearOrder κ]

/-- The map with no entry. -/
def empty : OrderedMap κ α := ⟨[], List.Pairwise.nil⟩

/-- The number of entries. -/
def size (m : OrderedMap κ α) : ℕ := m.entries.length

/-- Insertion into a sorted list of entries: an entry with the same key stays as it is. -/
def insertEntry (k : κ) (a : α) : List (κ × α) → List (κ × α)
  | [] => [(k, a)]
  | e :: es =>
      if k < e.1 then (k, a) :: e :: es
      else if e.1 < k then e :: insertEntry k a es
      else e :: es

lemma mem_keys_insertEntry {k x : κ} {a : α} : ∀ {es : List (κ × α)},
    x ∈ (insertEntry k a es).map Prod.fst → x = k ∨ x ∈ es.map Prod.fst
  | [], h => by
      simp only [insertEntry, List.map_cons, List.map_nil, List.mem_singleton] at h
      exact Or.inl h
  | e :: es, h => by
      rw [insertEntry] at h
      split_ifs at h with h₁ h₂
      · simpa using h
      · rw [List.map_cons, List.mem_cons] at h
        rcases h with h | h
        · exact Or.inr (by simp [h])
        · exact (mem_keys_insertEntry h).imp_right (List.mem_cons_of_mem _)
      · exact Or.inr h

lemma sorted_insertEntry (k : κ) (a : α) : ∀ {es : List (κ × α)},
    (es.map Prod.fst).Pairwise (· < ·) →
      ((insertEntry k a es).map Prod.fst).Pairwise (· < ·)
  | [], _ => by simp [insertEntry]
  | e :: es, h => by
      have htail := List.pairwise_cons.mp h
      rw [insertEntry]
      split_ifs with h₁ h₂
      · refine List.pairwise_cons.mpr ⟨fun x hx => ?_, h⟩
        rcases List.mem_cons.mp hx with rfl | hx
        · exact h₁
        · exact h₁.trans (htail.1 x hx)
      · refine List.pairwise_cons.mpr ⟨fun x hx => ?_, sorted_insertEntry k a htail.2⟩
        rcases mem_keys_insertEntry hx with rfl | hx
        · exact h₂
        · exact htail.1 x hx
      · exact h

/-- Insertion that keeps an entry already there. -/
def insert (m : OrderedMap κ α) (k : κ) (a : α) : OrderedMap κ α :=
  ⟨insertEntry k a m.entries, sorted_insertEntry k a m.sorted⟩

/-- The value under a key. -/
def lookup (m : OrderedMap κ α) (k : κ) : Option α := m.entries.lookup k

lemma keys_update (k : κ) (a : α) (es : List (κ × α)) :
    (es.map fun e => if e.1 = k then (e.1, a) else e).map Prod.fst = es.map Prod.fst := by
  rw [List.map_map]
  refine List.map_congr_left fun e _ => ?_
  by_cases h : e.1 = k <;> simp [h]

/-- Assignment to the entry of a key. -/
def update (m : OrderedMap κ α) (k : κ) (a : α) : OrderedMap κ α :=
  ⟨m.entries.map fun e => if e.1 = k then (e.1, a) else e, by
    rw [keys_update]
    exact m.sorted⟩

/-- Every value replaced by its image; the keys stay. -/
def mapValues {β : Type*} (f : α → β) (m : OrderedMap κ α) : OrderedMap κ β :=
  ⟨m.entries.map fun e => (e.1, f e.2), by
    rw [List.map_map]
    exact m.sorted⟩

/-- The entries of a list inserted one after the other. -/
def ofList (es : List (κ × α)) : OrderedMap κ α :=
  es.foldl (fun m e => m.insert e.1 e.2) empty

@[simp] lemma lookup_empty_insert (k : κ) (a : α) :
    ((empty : OrderedMap κ α).insert k a).lookup k = some a := by
  simp [lookup, insert, insertEntry, empty]

lemma update_empty_insert (k : κ) (a b : α) :
    ((empty : OrderedMap κ α).insert k a).update k b = ofList [(k, b)] := by
  ext1
  simp [update, ofList, insert, insertEntry, empty]

/-- A key above every key of the map goes to the end. -/
lemma insertEntry_of_lt {k : κ} {a : α} : ∀ {es : List (κ × α)},
    (∀ x ∈ es.map Prod.fst, x < k) → insertEntry k a es = es ++ [(k, a)]
  | [], _ => rfl
  | e :: es, h => by
      have he : e.1 < k := h _ (by simp)
      have ih := @insertEntry_of_lt k a es
        fun x hx => h x (List.mem_cons_of_mem _ hx)
      rw [insertEntry, if_neg he.asymm, if_pos he, ih, List.cons_append]

lemma foldl_insert_entries : ∀ (es : List (κ × α)) (m : OrderedMap κ α),
    ((m.entries ++ es).map Prod.fst).Pairwise (· < ·) →
      (es.foldl (fun m e => m.insert e.1 e.2) m).entries = m.entries ++ es
  | [], m, _ => by simp
  | e :: es, m, h => by
      have hlast : (m.insert e.1 e.2).entries = m.entries ++ [e] := by
        refine insertEntry_of_lt fun x hx => ?_
        rw [List.map_append, List.pairwise_append] at h
        exact h.2.2 x hx e.1 (by simp)
      have hnext : (((m.insert e.1 e.2).entries ++ es).map Prod.fst).Pairwise (· < ·) := by
        rw [hlast, List.append_assoc]
        exact h
      rw [List.foldl_cons, foldl_insert_entries es _ hnext, hlast, List.append_assoc]
      rfl

lemma mem_insertEntry {k : κ} {a : α} {x : κ × α} : ∀ {es : List (κ × α)},
    x ∈ insertEntry k a es → x = (k, a) ∨ x ∈ es
  | [], h => Or.inl (List.mem_singleton.mp h)
  | e :: es, h => by
      rw [insertEntry] at h
      split_ifs at h with h₁ h₂
      · exact List.mem_cons.mp h
      · rcases List.mem_cons.mp h with rfl | h
        · exact Or.inr List.mem_cons_self
        · exact (mem_insertEntry h).imp_right (List.mem_cons_of_mem _)
      · exact Or.inr h

/-- The entries of the map that a list builds come from the list. -/
lemma mem_of_mem_ofList {x : κ × α} : ∀ {es : List (κ × α)}, x ∈ (ofList es).entries → x ∈ es := by
  have hfold : ∀ (es : List (κ × α)) (m : OrderedMap κ α),
      x ∈ (es.foldl (fun m e => m.insert e.1 e.2) m).entries → x ∈ m.entries ∨ x ∈ es := by
    intro es
    induction es with
    | nil => exact fun m h => Or.inl h
    | cons e es ih =>
        intro m h
        rcases ih _ h with h | h
        · rcases mem_insertEntry h with rfl | h
          · exact Or.inr List.mem_cons_self
          · exact Or.inl h
        · exact Or.inr (List.mem_cons_of_mem _ h)
  intro es h
  exact (hfold es empty h).resolve_left List.not_mem_nil

/-- A sorted list of entries is the list of the map it builds. -/
theorem ofList_of_sorted {es : List (κ × α)} (h : (es.map Prod.fst).Pairwise (· < ·)) :
    (ofList es).entries = es :=
  foldl_insert_entries es empty h

/-- Inserting the entries of a map with other values. -/
lemma ofList_mapValues {β : Type*} (f : α → β) (m : OrderedMap κ α) :
    ofList (m.entries.map fun e => (e.1, f e.2)) = m.mapValues f :=
  OrderedMap.ext (ofList_of_sorted (m.mapValues f).sorted)

/-- **Rebuilding a map from its own entries.** -/
theorem ofList_entries (m : OrderedMap κ α) : ofList m.entries = m :=
  OrderedMap.ext (ofList_of_sorted m.sorted)

end OrderedMap

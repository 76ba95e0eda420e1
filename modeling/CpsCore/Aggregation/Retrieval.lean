import Mathlib
import CpsCore.Aggregation.ObjectHandles

/-!
# What can be retrieved

`get` looks for the first entry of the list whose type is, or derives from, the one asked for, and
at that handle only.  A handle of such a type further down the list is filled like any other, and
nothing can be got from it.

* `serving`: the handles of all such entries.
* `Retrievable`: what is in one of them can be retrieved.
-/

namespace CpsCore

variable {τ Obj : Type}

namespace ObjectHandleContainer

/-- The handles whose type is, or derives from, the one asked for. -/
def serving (C : Classes τ Obj) (type : τ) :
    {deps : List (Dependency τ)} → ObjectHandleContainer Obj deps → List (Option Obj)
  | _, .nil => []
  | _, @single _ _ object _ handle others =>
      if C.isBaseOf type object then handle :: others.serving C type else others.serving C type
  | _, .multi _ others => others.serving C type

/-- `get` finds an object if one of the handles is live, and nothing else; `isSet` says so. -/
structure Retrievable (C : Classes τ Obj) (alive : Obj → Bool) (type : τ)
    {deps : List (Dependency τ)} (handles : ObjectHandleContainer Obj deps) : Prop where
  found : (handles.get C alive type).isSome ↔
    ∃ handle ∈ handles.serving C type, (lock alive handle).isSome
  object : ∀ obj, handles.get C alive type = some obj →
    ∃ handle ∈ handles.serving C type, lock alive handle = some obj
  isSet : handles.isSet C alive type = true ↔ (handles.get C alive type).isSome

variable (C : Classes τ Obj) (alive : Obj → Bool) (type : τ) {deps : List (Dependency τ)}
  (handles : ObjectHandleContainer Obj deps)

/-- The three recursions stop at the same entry. -/
lemma get_eq_head :
    handles.get C alive type = (handles.serving C type).head?.bind (lock alive) := by
  induction handles with
  | nil => rfl
  | single handle others ih =>
      simp only [get, serving]
      split
      case isTrue => rfl
      case isFalse => exact ih
  | multi objects others ih => exact ih

lemma isSet_eq_get : handles.isSet C alive type = (handles.get C alive type).isSome := by
  induction handles with
  | nil => rfl
  | single handle others ih =>
      simp only [isSet, get]
      split
      case isTrue => rfl
      case isFalse => exact ih
  | multi objects others ih => exact ih

lemma canContain_iff : canContain C type deps = true ↔ handles.serving C type ≠ [] := by
  induction handles with
  | nil => simp [canContain, serving]
  | @single object deps handle others ih =>
      simp only [canContain, serving, Bool.or_eq_true]
      split
      case isTrue hbase => simp [hbase]
      case isFalse hbase => simp [hbase, ih]
  | multi objects others ih => exact ih

/-- The checks of `run(RunStage::INIT)` are about what `get` finds. -/
lemma checkIsSet_iff (checks : List τ) : handles.checkIsSet C alive checks = true ↔
    ∀ check ∈ checks, (handles.get C alive check).isSome := by
  simp only [checkIsSet, List.all_eq_true, isSet_eq_get]

/-- **Retrieval.**  What is in one of the handles can be retrieved exactly if the first of them is
live, or none is. -/
theorem retrievable_iff : handles.Retrievable C alive type ↔
    (∀ handle, (handles.serving C type).head? = some handle → (lock alive handle).isSome) ∨
      ∀ handle ∈ handles.serving C type, lock alive handle = none := by
  have hget := handles.get_eq_head C alive type
  have hisSet := handles.isSet_eq_get C alive type
  cases hserving : handles.serving C type with
  | nil =>
      simp only [hserving, List.head?_nil, Option.bind_none] at hget
      refine iff_of_true ⟨?_, ?_, ?_⟩ (Or.inl (by simp))
      · simp [hget, hserving]
      · simp [hget]
      · rw [hisSet]
  | cons first rest =>
      simp only [hserving, List.head?_cons, Option.bind_some] at hget
      simp only [List.head?_cons, Option.some.injEq, forall_eq']
      constructor
      · intro h
        by_cases hfirst : (lock alive first).isSome
        · exact Or.inl hfirst
        · refine Or.inr fun handle hmem => ?_
          have hnone : ¬ ∃ handle ∈ handles.serving C type, (lock alive handle).isSome := by
            rw [← h.found, hget]
            exact hfirst
          rw [hserving] at hnone
          simpa using fun hlive => hnone ⟨handle, hmem, hlive⟩
      · intro h
        refine ⟨?_, ?_, by rw [hisSet]⟩
        · rw [hget, hserving]
          constructor
          · exact fun hlive => ⟨first, List.mem_cons_self, hlive⟩
          · rintro ⟨handle, hmem, hlive⟩
            rcases h with hfirst | hnone
            · exact hfirst
            · simp [hnone handle hmem] at hlive
        · intro obj hobj
          rw [hserving]
          exact ⟨first, List.mem_cons_self, hget ▸ hobj⟩

end ObjectHandleContainer

/-- A type, and one that derives from it; the only object is of the first. -/
def derivedAndBase : Classes Bool Unit where
  deps _ := []
  isA _ type := !type
  isBaseOf base type := base == type || !base
  isComplete _ := true
  isBaseOf_refl type := by simp

/-- The list names the derived type first.  The handle of the other one is filled, and nothing is
got for that type. -/
theorem wired_not_retrieved :
    ObjectHandleContainer.canContain derivedAndBase false [.single true, .single false] = true ∧
      ¬ ((ObjectHandleContainer.empty [.single true, .single false]).setFromAggregationIfNotSet
        derivedAndBase (fun _ => true) [()]).Retrievable derivedAndBase (fun _ => true) false := by
  refine ⟨rfl, fun h => ?_⟩
  have hfound := h.found.mpr ⟨some (), List.mem_cons_of_mem _ List.mem_cons_self, rfl⟩
  exact absurd hfound (by decide)

end CpsCore

import Mathlib
import CpsCore.Aggregation.Wiring

/-!
# Multi handles

A list of objects is filled again when it has not as many elements as the new one.  That is enough
in a history that adds every object once, where lists only get longer; elsewhere a list of the
right length may have the wrong objects (`World.Refreshes`).
-/

namespace CpsCore

variable {τ Obj ι : Type} [DecidableEq τ] [DecidableEq Obj]

/-! ## One list -/

lemma ObjectHandleContainer.stored_set {C : Classes τ Obj} {alive : Obj → Bool} {pool : List Obj}
    {type : τ} {deps : List (Dependency τ)} {h : ObjectHandleContainer Obj deps}
    (htype : .multi type ∈ deps) :
    (h.setFromAggregationIfNotSet C alive pool).stored type =
      if (C.getAll pool type none).length ≠ (h.stored type).length
      then C.getAll pool type none else h.stored type := by
  induction h with
  | nil => exact absurd htype (List.not_mem_nil)
  | single object others ih => exact ih (by simpa using htype)
  | @multi first deps objects others ih =>
      simp only [setFromAggregationIfNotSet, stored]
      by_cases hsame : first = type
      · subst hsame
        simp
      · simp only [hsame, if_false]
        exact ih (by simpa [Ne.symm hsame] using htype)

lemma ObjectHandleContainer.Wired.stored {C : Classes τ Obj} {pool : List Obj} {type : τ}
    {deps : List (Dependency τ)} {h : ObjectHandleContainer Obj deps} (hwired : h.Wired C pool)
    (htype : .multi type ∈ deps) : h.stored type = C.getAll pool type none := by
  induction h with
  | nil => exact absurd htype (List.not_mem_nil)
  | single object others ih => exact ih hwired.2 (by simpa using htype)
  | @multi first deps objects others ih =>
      simp only [ObjectHandleContainer.stored]
      by_cases hsame : first = type
      · rw [if_pos hsame, ← hsame]
        exact hwired.1
      · rw [if_neg hsame]
        exact ih hwired.2 (by simpa [Ne.symm hsame] using htype)

/-- An object that presents the list `all` as its own. -/
def ObjectHandleContainer.Presents (alive : Obj → Bool) (type : τ) (all : List Obj)
    {deps : List (Dependency τ)} (h : ObjectHandleContainer Obj deps) : Prop :=
  h.getMulti alive type = all ∧ (h.isSetMulti type = true ↔ all ≠ [])

omit [DecidableEq Obj] in
lemma ObjectHandleContainer.presents_of_stored {alive : Obj → Bool} {type : τ} {all : List Obj}
    {deps : List (Dependency τ)} {h : ObjectHandleContainer Obj deps}
    (hstored : h.stored type = all) (halive : ∀ obj ∈ all, alive obj = true) : h.Presents alive type all := by
  refine ⟨?_, ?_⟩
  · rw [getMulti, hstored]
    exact List.filter_eq_self.mpr halive
  · rw [isSetMulti, hstored, decide_eq_true_iff]
    exact List.length_pos_iff

omit [DecidableEq τ] in
lemma Classes.alive_getAll {C : Classes τ Obj} {alive : Obj → Bool} {pool : List Obj} {type : τ}
    (halive : ∀ obj ∈ pool, alive obj = true) :
    ∀ obj ∈ C.getAll pool type none, alive obj = true :=
  fun obj hobj => halive obj (List.mem_of_mem_filter hobj)

/-- **After filling**, the list presented is the new one, unless the old one has its length and is
another. -/
theorem ObjectHandleContainer.presents_set_iff {C : Classes τ Obj} {alive : Obj → Bool}
    {pool : List Obj} {type : τ} {deps : List (Dependency τ)} {h : ObjectHandleContainer Obj deps}
    (htype : .multi type ∈ deps) (halive : ∀ obj ∈ pool, alive obj = true) :
    (h.setFromAggregationIfNotSet C alive pool).Presents alive type (C.getAll pool type none) ↔
      ((h.stored type).length = (C.getAll pool type none).length →
        h.stored type = C.getAll pool type none) := by
  have hset : (h.setFromAggregationIfNotSet C alive pool).stored type =
      if (C.getAll pool type none).length ≠ (h.stored type).length
      then C.getAll pool type none else h.stored type := stored_set htype
  have hall : ∀ obj ∈ C.getAll pool type none, alive obj = true := Classes.alive_getAll halive
  by_cases hlength : (C.getAll pool type none).length = (h.stored type).length
  · rw [if_neg (not_not.mpr hlength)] at hset
    constructor
    · rintro ⟨hget, -⟩ -
      rw [getMulti, hset] at hget
      -- nothing was filtered out, as the length has not changed
      have hsame := List.filter_sublist.eq_of_length (hget ▸ hlength :
        ((h.stored type).filter alive).length = (h.stored type).length)
      rw [← hsame, hget]
    · intro hstored
      exact presents_of_stored (hset.trans (hstored hlength.symm)) hall
  · rw [if_pos hlength] at hset
    exact iff_of_true (presents_of_stored hset hall) fun heq => absurd heq.symm hlength

/-! ## All lists -/

/-- The lists of an aggregator's objects are those of the aggregator. -/
def World.Coherent {C : Classes τ Obj} (w : World C ι) (agg : ι) : Prop :=
  ∀ obj ∈ w.container agg, ∀ type, .multi type ∈ C.deps obj →
    w.getMulti obj type = C.getAll (w.container agg) type none ∧
    (w.isSetMulti obj type = true ↔ C.getAll (w.container agg) type none ≠ [])

/-- Whoever of `pool` has a list as long as the new one already has the new one. -/
def World.Refreshes {C : Classes τ Obj} (w : World C ι) (pool : List Obj) : Prop :=
  ∀ obj ∈ pool, ∀ type, .multi type ∈ C.deps obj →
    ((w.memory.handles obj).stored type).length = (C.getAll pool type none).length →
      (w.memory.handles obj).stored type = C.getAll pool type none

lemma World.coherent_notifyAll_iff {C : Classes τ Obj} {w w' : World C ι} {agg : ι}
    (hmemory : w'.memory = w.memory.notifyAll (w'.container agg))
    (halive : ∀ obj ∈ w'.container agg, w.memory.alive obj = true) :
    w'.Coherent agg ↔ w.Refreshes (w'.container agg) := by
  refine forall₄_congr fun obj hobj type htype => ?_
  rw [World.getMulti, World.isSetMulti, hmemory, Memory.handles_notifyAll, if_pos hobj,
    Memory.alive_notifyAll]
  exact ObjectHandleContainer.presents_set_iff htype halive

variable [DecidableEq ι]

omit [DecidableEq τ] in
/-- What an aggregator has is alive, in every history. -/
lemma World.Step.alive {C : Classes τ Obj} {w w' : World C ι} {operation : Operation ι Obj}
    (hstep : w.Step operation w') (h : ∀ agg, ∀ obj ∈ w.container agg, w.memory.alive obj = true) :
    ∀ agg, ∀ obj ∈ w'.container agg, w'.memory.alive obj = true := by
  intro agg' obj' hobj'
  cases hstep with
  | add halive =>
      show (w.memory.notifyAll _).alive obj' = true
      rw [Memory.alive_notifyAll]
      rcases World.mem_container_add hobj' with hmem | rfl
      · exact h agg' obj' hmem
      · exact halive
  | merge hne =>
      show (w.memory.notifyAll _).alive obj' = true
      rw [Memory.alive_notifyAll]
      obtain ⟨agg, hmem⟩ := World.mem_container_merge hne hobj'
      exact h agg obj' hmem
  | clear => exact h agg' obj' (World.mem_container_clear hobj')
  | @release obj hgone =>
      have hne : obj' ≠ obj := fun heq => hgone agg' (heq ▸ hobj')
      show Function.update w.memory.alive obj false obj' = true
      rw [Function.update_of_ne hne]
      exact h agg' obj' hobj'

/-- **Multi handles** are coherent after an operation if and only if the operation finds no list of
the right length and the wrong objects; a history that adds every object once never does. -/
theorem multi_handles_coherent_iff (C : Classes τ Obj) {operations : List (Operation ι Obj)}
    {w : World C ι} (hrun : Transition.Run World.Step {} operations w) :
    (∀ agg obj w', w.Step (.add agg obj) w' →
      (w'.Coherent agg ↔ w.Refreshes (w.container agg ++ [obj]))) ∧
    (∀ agg source w', w.Step (.merge agg source) w' →
      (w'.Coherent agg ↔ w.Refreshes (w.container agg ++ w.container source))) ∧
    (Transition.Run World.StepOnce {} operations w → ∀ agg, w.Coherent agg) := by
  have halive : ∀ agg, ∀ obj ∈ w.container agg, w.memory.alive obj = true :=
    hrun.invariant (by simp) fun _ _ _ h hstep => hstep.alive h
  refine ⟨?_, ?_, ?_⟩
  · intro agg obj w' hstep
    have hadded := hstep.alive halive agg
    cases hstep with
    | add _ =>
        rw [← w.container_add]
        refine World.coherent_notifyAll_iff ?_ ?_
        · rw [w.container_add]
          rfl
        · intro obj' hobj'
          exact Memory.alive_notifyAll w.memory _ ▸ hadded obj' hobj'
  · intro agg source w' hstep
    have hmerged := hstep.alive halive agg
    cases hstep with
    | merge hne =>
        rw [← w.container_merge hne]
        refine World.coherent_notifyAll_iff ?_ ?_
        · rw [w.container_merge hne]
          rfl
        · intro obj' hobj'
          exact Memory.alive_notifyAll w.memory _ ▸ hmerged obj' hobj'
  · intro honce agg obj hobj type htype
    have hstored := ((World.Wired.of_run honce).wired agg obj hobj).stored htype
    exact ObjectHandleContainer.presents_of_stored hstored (Classes.alive_getAll (halive agg))

/-- An object that asks for all of a type, and two objects of the type. -/
def askerAndProviders : Classes Unit (Fin 3) where
  deps obj := if obj = 0 then [.multi ()] else []
  isA obj _ := obj ≠ 0
  isBaseOf _ _ := true
  isComplete _ := true
  isBaseOf_refl _ := rfl

/-- A provider, and the asker. -/
theorem multi_handles_coherent_pair : ∃ operations, ∃ w : World askerAndProviders Unit,
    Transition.Run World.Step {} operations w ∧ w.container () = [1, 0] ∧ w.Coherent () := by
  have hadd : Transition.Run World.Step ({} : World askerAndProviders Unit)
      [.add () 1, .add () 0] ((World.add {} () 1).add () 0) :=
    (Transition.Run.nil.snoc (.add rfl)).snoc (.add rfl)
  have honce : Transition.Run World.StepOnce ({} : World askerAndProviders Unit)
      [.add () 1, .add () 0] ((World.add {} () 1).add () 0) := by
    refine (Transition.Run.nil.snoc ⟨.add rfl, ?_⟩).snoc ⟨.add rfl, ?_⟩
    · rintro ⟨⟩
      show 0 ∉ [1]
      decide
    · rintro ⟨⟩
      exact List.not_mem_nil
  exact ⟨_, _, hadd, rfl, (multi_handles_coherent_iff _ hadd).2.2 honce ()⟩

/-- The aggregator is cleared, and the asker added again behind another provider. -/
theorem multi_handles_stale : ¬ ∀ (C : Classes Unit (Fin 3)) operations (w : World C Unit),
    Transition.Run World.Step {} operations w →
    ∀ agg obj w', w.Step (.add agg obj) w' → w'.Coherent agg := by
  intro hcoherent
  have hrun : Transition.Run World.Step ({} : World askerAndProviders Unit)
      [.add () 1, .add () 0, .clear (), .add () 2]
      ((((World.add {} () 1).add () 0).clear ()).add () 2) :=
    (((Transition.Run.nil.snoc (.add rfl)).snoc (.add rfl)).snoc .clear).snoc (.add rfl)
  have hstale := (hcoherent _ _ _ hrun () 0 _ (.add rfl) 0 (by decide) () (by decide)).1
  revert hstale
  decide

end CpsCore

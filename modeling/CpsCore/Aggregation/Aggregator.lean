import Mathlib
import CpsCore.Aggregation.ObjectHandles
import CpsCore.Lib.Transition

/-!
# Aggregators

An aggregator is its list of objects; the handles are in the objects, and change when an aggregator
that has the object notifies it.

* `Memory`: the handles of all objects, and which objects there still are.
* `World`: any number of aggregators on one memory, and what can happen to them.
-/

namespace CpsCore

variable {τ Obj : Type} [DecidableEq Obj] {C : Classes τ Obj}

structure Memory (C : Classes τ Obj) where
  handles : (obj : Obj) → ObjectHandleContainer Obj (C.deps obj) := fun _ => .empty _
  alive : Obj → Bool := fun _ => true

/-- `AggregatableObject::notifyAggregationOnUpdate`. -/
def Memory.notify (m : Memory C) (container : List Obj) (obj : Obj) : Memory C :=
  let filled := (m.handles obj).setFromAggregationIfNotSet C m.alive container
  { m with handles := Function.update m.handles obj filled }

/-- `DynamicObjectContainer::notifyAggregationOnUpdate`. -/
def Memory.notifyAll (m : Memory C) (container : List Obj) : Memory C :=
  container.foldl (fun m obj => m.notify container obj) m

@[simp] lemma Memory.alive_notify (m : Memory C) (container : List Obj) (obj : Obj) :
    (m.notify container obj).alive = m.alive := rfl

lemma Memory.alive_foldl_notify (m : Memory C) (container objs : List Obj) :
    (objs.foldl (fun m obj => m.notify container obj) m).alive = m.alive := by
  induction objs generalizing m with
  | nil => rfl
  | cons obj objs ih => exact ih (m.notify container obj)

@[simp] lemma Memory.alive_notifyAll (m : Memory C) (container : List Obj) :
    (m.notifyAll container).alive = m.alive := m.alive_foldl_notify container container

lemma Memory.handles_foldl_notify (m : Memory C) (container objs : List Obj) (obj : Obj) :
    (objs.foldl (fun m obj => m.notify container obj) m).handles obj =
      if obj ∈ objs then (m.handles obj).setFromAggregationIfNotSet C m.alive container
      else m.handles obj := by
  induction objs generalizing m with
  | nil => rfl
  | cons other objs ih =>
      rw [List.foldl_cons, ih]
      by_cases hother : obj = other
      · subst hother
        simp [notify, ObjectHandleContainer.set_set]
      · simp [notify, hother]

/-- Every object is notified once, in effect, however often it is in the container. -/
lemma Memory.handles_notifyAll (m : Memory C) (container : List Obj) (obj : Obj) :
    (m.notifyAll container).handles obj =
      if obj ∈ container then (m.handles obj).setFromAggregationIfNotSet C m.alive container
      else m.handles obj := m.handles_foldl_notify container container obj

/-- Everybody else keeps what he has. -/
lemma Memory.handles_notifyAll_of_notMem {m : Memory C} {container : List Obj}
    {obj : Obj} (h : obj ∉ container) : (m.notifyAll container).handles obj = m.handles obj := by
  rw [m.handles_notifyAll, if_neg h]

/-! ## The operations -/

/-- `Aggregator::add`. -/
def Memory.add (m : Memory C) (container : List Obj) (obj : Obj) : Memory C × List Obj :=
  (m.notifyAll (container ++ [obj]), container ++ [obj])

/-- `Aggregator::merge`, of the second into the first. -/
def Memory.merge (m : Memory C) (container source : List Obj) : Memory C × List Obj × List Obj :=
  (m.notifyAll (container ++ source), container ++ source, [])

/-! ## Histories -/

variable {ι : Type} [DecidableEq ι]

structure World (C : Classes τ Obj) (ι : Type) where
  container : ι → List Obj := fun _ => []
  memory : Memory C := {}

inductive Operation (ι Obj : Type)
  | add (agg : ι) (obj : Obj)
  | merge (agg source : ι)
  | clear (agg : ι)
  /-- The last owner outside of the aggregators lets go of the object. -/
  | release (obj : Obj)

namespace World

def add (w : World C ι) (agg : ι) (obj : Obj) : World C ι where
  container := Function.update w.container agg (w.memory.add (w.container agg) obj).2
  memory := (w.memory.add (w.container agg) obj).1

def merge (w : World C ι) (agg source : ι) : World C ι where
  container := Function.update
    (Function.update w.container agg (w.memory.merge (w.container agg) (w.container source)).2.1)
    source (w.memory.merge (w.container agg) (w.container source)).2.2
  memory := (w.memory.merge (w.container agg) (w.container source)).1

def clear (w : World C ι) (agg : ι) : World C ι :=
  { w with container := Function.update w.container agg [] }

def release (w : World C ι) (obj : Obj) : World C ι :=
  { w with memory := { w.memory with alive := Function.update w.memory.alive obj false } }

/-- One operation.  Who adds an object has a pointer to it, so it is alive, and an object is gone
only when no aggregator has it. -/
inductive Step : World C ι → Operation ι Obj → World C ι → Prop
  | add {w agg obj} : w.memory.alive obj = true → Step w (.add agg obj) (w.add agg obj)
  | merge {w agg source} : agg ≠ source → Step w (.merge agg source) (w.merge agg source)
  | clear {w agg} : Step w (.clear agg) (w.clear agg)
  | release {w obj} : (∀ agg, obj ∉ w.container agg) → Step w (.release obj) (w.release obj)

/-- An operation of a history that only adds and merges, and adds each object once. -/
def Once (w : World C ι) : Operation ι Obj → Prop
  | .add _ obj => ∀ agg, obj ∉ w.container agg
  | .merge _ _ => True
  | .clear _ => False
  | .release _ => False

def StepOnce (w : World C ι) (operation : Operation ι Obj) (w' : World C ι) : Prop :=
  w.Step operation w' ∧ w.Once operation

/-- `get` of an object. -/
def get (w : World C ι) (obj : Obj) (type : τ) : Option Obj :=
  (w.memory.handles obj).get C w.memory.alive type

/-- `get<Multi<...>>` of an object. -/
def getMulti [DecidableEq τ] (w : World C ι) (obj : Obj) (type : τ) : List Obj :=
  (w.memory.handles obj).getMulti w.memory.alive type

/-- `isSet<Multi<...>>` of an object. -/
def isSetMulti [DecidableEq τ] (w : World C ι) (obj : Obj) (type : τ) : Bool :=
  (w.memory.handles obj).isSetMulti type

@[simp] lemma container_add (w : World C ι) (agg : ι) (obj : Obj) :
    (w.add agg obj).container agg = w.container agg ++ [obj] := Function.update_self ..

lemma container_add_of_ne (w : World C ι) {agg agg' : ι} (obj : Obj)
    (hne : agg' ≠ agg) : (w.add agg obj).container agg' = w.container agg' :=
  Function.update_of_ne hne ..

lemma container_merge (w : World C ι) {agg source : ι}
    (hne : agg ≠ source) :
    (w.merge agg source).container agg = w.container agg ++ w.container source :=
  (Function.update_of_ne hne ..).trans (Function.update_self ..)

lemma container_merge_source (w : World C ι) (agg source : ι) :
    (w.merge agg source).container source = [] := Function.update_self ..

lemma container_merge_of_ne (w : World C ι) {agg source agg' : ι}
    (hagg : agg' ≠ agg) (hsource : agg' ≠ source) :
    (w.merge agg source).container agg' = w.container agg' :=
  (Function.update_of_ne hsource ..).trans (Function.update_of_ne hagg ..)

/-- Who is in an aggregator was in one before, or has just been added. -/
lemma mem_container_add {w : World C ι} {agg agg' : ι} {obj obj' : Obj}
    (h : obj' ∈ (w.add agg obj).container agg') : obj' ∈ w.container agg' ∨ obj' = obj := by
  by_cases hne : agg' = agg
  · subst hne
    rw [w.container_add, List.mem_append, List.mem_singleton] at h
    exact h
  · rw [w.container_add_of_ne obj hne] at h
    exact Or.inl h

lemma mem_container_merge {w : World C ι} {agg source agg' : ι} {obj : Obj} (hne : agg ≠ source)
    (h : obj ∈ (w.merge agg source).container agg') : ∃ agg', obj ∈ w.container agg' := by
  by_cases hagg : agg' = agg
  · rw [hagg, w.container_merge hne, List.mem_append] at h
    rcases h with h | h
    · exact ⟨agg, h⟩
    · exact ⟨source, h⟩
  · by_cases hsource : agg' = source
    · rw [hsource, w.container_merge_source] at h
      exact absurd h List.not_mem_nil
    · rw [w.container_merge_of_ne hagg hsource] at h
      exact ⟨agg', h⟩

omit [DecidableEq Obj] in
lemma mem_container_clear {w : World C ι} {agg agg' : ι} {obj : Obj}
    (h : obj ∈ (w.clear agg).container agg') : obj ∈ w.container agg' := by
  change obj ∈ Function.update w.container agg [] agg' at h
  by_cases hne : agg' = agg
  · subst hne
    rw [Function.update_self] at h
    exact absurd h List.not_mem_nil
  · rwa [Function.update_of_ne hne] at h

end World

end CpsCore

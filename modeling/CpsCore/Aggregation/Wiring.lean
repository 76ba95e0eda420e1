import Mathlib
import CpsCore.Aggregation.Aggregator

/-!
# Wiring

In a history that adds every object once, every handle that can be filled is, and with an object of
the same aggregator.

* `ObjectHandleContainer.Sound`: what is in the handles comes from these objects.
* `ObjectHandleContainer.Wired`: and nothing that these objects offer is missing.
* `World.Wired`: every object is wired to the objects of its aggregator.
-/

namespace CpsCore

variable {τ Obj ι : Type} [DecidableEq Obj]

/-! ## One object -/

namespace ObjectHandleContainer

def Sound (C : Classes τ Obj) (pool : List Obj) :
    {deps : List (Dependency τ)} → ObjectHandleContainer Obj deps → Prop
  | _, .nil => True
  | _, @single _ _ type _ object others =>
      (∀ obj, object = some obj → obj ∈ pool ∧ C.isA obj type = true ∧ C.isComplete type = true) ∧
        others.Sound C pool
  | _, @multi _ _ type _ objects others =>
      objects.Sublist (C.getAll pool type none) ∧ others.Sound C pool

def Wired (C : Classes τ Obj) (pool : List Obj) :
    {deps : List (Dependency τ)} → ObjectHandleContainer Obj deps → Prop
  | _, .nil => True
  | _, @single _ _ type _ object others =>
      ((∀ obj, object = some obj → obj ∈ pool ∧ C.isA obj type = true ∧ C.isComplete type = true) ∧
        (C.isComplete type = true → (∃ obj ∈ pool, C.isA obj type = true) → object.isSome)) ∧
        others.Wired C pool
  | _, @multi _ _ type _ objects others =>
      objects = C.getAll pool type none ∧ others.Wired C pool

variable {C : Classes τ Obj} {pool pool' : List Obj}

lemma sound_empty (C : Classes τ Obj) (pool : List Obj) :
    ∀ deps : List (Dependency τ), (empty deps : ObjectHandleContainer Obj deps).Sound C pool
  | [] => trivial
  | .single _ :: deps => ⟨by simp, sound_empty C pool deps⟩
  | .multi _ :: deps => ⟨List.nil_sublist _, sound_empty C pool deps⟩

/-- More objects may offer more. -/
lemma Wired.sound {deps : List (Dependency τ)} {h : ObjectHandleContainer Obj deps}
    (hwired : h.Wired C pool) (hpool : pool.Sublist pool') : h.Sound C pool' := by
  induction h with
  | nil => trivial
  | single object others ih =>
      obtain ⟨⟨hobject, -⟩, hothers⟩ := hwired
      refine ⟨fun obj hobj => ?_, ih hothers⟩
      obtain ⟨hmem, hrest⟩ := hobject obj hobj
      exact ⟨hpool.subset hmem, hrest⟩
  | multi objects others ih =>
      obtain ⟨rfl, hothers⟩ := hwired
      refine ⟨?_, ih hothers⟩
      rw [Classes.getAll_none, Classes.getAll_none]
      exact hpool.filter _

/-- **Filling** the handles of an object wires it. -/
theorem Sound.wired {deps : List (Dependency τ)} {h : ObjectHandleContainer Obj deps}
    {alive : Obj → Bool} (hsound : h.Sound C pool) (halive : ∀ obj ∈ pool, alive obj = true) :
    (h.setFromAggregationIfNotSet C alive pool).Wired C pool := by
  induction h with
  | nil => trivial
  | @single type deps object others ih =>
      obtain ⟨hobject, hothers⟩ := hsound
      refine ⟨?_, ih hothers⟩
      cases object with
      | some obj =>
          have hmem := (hobject obj rfl).1
          rw [lock_some_of_alive (halive obj hmem)]
          exact ⟨hobject, fun _ _ => rfl⟩
      | none =>
          simp only [lock_none, Option.isNone_none, if_true, Classes.getOne_none]
          cases hcomplete : C.isComplete type with
          | false => simp
          | true =>
              rw [if_pos rfl]
              refine ⟨fun obj hobj => ?_, fun _ => ?_⟩
              · have hisA := List.find?_some (p := fun obj => C.isA obj type) hobj
                exact ⟨List.mem_of_find?_eq_some hobj, hisA, rfl⟩
              · rintro ⟨obj, hmem, hobj⟩
                exact List.find?_isSome.mpr ⟨obj, hmem, hobj⟩
  | multi objects others ih =>
      obtain ⟨hobjects, hothers⟩ := hsound
      refine ⟨?_, ih hothers⟩
      split
      case isTrue => rfl
      case isFalse hlength => exact hobjects.eq_of_length (not_not.mp hlength).symm

/-- A handle that points to an object keeps pointing to it. -/
lemma get_set {alive : Obj → Bool} {type : τ} {obj : Obj} {deps : List (Dependency τ)}
    {h : ObjectHandleContainer Obj deps} (hget : h.get C alive type = some obj) :
    (h.setFromAggregationIfNotSet C alive pool).get C alive type = some obj := by
  induction h with
  | nil => exact hget
  | single object others ih =>
      simp only [get, setFromAggregationIfNotSet] at hget ⊢
      split at hget
      case isTrue hbase =>
        rw [if_pos hbase, hget]
        exact hget
      case isFalse hbase =>
        rw [if_neg hbase]
        exact ih hget
  | multi objects others ih => exact ih hget

end ObjectHandleContainer

/-- No type of the list is derived from a later one. -/
def Classes.NoneDerives (C : Classes τ Obj) : List (Dependency τ) → Prop
  | [] => True
  | .single type :: deps => (∀ later, .single later ∈ deps → later ≠ type →
      C.isBaseOf later type = false) ∧ C.NoneDerives deps
  | .multi _ :: deps => C.NoneDerives deps

/-- What `get` finds for a type of the list: the handle of that type. -/
lemma ObjectHandleContainer.Wired.get {C : Classes τ Obj} {pool : List Obj} {alive : Obj → Bool}
    {type : τ} {deps : List (Dependency τ)} {h : ObjectHandleContainer Obj deps}
    (hwired : h.Wired C pool) (halive : ∀ obj ∈ pool, alive obj = true)
    (hderives : C.NoneDerives deps) (htype : .single type ∈ deps) :
    (∀ obj, h.get C alive type = some obj →
      obj ∈ pool ∧ C.isA obj type = true ∧ C.isComplete type = true) ∧
    (C.isComplete type = true → (∃ obj ∈ pool, C.isA obj type = true) →
      (h.get C alive type).isSome) := by
  induction h with
  | nil => exact absurd htype (List.not_mem_nil)
  | @single first deps object others ih =>
      obtain ⟨⟨hobject, hset⟩, hothers⟩ := hwired
      obtain ⟨hfirst, hderives⟩ := hderives
      by_cases hsame : type = first
      · subst hsame
        simp only [ObjectHandleContainer.get, C.isBaseOf_refl, if_true]
        refine ⟨fun obj hobj => hobject obj (lock_eq_some.mp hobj).1, fun hcomplete hoffer => ?_⟩
        obtain ⟨obj, hobj⟩ := Option.isSome_iff_exists.mp (hset hcomplete hoffer)
        rw [hobj, lock_some_of_alive (halive obj (hobject obj hobj).1)]
        rfl
      · have hlater : .single type ∈ deps := by simpa [hsame] using htype
        simp only [ObjectHandleContainer.get, hfirst type hlater hsame]
        exact ih hothers hderives hlater
  | multi objects others ih =>
      exact ih hwired.2 hderives (by simpa using htype)

/-! ## All objects -/

structure World.Wired {C : Classes τ Obj} (w : World C ι) : Prop where
  alive : ∀ agg, ∀ obj ∈ w.container agg, w.memory.alive obj = true
  apart : ∀ agg agg' obj, obj ∈ w.container agg → obj ∈ w.container agg' → agg = agg'
  wired : ∀ agg, ∀ obj ∈ w.container agg, (w.memory.handles obj).Wired C (w.container agg)
  fresh : ∀ obj, (∀ agg, obj ∉ w.container agg) → w.memory.handles obj = .empty _

lemma World.Wired.initial (C : Classes τ Obj) (ι : Type) : World.Wired ({} : World C ι) := by
  constructor <;> simp

/-- Any operation ends with a notification of the objects that are then in the aggregator. -/
lemma Memory.wired_notifyAll {C : Classes τ Obj} {m : Memory C} {container : List Obj}
    (halive : ∀ obj ∈ container, m.alive obj = true)
    (hsound : ∀ obj ∈ container, (m.handles obj).Sound C container) :
    ∀ obj ∈ container, ((m.notifyAll container).handles obj).Wired C container := by
  intro obj hobj
  rw [m.handles_notifyAll, if_pos hobj]
  exact (hsound obj hobj).wired halive

/-- What `get` finds of a complete type: a provider of the object's aggregator, if there is one. -/
lemma World.Wired.get {C : Classes τ Obj} {w : World C ι} (h : w.Wired) {agg : ι} {obj : Obj}
    (hobj : obj ∈ w.container agg) (hderives : C.NoneDerives (C.deps obj)) {type : τ}
    (htype : .single type ∈ C.deps obj) :
    (∀ p, w.get obj type = some p →
      p ∈ w.container agg ∧ C.isA p type = true ∧ C.isComplete type = true) ∧
    (C.isComplete type = true → (∃ p ∈ w.container agg, C.isA p type = true) →
      (w.get obj type).isSome) :=
  (h.wired agg obj hobj).get (h.alive agg) hderives htype

/-- With one provider for each type the wiring does not depend on the history. -/
lemma World.Wired.get_unique {C : Classes τ Obj} {w w' : World C ι} (h : w.Wired) (h' : w'.Wired)
    {agg agg' : ι} (hsame : (w.container agg).Perm (w'.container agg')) {obj : Obj}
    (hobj : obj ∈ w.container agg) (hderives : C.NoneDerives (C.deps obj)) {type : τ}
    (htype : .single type ∈ C.deps obj)
    (hunique : ∃! p, p ∈ w.container agg ∧ C.isA p type = true) :
    w.get obj type = w'.get obj type := by
  obtain ⟨hfound, hset⟩ := h.get hobj hderives htype
  obtain ⟨hfound', hset'⟩ := h'.get (hsame.mem_iff.mp hobj) hderives htype
  obtain ⟨provider, ⟨hmem, hisA⟩, honly⟩ := hunique
  cases hcomplete : C.isComplete type with
  | false =>
      have hnone : ∀ found : Option Obj, (∀ p, found = some p → C.isComplete type = true) →
          found = none := by
        intro found hfound
        refine Option.eq_none_iff_forall_ne_some.mpr fun p hp => ?_
        exact absurd (hfound p hp) (by simp [hcomplete])
      rw [hnone _ fun p hp => (hfound p hp).2.2, hnone _ fun p hp => (hfound' p hp).2.2]
  | true =>
      obtain ⟨p, hp⟩ := Option.isSome_iff_exists.mp (hset hcomplete ⟨provider, hmem, hisA⟩)
      obtain ⟨p', hp'⟩ := Option.isSome_iff_exists.mp
        (hset' hcomplete ⟨provider, hsame.mem_iff.mp hmem, hisA⟩)
      obtain ⟨hin, hcast, -⟩ := hfound p hp
      obtain ⟨hin', hcast', -⟩ := hfound' p' hp'
      rw [hp, hp', honly p ⟨hin, hcast⟩, honly p' ⟨hsame.mem_iff.mpr hin', hcast'⟩]

/-! ## All histories -/

variable [DecidableEq ι]

/-- **An operation on one aggregator**: its objects are notified, the others are as they were, or
have moved to it. -/
theorem World.Wired.update {C : Classes τ Obj} {w w' : World C ι} (h : w.Wired) (agg : ι)
    (hmemory : w'.memory = w.memory.notifyAll (w'.container agg))
    (hothers : ∀ agg', agg' ≠ agg → w'.container agg' = w.container agg' ∨ w'.container agg' = [])
    (hmoved : ∀ agg', ∀ obj ∈ w.container agg',
      obj ∈ w'.container agg ∨ obj ∈ w'.container agg')
    (halive : ∀ obj ∈ w'.container agg, w.memory.alive obj = true)
    (hsound : ∀ obj ∈ w'.container agg, (w.memory.handles obj).Sound C (w'.container agg))
    (hapart : ∀ obj ∈ w'.container agg, ∀ agg', agg' ≠ agg → obj ∉ w'.container agg') :
    w'.Wired := by
  have hold : ∀ agg', agg' ≠ agg → ∀ obj ∈ w'.container agg',
      obj ∈ w.container agg' ∧ w'.container agg' = w.container agg' := by
    intro agg' hne obj hobj
    rcases hothers agg' hne with hsame | hempty
    · exact ⟨hsame ▸ hobj, hsame⟩
    · rw [hempty] at hobj
      exact absurd hobj (List.not_mem_nil)
  constructor
  case alive =>
    intro agg' obj hobj
    rw [hmemory, Memory.alive_notifyAll]
    by_cases hne : agg' = agg
    · subst hne
      exact halive obj hobj
    · exact h.alive agg' obj (hold agg' hne obj hobj).1
  case apart =>
    intro agg₁ agg₂ obj h₁ h₂
    by_cases hne₁ : agg₁ = agg
    · by_contra hne
      subst hne₁
      exact hapart obj h₁ agg₂ (Ne.symm hne) h₂
    · by_cases hne₂ : agg₂ = agg
      · subst hne₂
        exact absurd h₁ (hapart obj h₂ agg₁ hne₁)
      · exact h.apart agg₁ agg₂ obj (hold agg₁ hne₁ obj h₁).1 (hold agg₂ hne₂ obj h₂).1
  case wired =>
    intro agg' obj hobj
    rw [hmemory]
    by_cases hne : agg' = agg
    · subst hne
      exact Memory.wired_notifyAll halive hsound obj hobj
    · obtain ⟨hbefore, hsame⟩ := hold agg' hne obj hobj
      have hnot : obj ∉ w'.container agg := fun hmem => hapart obj hmem agg' hne hobj
      rw [Memory.handles_notifyAll_of_notMem hnot, hsame]
      exact h.wired agg' obj hbefore
  case fresh =>
    intro obj hfresh
    rw [hmemory, Memory.handles_notifyAll_of_notMem (hfresh agg)]
    refine h.fresh obj fun agg' hobj => ?_
    rcases hmoved agg' obj hobj with hmem | hmem
    · exact hfresh agg hmem
    · exact hfresh agg' hmem

lemma World.Wired.add {C : Classes τ Obj} {w : World C ι} (h : w.Wired) {agg : ι} {obj : Obj}
    (halive : w.memory.alive obj = true) (hnew : ∀ agg, obj ∉ w.container agg) :
    (w.add agg obj).Wired := by
  apply h.update agg
  case hmemory =>
    rw [w.container_add]
    rfl
  case hothers => exact fun agg' hne => Or.inl (w.container_add_of_ne obj hne)
  case hmoved =>
    intro agg' obj' hobj'
    by_cases hne : agg' = agg
    · subst hne
      simp [hobj']
    · rw [w.container_add_of_ne obj hne]
      exact Or.inr hobj'
  case halive =>
    intro obj' hobj'
    rcases World.mem_container_add hobj' with hmem | rfl
    · exact h.alive agg obj' hmem
    · exact halive
  case hsound =>
    intro obj' hobj'
    rw [w.container_add] at hobj' ⊢
    rw [List.mem_append, List.mem_singleton] at hobj'
    rcases hobj' with hobj' | rfl
    · exact (h.wired agg obj' hobj').sound (List.sublist_append_left _ _)
    · rw [h.fresh obj' hnew]
      exact ObjectHandleContainer.sound_empty C _ _
  case hapart =>
    intro obj' hobj' agg' hne
    rw [w.container_add, List.mem_append, List.mem_singleton] at hobj'
    rw [w.container_add_of_ne obj hne]
    rcases hobj' with hobj' | rfl
    · exact fun hother => hne (h.apart agg' agg obj' hother hobj')
    · exact hnew agg'

lemma World.Wired.merge {C : Classes τ Obj} {w : World C ι} (h : w.Wired) {agg source : ι}
    (hne : agg ≠ source) : (w.merge agg source).Wired := by
  have hcontainer := w.container_merge hne
  apply h.update agg
  case hmemory =>
    rw [hcontainer]
    rfl
  case hothers =>
    intro agg' hagg
    by_cases hsource : agg' = source
    · exact Or.inr (hsource ▸ w.container_merge_source agg source)
    · exact Or.inl (w.container_merge_of_ne hagg hsource)
  case hmoved =>
    intro agg' obj hobj
    rw [hcontainer]
    by_cases hagg : agg' = agg
    · exact Or.inl (List.mem_append_left _ (hagg ▸ hobj))
    · by_cases hsource : agg' = source
      · exact Or.inl (List.mem_append_right _ (hsource ▸ hobj))
      · exact Or.inr (w.container_merge_of_ne hagg hsource ▸ hobj)
  case halive =>
    intro obj hobj
    obtain ⟨agg', hmem⟩ := World.mem_container_merge hne hobj
    exact h.alive agg' obj hmem
  case hsound =>
    intro obj hobj
    rw [hcontainer] at hobj ⊢
    rcases List.mem_append.mp hobj with hobj | hobj
    · exact (h.wired agg obj hobj).sound (List.sublist_append_left _ _)
    · exact (h.wired source obj hobj).sound (List.sublist_append_right _ _)
  case hapart =>
    intro obj hobj agg' hagg
    rw [hcontainer] at hobj
    by_cases hsource : agg' = source
    · rw [hsource, w.container_merge_source]
      exact List.not_mem_nil
    · rw [w.container_merge_of_ne hagg hsource]
      intro hother
      rcases List.mem_append.mp hobj with hobj | hobj
      · exact hagg (h.apart agg' agg obj hother hobj)
      · exact hsource (h.apart agg' source obj hother hobj)

theorem World.Wired.step {C : Classes τ Obj} {w w' : World C ι} {operation : Operation ι Obj}
    (h : w.Wired) (hstep : w.Step operation w') (honce : w.Once operation) : w'.Wired := by
  cases hstep with
  | add halive => exact h.add halive honce
  | merge hne => exact h.merge hne
  | clear => exact absurd honce id
  | release _ => exact absurd honce id

theorem World.Wired.of_run {C : Classes τ Obj} {operations : List (Operation ι Obj)}
    {w : World C ι} (hrun : Transition.Run World.StepOnce {} operations w) : w.Wired :=
  hrun.invariant (World.Wired.initial C ι) fun _ _ _ h hstep => h.step hstep.1 hstep.2

/-! ## The wiring -/

lemma Memory.get_notifyAll {C : Classes τ Obj} {m : Memory C} {container : List Obj} {obj p : Obj}
    {type : τ} (h : (m.handles obj).get C m.alive type = some p) :
    ((m.notifyAll container).handles obj).get C (m.notifyAll container).alive type = some p := by
  rw [Memory.alive_notifyAll, Memory.handles_notifyAll]
  split
  · exact ObjectHandleContainer.get_set h
  · exact h

/-- Whom an object has found it keeps. -/
lemma World.Step.keeps {C : Classes τ Obj} {w w' : World C ι} {operation : Operation ι Obj}
    (hstep : w.Step operation w') (honce : w.Once operation) {obj p : Obj} {type : τ}
    (h : w.get obj type = some p) : w'.get obj type = some p := by
  cases hstep with
  | add _ => exact Memory.get_notifyAll h
  | merge _ => exact Memory.get_notifyAll h
  | clear => exact absurd honce id
  | release _ => exact absurd honce id

/-- **Aggregation wires** every dependency of a complete type that can be wired, for good, and in a
way that does not depend on the order of the operations where there is no choice. -/
theorem aggregation_wires (C : Classes τ Obj) (hderives : ∀ obj, C.NoneDerives (C.deps obj))
    {operations : List (Operation ι Obj)} {w : World C ι}
    (hrun : Transition.Run World.StepOnce {} operations w) :
    (∀ agg, ∀ obj ∈ w.container agg, ∀ type, .single type ∈ C.deps obj →
      C.isComplete type = true → (∃ p ∈ w.container agg, C.isA p type = true) →
      ∃ p ∈ w.container agg, w.get obj type = some p) ∧
    (∀ operations' w', Transition.Run World.StepOnce w operations' w' →
      ∀ obj type p, w.get obj type = some p → w'.get obj type = some p) ∧
    (∀ agg source w', w.Step (.merge agg source) w' →
      w'.container agg = w.container agg ++ w.container source ∧ w'.container source = []) ∧
    (∀ operations' (w' : World C ι), Transition.Run World.StepOnce {} operations' w' →
      ∀ agg agg', (w.container agg).Perm (w'.container agg') →
      (∀ obj ∈ w.container agg, ∀ type, .single type ∈ C.deps obj →
        ∃! p, p ∈ w.container agg ∧ C.isA p type = true) →
      ∀ obj ∈ w.container agg, ∀ type, .single type ∈ C.deps obj →
        w.get obj type = w'.get obj type) := by
  have hwired := World.Wired.of_run hrun
  refine ⟨?_, ?_, ?_, ?_⟩
  · intro agg obj hobj type htype hcomplete hprovider
    obtain ⟨hfound, hset⟩ := hwired.get hobj (hderives obj) htype
    obtain ⟨p, hp⟩ := Option.isSome_iff_exists.mp (hset hcomplete hprovider)
    exact ⟨p, (hfound p hp).1, hp⟩
  · intro operations' w' hrun' obj type p hp
    exact hrun'.invariant (I := fun w => w.get obj type = some p) hp
      fun _ _ _ hp hstep => hstep.1.keeps hstep.2 hp
  · rintro agg source w' (_ | hne)
    exact ⟨w.container_merge hne, w.container_merge_source agg source⟩
  · intro operations' w' hrun' agg agg' hsame hunique obj hobj type htype
    exact hwired.get_unique (World.Wired.of_run hrun') hsame hobj (hderives obj) htype
      (hunique obj hobj type htype)

/-- An object that asks for one of a type, and an object of the type. -/
def askerAndProvider (isComplete : Bool) : Classes Unit Bool where
  deps asker := if asker then [.single ()] else []
  isA asker _ := !asker
  isBaseOf _ _ := true
  isComplete _ := isComplete
  isBaseOf_refl _ := rfl

lemma askerAndProvider_derives (isComplete obj : Bool) :
    (askerAndProvider isComplete).NoneDerives ((askerAndProvider isComplete).deps obj) := by
  cases obj
  · trivial
  · exact ⟨fun _ hlater => absurd hlater (List.not_mem_nil), trivial⟩

/-- The asker is added first. -/
lemma askerAndProvider_run (isComplete : Bool) : Transition.Run World.StepOnce
    ({} : World (askerAndProvider isComplete) Unit) [.add () true, .add () false]
    ((World.add {} () true).add () false) := by
  refine (Transition.Run.nil.snoc ⟨.add rfl, ?_⟩).snoc ⟨.add rfl, ?_⟩
  · rintro ⟨⟩
    show false ∉ [true]
    decide
  · rintro ⟨⟩
    exact List.not_mem_nil

theorem aggregation_wires_pair : ∃ operations,
    ∃ w : World (askerAndProvider true) Unit, Transition.Run World.StepOnce {} operations w ∧
    ∃ p ∈ w.container (), w.get true () = some p := by
  have hrun := askerAndProvider_run true
  exact ⟨_, _, hrun, (aggregation_wires _ (askerAndProvider_derives true) hrun).1 () true
    (List.mem_cons_self) () (List.mem_cons_self) rfl ⟨false, by decide, rfl⟩⟩

/-- Where the type is incomplete, nothing is found although there is a provider. -/
theorem aggregation_skips_incomplete : ¬ ∀ (C : Classes Unit Bool),
    (∀ obj, C.NoneDerives (C.deps obj)) → ∀ operations (w : World C Unit),
    Transition.Run World.StepOnce {} operations w →
    ∀ agg, ∀ obj ∈ w.container agg, ∀ type, .single type ∈ C.deps obj →
      (∃ p ∈ w.container agg, C.isA p type = true) →
      ∃ p ∈ w.container agg, w.get obj type = some p := by
  intro hwires
  obtain ⟨p, -, hp⟩ := hwires _ (askerAndProvider_derives false) _ _ (askerAndProvider_run false) ()
    true (List.mem_cons_self) () (List.mem_cons_self) ⟨false, by decide, rfl⟩
  revert hp
  cases p <;> decide

end CpsCore

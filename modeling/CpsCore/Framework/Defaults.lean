import Mathlib
import CpsCore.Framework.StaticHelper
import CpsCore.Aggregation.Wiring

/-!
# A helper with defaults

What a helper that begins with another creates: one object for each type of the first, configured
or not, and one for each of its own types that is in the configuration.

* `Framework.Makes`: the object of a type.
* `Aggregation.Filled`: the aggregator has the objects of these types, one each.
* `Aggregation.Wires`: and their handles are set.
-/

namespace CpsCore

variable {κ τ : Type}

/-! ## The object of a type -/

/-- The object of a type: as constructed if there is no configuration for the type, and configured
otherwise. -/
inductive Framework.Makes (F : Framework κ τ) : HelperType κ → Option Json → F.Instance → Prop
  | default {cls} : F.Makes (.object cls) none ⟨cls, F.default cls⟩
  | first {typeId supportsMulti first others} :
      F.Makes (.factory typeId supportsMulti first others) none ⟨first, F.default first⟩
  | configured {cls config obj} : F.makeConfigured cls config = some obj →
      F.Makes (.object cls) (some config) obj
  | specific {typeId supportsMulti first others config name child cls obj} :
      config.items = [(name, child)] →
      (first :: others).find? (fun cls => F.typeId cls = name) = some cls →
      F.makeConfigured cls child = some obj →
      F.Makes (.factory typeId supportsMulti first others) (some config) obj

def HelperType.classes : HelperType κ → List κ
  | .object cls => [cls]
  | .factory _ _ first others => first :: others

/-- A configuration that names one class of the factory. -/
def HelperType.OneKnown (F : Framework κ τ) (config : Json) : HelperType κ → Prop
  | .object _ => True
  | .factory _ _ first others =>
      ∃ name child, config.items = [(name, child)] ∧ ∃ cls ∈ first :: others, F.typeId cls = name

lemma Framework.fst_makeConfigured {F : Framework κ τ} {cls : κ} {config : Json} {obj : F.Instance}
    (h : F.makeConfigured cls config = some obj) : obj.1 = cls := by
  unfold makeConfigured at h
  split at h
  · obtain ⟨_, -, rfl⟩ := Option.map_eq_some_iff.mp h
    rfl
  · cases h
    rfl

/-- The object of a type is of one of its classes. -/
lemma Framework.Makes.cls_mem {F : Framework κ τ} {type : HelperType κ} {config : Option Json}
    {obj : F.Instance} (h : F.Makes type config obj) : obj.1 ∈ type.classes := by
  cases h with
  | default => exact List.mem_singleton_self _
  | first => exact List.mem_cons_self
  | configured hmade =>
      rw [F.fst_makeConfigured hmade]
      exact List.mem_singleton_self _
  | specific _ hfind hmade =>
      rw [F.fst_makeConfigured hmade]
      exact List.mem_of_find?_eq_some hfind

lemma Framework.makes_createObjectDefault (F : Framework κ τ) (type : HelperType κ) :
    F.Makes type none (F.createObjectDefault type) := by
  cases type with
  | object cls => exact .default
  | factory typeId supportsMulti first others => exact .first

lemma Framework.createSpecific_of_find (F : Framework κ τ) {name : String} (config : Json)
    {classes : List κ} {cls : κ} (h : classes.find? (fun cls => F.typeId cls = name) = some cls) :
    F.createSpecific name config classes = (F.makeConfigured cls config).map some := by
  induction classes with
  | nil => exact absurd h (by simp)
  | cons first others ih =>
      rw [List.find?_cons] at h
      by_cases hname : F.typeId first = name
      · obtain rfl : first = cls := by simpa [hname] using h
        rw [createSpecific, if_pos hname.symm]
      · rw [createSpecific, if_neg (Ne.symm hname)]
        exact ih (by simpa [hname] using h)

lemma Json.items_singleton {config : Json} {item : String × Json} (h : config.items = [item]) :
    config.empty = false ∧ config.size = 1 := by
  cases config with
  | null => exact absurd h (by simp [items])
  | array elements =>
      have hlength := congrArg List.length h
      simp only [items, List.length_mapIdx, List.length_singleton] at hlength
      refine ⟨?_, hlength⟩
      cases elements with
      | nil => exact absurd hlength (by simp)
      | cons element elements => rfl
  | object fields =>
      have hfields : fields = [item] := h
      subst hfields
      exact ⟨rfl, rfl⟩
  | boolean b => exact ⟨rfl, rfl⟩
  | number n => exact ⟨rfl, rfl⟩
  | float x => exact ⟨rfl, rfl⟩
  | string s => exact ⟨rfl, rfl⟩

/-- **One object** is created for a type that is in the configuration, unless `configure` throws. -/
lemma Framework.createObject_eq (F : Framework κ τ) {type : HelperType κ} {config : Json}
    (hone : type.OneKnown F config) :
    (F.createObject config type = none ∧ ∀ obj, ¬ F.Makes type (some config) obj) ∨
    ∃ obj, F.createObject config type = some [obj] ∧ F.Makes type (some config) obj := by
  cases type with
  | object cls =>
      cases hmade : F.makeConfigured cls config with
      | none =>
          refine Or.inl ⟨by rw [createObject, hmade]; rfl, ?_⟩
          intro obj hmakes
          cases hmakes with
          | configured hmade' => exact absurd (hmade.symm.trans hmade') (by simp)
      | some obj => exact Or.inr ⟨obj, by rw [createObject, hmade]; rfl, .configured hmade⟩
  | factory typeId supportsMulti first others =>
      obtain ⟨name, child, hitems, cls, hmem, hname⟩ := hone
      obtain ⟨hempty, hsize⟩ := Json.items_singleton hitems
      obtain ⟨cls, hfind⟩ := Option.isSome_iff_exists.mp (List.find?_isSome.mpr
        ⟨cls, hmem, decide_eq_true hname⟩ :
          ((first :: others).find? fun cls => F.typeId cls = name).isSome)
      have hspecific := F.createSpecific_of_find child hfind
      have hcreate : F.create supportsMulti (first :: others) config =
          (F.makeConfigured cls child).map fun obj => [obj] := by
        unfold create
        rw [if_neg (by simp [hempty]), if_neg (by simp [hsize]), hitems]
        cases supportsMulti <;> cases hmade : F.makeConfigured cls child <;>
          simp [hspecific, hmade]
      cases hmade : F.makeConfigured cls child with
      | none =>
          refine Or.inl ⟨by rw [createObject, hcreate, hmade]; rfl, ?_⟩
          intro obj hmakes
          cases hmakes with
          | specific hitems' hfind' hmade' =>
              obtain ⟨rfl, rfl⟩ : name = _ ∧ child = _ := by simpa using hitems.symm.trans hitems'
              obtain rfl : cls = _ := Option.some.inj (hfind.symm.trans hfind')
              exact absurd (hmade.symm.trans hmade') (by simp)
      | some obj =>
          exact Or.inr ⟨obj, by rw [createObject, hcreate, hmade]; rfl,
            .specific hitems hfind hmade⟩

/-! ## Handles -/

variable {Obj : Type}

/-- The types of the handles that are not set although there is a provider. -/
def ObjectHandleContainer.misses (C : Classes τ Obj) (alive : Obj → Bool) (pool : List Obj) :
    {deps : List (Dependency τ)} → ObjectHandleContainer Obj deps → List τ
  | _, .nil => []
  | _, @single _ _ type _ object others =>
      (if (lock alive object).isNone && pool.any fun obj => C.isA obj type then [type] else []) ++
        others.misses C alive pool
  | _, .multi _ others => others.misses C alive pool

/-- Filling misses only what `getOne` does not look for. -/
lemma ObjectHandleContainer.misses_set [DecidableEq Obj] {C : Classes τ Obj} {alive : Obj → Bool}
    {pool : List Obj} (halive : ∀ obj, alive obj = true) {deps : List (Dependency τ)}
    (h : ObjectHandleContainer Obj deps) :
    ∀ type ∈ (h.setFromAggregationIfNotSet C alive pool).misses C alive pool,
      C.isComplete type = false := by
  induction h with
  | nil => exact fun _ hmem => absurd hmem (List.not_mem_nil)
  | multi objects others ih => exact ih
  | @single type deps object others ih =>
      intro missed hmem
      rcases List.mem_append.mp hmem with hmem | hmem
      · generalize hfilled : (if (lock alive object).isNone then C.getOne pool type none
          else object) = filled at hmem
        split at hmem
        case isFalse => exact absurd hmem (List.not_mem_nil)
        case isTrue hmissed =>
          obtain rfl : missed = type := List.mem_singleton.mp hmem
          simp only [Bool.and_eq_true] at hmissed
          obtain ⟨hnone, hprovider⟩ := hmissed
          refine Bool.eq_false_iff.mpr fun hcomplete => ?_
          have hfound : (C.getOne pool missed none).isSome := by
            rw [Classes.getOne_none, if_pos hcomplete, List.find?_isSome]
            simpa using hprovider
          obtain ⟨p, hp⟩ := Option.isSome_iff_exists.mp hfound
          split at hfilled
          case isTrue => simp [← hfilled, hp, lock_some_of_alive (halive p)] at hnone
          case isFalse hset => exact hset (hfilled ▸ hnone)
      · exact ih missed hmem

/-! ## Filling an aggregator -/

variable {F : Framework κ τ}

/-- This is the object of that type. -/
def Heap.IsOf (heap : Heap F) (config : Json) (obj : Object κ) (type : HelperType κ) : Prop :=
  ∃ made, heap.objects[obj.address]? = some made ∧ made.1 = obj.cls ∧
    F.Makes type (config.find (F.helperTypeId type)) made

structure Aggregation.Filled (config : Json) (first : ℕ) (agg : Aggregation F)
    (types : List (HelperType κ)) : Prop where
  objects : List.Forall₂ (agg.1.IsOf config) agg.2 types
  nodup : agg.2.Nodup
  addresses : ∀ obj ∈ agg.2, first ≤ obj.address ∧ obj.address < agg.1.objects.length

/-- Where there are more objects, those before are where they were. -/
lemma Heap.IsOf.mono {heap heap' : Heap F} {config : Json} {obj : Object κ} {type : HelperType κ}
    (h : heap.IsOf config obj type) (hmore : heap.objects <+: heap'.objects) :
    heap'.IsOf config obj type := by
  obtain ⟨made, hfound, hrest⟩ := h
  obtain ⟨more, hmore⟩ := hmore
  refine ⟨made, ?_, hrest⟩
  rw [← hmore, List.getElem?_append_left (List.getElem?_eq_some_iff.mp hfound).1]
  exact hfound

lemma Aggregation.Filled.mono {config : Json} {first : ℕ} {agg : Aggregation F} {heap : Heap F}
    {types : List (HelperType κ)} (h : agg.Filled config first types)
    (hmore : agg.1.objects <+: heap.objects) :
    Aggregation.Filled config first (heap, agg.2) types where
  objects := h.objects.imp fun _ _ hof => hof.mono hmore
  nodup := h.nodup
  addresses obj hobj :=
    ⟨(h.addresses obj hobj).1, lt_of_lt_of_le (h.addresses obj hobj).2 hmore.length_le⟩

variable [DecidableEq κ]

def Aggregation.Wires (agg : Aggregation F) : Prop :=
  ∀ obj ∈ agg.2, ∀ type ∈ (agg.1.memory.handles obj).misses F.classes agg.1.memory.alive agg.2,
    F.isComplete type = false

lemma Memory.wires_notifyAll {m : Memory F.classes} (halive : ∀ obj, m.alive obj = true)
    (objects : List F.Instance) (container : List (Object κ)) :
    Aggregation.Wires (⟨objects, m.notifyAll container⟩, container) := by
  intro obj hobj type hmem
  simp only [Memory.alive_notifyAll, Memory.handles_notifyAll, if_pos hobj] at hmem
  exact ObjectHandleContainer.misses_set halive _ type hmem

lemma Aggregation.add_eq (agg : Aggregation F) {obj : F.Instance}
    (h : F.isAggregatable obj.1 = true) :
    agg.add obj = (⟨agg.1.objects ++ [obj], agg.1.memory.notifyAll
      (agg.2 ++ [⟨agg.1.objects.length, obj.1⟩])⟩, agg.2 ++ [⟨agg.1.objects.length, obj.1⟩]) := by
  rw [Aggregation.add, if_pos h]
  rfl

/-- **A new object** is one more. -/
lemma Aggregation.Filled.add {config : Json} {first : ℕ} {agg : Aggregation F}
    {types : List (HelperType κ)} {type : HelperType κ} {obj : F.Instance}
    (h : agg.Filled config first types) (hfirst : first ≤ agg.1.objects.length)
    (hmakes : F.Makes type (config.find (F.helperTypeId type)) obj)
    (haggregatable : F.isAggregatable obj.1 = true) :
    (agg.add obj).Filled config first (types ++ [type]) := by
  rw [agg.add_eq haggregatable]
  constructor
  case objects =>
    refine List.rel_append ?_ ?_
    · exact h.objects.imp fun _ _ hof => hof.mono (List.prefix_append _ _)
    · exact .cons ⟨obj, by simp, rfl, hmakes⟩ .nil
  case nodup =>
    refine List.Nodup.append h.nodup (List.nodup_singleton _) ?_
    intro other hother hnew
    have hlt := (h.addresses other hother).2
    rw [List.mem_singleton.mp hnew] at hlt
    exact lt_irrefl _ hlt
  case addresses =>
    intro other hother
    rw [List.length_append, List.length_singleton]
    rcases List.mem_append.mp hother with hother | hother
    · have hbounds := h.addresses other hother
      omega
    · rw [List.mem_singleton.mp hother]
      show first ≤ agg.1.objects.length ∧ agg.1.objects.length < agg.1.objects.length + 1
      omega

/-- What every step of the construction keeps or brings about. -/
structure Aggregation.Good (config : Json) (first : ℕ) (agg : Aggregation F)
    (types : List (HelperType κ)) : Prop where
  filled : agg.Filled config first types
  wires : agg.Wires
  alive : ∀ obj, agg.1.memory.alive obj = true
  bound : first ≤ agg.1.objects.length

lemma Aggregation.Good.add {config : Json} {first : ℕ} {agg : Aggregation F}
    {types : List (HelperType κ)} {type : HelperType κ} {obj : F.Instance}
    (h : agg.Good config first types)
    (hmakes : F.Makes type (config.find (F.helperTypeId type)) obj)
    (haggregatable : ∀ cls ∈ type.classes, F.isAggregatable cls = true) :
    (agg.add obj).Good config first (types ++ [type]) ∧
      agg.1.objects <+: (agg.add obj).1.objects := by
  have hcast := haggregatable obj.1 hmakes.cls_mem
  have hfilled := h.filled.add h.bound hmakes hcast
  have hadd := agg.add_eq hcast
  refine ⟨⟨hfilled, ?_, ?_, ?_⟩, ?_⟩
  · rw [hadd]
    exact Memory.wires_notifyAll h.alive _ _
  · rw [hadd]
    intro other
    exact Memory.alive_notifyAll agg.1.memory _ ▸ h.alive other
  · rw [hadd]
    exact h.bound.trans (List.length_append ▸ Nat.le_add_right _ _)
  · rw [hadd]
    exact List.prefix_append _ _

/-- A type that is in the configuration. -/
def Framework.inConfig (F : Framework κ τ) (config : Json) (type : HelperType κ) : Bool :=
  (config.find (F.helperTypeId type)).isSome

/-- The types that are not, each as constructed. -/
lemma Aggregation.Good.defaults {config : Json} {first : ℕ} {agg : Aggregation F}
    {created : List (HelperType κ)} (h : agg.Good config first created)
    (types : List (HelperType κ))
    (haggregatable : ∀ type ∈ types, ∀ cls ∈ type.classes, F.isAggregatable cls = true) :
    (types.foldl (Aggregation.addIfNotInConfig config) agg).Good config first
      (created ++ types.filter fun type => !F.inConfig config type) := by
  induction types generalizing agg created with
  | nil => simpa using h
  | cons type types ih =>
      have hrest := fun {agg : Aggregation F} {created} (h : agg.Good config first created) =>
        ih h fun other hother => haggregatable other (List.mem_cons_of_mem _ hother)
      rw [List.foldl_cons, List.filter_cons, Framework.inConfig]
      cases hfind : config.find (F.helperTypeId type) with
      | some params =>
          rw [Aggregation.addIfNotInConfig, hfind]
          exact hrest h
      | none =>
          have hmakes := F.makes_createObjectDefault type
          rw [← hfind] at hmakes
          have hadded := (h.add hmakes (haggregatable type List.mem_cons_self)).1
          rw [Aggregation.addIfNotInConfig, hfind]
          have hgood := hrest hadded
          rw [List.append_assoc] at hgood
          exact hgood

/-- A type that may be in the configuration, unless its `configure` throws. -/
lemma Aggregation.Good.addIfInConfig {config : Json} {first : ℕ} {agg : Aggregation F}
    {created : List (HelperType κ)} {type : HelperType κ} (h : agg.Good config first created)
    (haggregatable : ∀ cls ∈ type.classes, F.isAggregatable cls = true)
    (hone : ∀ params, config.find (F.helperTypeId type) = some params → type.OneKnown F params) :
    (agg.addIfInConfig config type = none ∧
      ∀ obj, ¬ F.Makes type (config.find (F.helperTypeId type)) obj) ∨
    ∃ next, agg.addIfInConfig config type = some next ∧
      next.Good config first (created ++ [type].filter (F.inConfig config)) ∧
      agg.1.objects <+: next.1.objects ∧
      ∃ obj, F.Makes type (config.find (F.helperTypeId type)) obj := by
  cases hfind : config.find (F.helperTypeId type) with
  | none =>
      refine Or.inr ⟨agg, ?_, ?_, List.prefix_rfl, _, F.makes_createObjectDefault type⟩
      · rw [Aggregation.addIfInConfig, hfind]
      · simpa [Framework.inConfig, hfind] using h
  | some params =>
      rcases F.createObject_eq (hone params hfind) with ⟨hnone, hthrows⟩ | ⟨obj, hsome, hmakes⟩
      · refine Or.inl ⟨?_, hthrows⟩
        rw [Aggregation.addIfInConfig, hfind]
        show (F.createObject params type).map _ = none
        rw [hnone, Option.map_none]
      · obtain ⟨hgood, hmore⟩ := h.add (hfind.symm ▸ hmakes) haggregatable
        refine Or.inr ⟨agg.add obj, ?_, ?_, hmore, obj, hmakes⟩
        · rw [Aggregation.addIfInConfig, hfind]
          show (F.createObject params type).map _ = some (agg.add obj)
          rw [hsome]
          rfl
        · simpa [Framework.inConfig, hfind] using hgood

/-- The types that are, each as configured. -/
lemma Aggregation.Good.configured {config : Json} {first : ℕ} {agg : Aggregation F}
    {created : List (HelperType κ)} (h : agg.Good config first created)
    (types : List (HelperType κ))
    (haggregatable : ∀ type ∈ types, ∀ cls ∈ type.classes, F.isAggregatable cls = true)
    (hone : ∀ type ∈ types, ∀ params, config.find (F.helperTypeId type) = some params →
      type.OneKnown F params) :
    (types.foldlM (Aggregation.addIfInConfig config) agg = none ∧
      ∃ type ∈ types, ∀ obj, ¬ F.Makes type (config.find (F.helperTypeId type)) obj) ∨
    ∃ agg', types.foldlM (Aggregation.addIfInConfig config) agg = some agg' ∧
      agg'.Good config first (created ++ types.filter (F.inConfig config)) ∧
      agg.1.objects <+: agg'.1.objects ∧
      ∀ type ∈ types, ∃ obj, F.Makes type (config.find (F.helperTypeId type)) obj := by
  induction types generalizing agg created with
  | nil =>
      refine Or.inr ⟨agg, rfl, ?_, List.prefix_rfl, fun _ hmem => absurd hmem List.not_mem_nil⟩
      rw [List.filter_nil, List.append_nil]
      exact h
  | cons type types ih =>
      rw [List.foldlM_cons]
      rcases h.addIfInConfig (haggregatable type List.mem_cons_self) (hone type List.mem_cons_self)
        with ⟨hnone, hthrows⟩ | ⟨next, hsome, hgood, hmore, hmakes⟩
      · rw [hnone]
        exact Or.inl ⟨rfl, type, List.mem_cons_self, hthrows⟩
      · rw [hsome, Option.bind_eq_bind, Option.bind_some]
        rcases ih hgood (fun other hother => haggregatable other (List.mem_cons_of_mem _ hother))
          (fun other hother => hone other (List.mem_cons_of_mem _ hother)) with
          ⟨hnone, other, hother, hthrows⟩ | ⟨agg', hsome', hgood', hmore', hall⟩
        · exact Or.inl ⟨hnone, other, List.mem_cons_of_mem _ hother, hthrows⟩
        · refine Or.inr ⟨agg', hsome', ?_, hmore.trans hmore', ?_⟩
          · rw [List.append_assoc, ← List.filter_append] at hgood'
            exact hgood'
          · intro other hother
            rcases List.mem_cons.mp hother with rfl | hother
            · exact hmakes
            · exact hall other hother

/-- **The merge** of what was created before into what was created after. -/
lemma Aggregation.Good.merge {config : Json} {first : ℕ} {agg source : Aggregation F}
    {types others : List (HelperType κ)} (h : agg.Good config source.1.objects.length types)
    (hsource : source.Good config first others)
    (hmore : source.1.objects <+: agg.1.objects) :
    Aggregation.Good config first (⟨agg.1.objects, (agg.1.memory.merge agg.2 source.2).1⟩,
      (agg.1.memory.merge agg.2 source.2).2.1) (types ++ others) := by
  have hbefore := hsource.filled.mono hmore
  refine ⟨⟨?_, ?_, ?_⟩, ?_, ?_, hsource.bound.trans hmore.length_le⟩
  · exact List.rel_append h.filled.objects hbefore.objects
  · refine List.Nodup.append h.filled.nodup hbefore.nodup ?_
    intro obj hafter hobj
    exact absurd (h.filled.addresses obj hafter).1
      (Nat.not_le.mpr (hsource.filled.addresses obj hobj).2)
  · intro obj hobj
    rcases List.mem_append.mp hobj with hobj | hobj
    · exact ⟨hsource.bound.trans (h.filled.addresses obj hobj).1, (h.filled.addresses obj hobj).2⟩
    · exact hbefore.addresses obj hobj
  · exact Memory.wires_notifyAll h.alive _ _
  · intro obj
    exact Memory.alive_notifyAll agg.1.memory _ ▸ h.alive obj

/-! ## The helper -/

/-- What a helper over these types, and this configuration of it, are expected to be. -/
structure Framework.Admissible (F : Framework κ τ) (defaults types : List (HelperType κ))
    (config : Json) : Prop where
  aggregatable : ∀ type ∈ defaults ++ types, ∀ cls ∈ type.classes, F.isAggregatable cls = true
  distinct : ((defaults ++ types).map F.helperTypeId).Nodup
  known : ∀ type ∈ defaults ++ types, ∀ params,
    config.find (F.helperTypeId type) = some params → type.OneKnown F params
  noPlugins : config.find "plugin_helper" = none

lemma Heap.createAggregation_eq {defaults types : List (HelperType κ)} {config : Json}
    (heap : Heap F) (h : config.find "plugin_helper" = none) :
    heap.createAggregation defaults types config =
      heap.createAggregationWithDefaults defaults types config := by
  rw [createAggregation, h]
  exact Option.map_id'

/-- One traversal for the types that are in the configuration, and one for those that are not. -/
lemma Framework.Admissible.createAggregation {defaults types : List (HelperType κ)} {config : Json}
    (h : F.Admissible defaults types config) :
    (({} : Heap F).createAggregation defaults types config = none ∧
      ∃ type ∈ defaults ++ types, ∀ obj, ¬ F.Makes type (config.find (F.helperTypeId type)) obj) ∨
    ∃ agg, ({} : Heap F).createAggregation defaults types config = some agg ∧
      agg.Good config 0 (defaults.filter (F.inConfig config) ++
        defaults.filter (fun type => !F.inConfig config type) ++
        types.filter (F.inConfig config)) ∧
      ∀ type ∈ defaults ++ types, ∃ obj, F.Makes type (config.find (F.helperTypeId type)) obj := by
  have hdefaults := fun type (hmem : type ∈ defaults) =>
    And.intro (h.aggregatable type (List.mem_append_left _ hmem))
      (h.known type (List.mem_append_left _ hmem))
  have htypes := fun type (hmem : type ∈ types) =>
    And.intro (h.aggregatable type (List.mem_append_right _ hmem))
      (h.known type (List.mem_append_right _ hmem))
  rw [Heap.createAggregation_eq _ h.noPlugins, Heap.createAggregationWithDefaults]
  have hempty : Aggregation.Good config 0 (({} : Heap F), []) [] :=
    ⟨⟨.nil, List.nodup_nil, fun _ hmem => absurd hmem List.not_mem_nil⟩,
      fun _ hmem => absurd hmem List.not_mem_nil, fun _ => rfl, Nat.zero_le _⟩
  have hdefault := hempty.defaults defaults fun type hmem => (hdefaults type hmem).1
  rw [List.nil_append] at hdefault
  change Aggregation.Good config 0 (({} : Heap F).createDefaults defaults config) _ at hdefault
  generalize ({} : Heap F).createDefaults defaults config = defaultAgg at hdefault ⊢
  have hfirst : Aggregation.Good config defaultAgg.1.objects.length (defaultAgg.1, []) [] :=
    ⟨⟨.nil, List.nodup_nil, fun _ hmem => absurd hmem List.not_mem_nil⟩,
      fun _ hmem => absurd hmem List.not_mem_nil, hdefault.alive, le_rfl⟩
  rcases hfirst.configured defaults (fun type hmem => (hdefaults type hmem).1)
    (fun type hmem => (hdefaults type hmem).2) with
    ⟨hnone, type, hmem, hthrows⟩ | ⟨agg, hsome, hagg, hmore, hall⟩
  · refine Or.inl ⟨?_, type, List.mem_append_left _ hmem, hthrows⟩
    rw [Heap.createAggregationImpl, hnone, Option.bind_none]
  rw [Heap.createAggregationImpl, hsome, Option.bind_some]
  have hmerged := hagg.merge hdefault hmore
  rcases hmerged.configured types (fun type hmem => (htypes type hmem).1)
    (fun type hmem => (htypes type hmem).2) with
    ⟨hnone, type, hmem, hthrows⟩ | ⟨agg', hsome', hagg', -, hall'⟩
  · exact Or.inl ⟨hnone, type, List.mem_append_right _ hmem, hthrows⟩
  · refine Or.inr ⟨agg', hsome', hagg', ?_⟩
    intro type hmem
    rcases List.mem_append.mp hmem with hmem | hmem
    · exact hall type hmem
    · exact hall' type hmem

/-- **A helper with defaults** creates one object for each of its default types, and one for each
other type that is in the configuration, and misses no handle that can be filled. -/
theorem create_aggregation_exact {defaults types : List (HelperType κ)} {config : Json}
    (h : F.Admissible defaults types config) :
    ((({} : Heap F).createAggregation defaults types config).isSome ↔
      ∀ type ∈ defaults ++ types, ∃ obj, F.Makes type (config.find (F.helperTypeId type)) obj) ∧
    ∀ agg, ({} : Heap F).createAggregation defaults types config = some agg →
      (∃ created : List (HelperType κ), List.Forall₂ (agg.1.IsOf config) agg.2 created ∧
        created.Nodup ∧ created.Perm (defaults ++ types.filter (F.inConfig config))) ∧
      agg.2.Nodup ∧
      ∀ obj ∈ agg.2, ∀ type ∈ (agg.1.memory.handles obj).misses F.classes agg.1.memory.alive agg.2,
        F.isComplete type = false := by
  rcases h.createAggregation with ⟨hnone, type, hmem, hthrows⟩ | ⟨agg, hsome, hgood, hall⟩
  · rw [hnone]
    refine ⟨iff_of_false (by simp) fun hall => ?_, by simp⟩
    obtain ⟨obj, hmakes⟩ := hall type hmem
    exact hthrows obj hmakes
  · rw [hsome]
    refine ⟨iff_of_true rfl hall, ?_⟩
    intro agg' hagg'
    obtain rfl : agg = agg' := Option.some.inj hagg'
    have hperm := (List.filter_append_perm (F.inConfig config) defaults).append_right
      (types.filter (F.inConfig config))
    have hnodup : (defaults ++ types.filter (F.inConfig config)).Nodup :=
      (List.Nodup.of_map _ h.distinct).sublist
        ((List.Sublist.refl defaults).append List.filter_sublist)
    exact ⟨⟨_, hgood.filled.objects, hperm.nodup_iff.mpr hnodup, hperm⟩, hgood.filled.nodup,
      hgood.wires⟩

/-- A class that asks for one of a type, and a class of the type. -/
def askerFramework (isComplete : Bool) : Framework Bool Unit where
  typeId asker := if asker then "asker" else "provider"
  deps asker := if asker then [.single ()] else []
  isAggregatable _ := true
  isA asker _ := !asker
  isBaseOf _ _ := true
  isComplete _ := isComplete
  isBaseOf_refl _ := rfl
  Params _ := Bool
  default _ := false
  configure _ := some fun config _ => if config.isObject then some (true, true) else none
  plugins _ := []

/-- The provider is a default, and the asker is in the configuration. -/
def askerConfig : Json := .object [("asker", .object [])]

lemma askerFramework_admissible (isComplete : Bool) :
    (askerFramework isComplete).Admissible [.object false] [.object true] askerConfig where
  aggregatable _ _ _ _ := rfl
  distinct := by
    show ["provider", "asker"].Nodup
    decide
  known type hmem params hfind := by
    rcases List.mem_pair.mp hmem with rfl | rfl
    · trivial
    · trivial
  noPlugins := rfl

theorem create_aggregation_exact_asker : ∃ agg,
    ({} : Heap (askerFramework true)).createAggregation [.object false] [.object true]
      askerConfig = some agg ∧
    ∀ obj ∈ agg.2, (agg.1.memory.handles obj).misses (askerFramework true).classes
      agg.1.memory.alive agg.2 = [] := by
  obtain ⟨hreturns, hexact⟩ := create_aggregation_exact (askerFramework_admissible true)
  have hmakes : ∀ type ∈ [HelperType.object false, .object true], ∃ obj,
      (askerFramework true).Makes type (askerConfig.find ((askerFramework true).helperTypeId type))
        obj := by
    intro type hmem
    rcases List.mem_pair.mp hmem with rfl | rfl
    · exact ⟨_, .default⟩
    · exact ⟨⟨true, true⟩, .configured rfl⟩
  obtain ⟨agg, hagg⟩ := Option.isSome_iff_exists.mp (hreturns.mpr hmakes)
  refine ⟨agg, hagg, fun obj hobj => List.eq_nil_iff_forall_not_mem.mpr fun type hmissed => ?_⟩
  exact Bool.noConfusion ((hexact agg hagg).2.2 obj hobj type hmissed)

/-- Where the type is incomplete, the handle is not set although the provider is there. -/
theorem create_aggregation_skips_incomplete : ¬ ∀ (F : Framework Bool Unit) defaults types config,
    F.Admissible defaults types config →
    ∀ agg, ({} : Heap F).createAggregation defaults types config = some agg →
      ∀ obj ∈ agg.2, (agg.1.memory.handles obj).misses F.classes agg.1.memory.alive agg.2 = [] := by
  intro hwires
  have hmisses : ∃ agg, ({} : Heap (askerFramework false)).createAggregation [.object false]
      [.object true] askerConfig = some agg ∧ ∃ obj ∈ agg.2, (agg.1.memory.handles obj).misses
        (askerFramework false).classes agg.1.memory.alive agg.2 = [()] :=
    ⟨_, rfl, ⟨1, true⟩, by decide, by decide⟩
  obtain ⟨agg, hagg, obj, hobj, hmissed⟩ := hmisses
  rw [hwires _ _ _ _ (askerFramework_admissible false) agg hagg obj hobj] at hmissed
  exact absurd hmissed (by simp)

end CpsCore

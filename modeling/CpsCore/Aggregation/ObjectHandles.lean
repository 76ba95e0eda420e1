import Mathlib

/-!
# Object handles

An `AggregatableObject<...>` has a handle for each type of its list, one object or, for `Multi`,
all objects of the type.  Handles are weak pointers: what one points to is there as long as it is
`alive`.

What the compiler knows of types and objects enters as `Classes`.
-/

namespace CpsCore

/-- An entry of the list of an `AggregatableObject`. -/
inductive Dependency (τ : Type)
  | single (type : τ)
  | multi (type : τ)
  deriving DecidableEq, Repr

structure Classes (τ Obj : Type) where
  /-- The list of the object's class. -/
  deps : Obj → List (Dependency τ)
  /-- Whether `dynamic_pointer_cast` succeeds. -/
  isA : Obj → τ → Bool
  /-- `std::is_base_of`, of the second by the first. -/
  isBaseOf : τ → τ → Bool
  /-- `is_complete`, where the handles are filled. -/
  isComplete : τ → Bool
  isBaseOf_refl : ∀ type, isBaseOf type type = true

variable {τ Obj : Type}

/-! ## The container of objects -/

/-- `DynamicObjectContainer::getOne`: nothing at all for an incomplete type. -/
def Classes.getOne [DecidableEq Obj] (C : Classes τ Obj) (container : List Obj) (type : τ)
    (self : Option Obj) : Option Obj :=
  if C.isComplete type then container.find? fun obj => C.isA obj type && some obj ≠ self else none

/-- `DynamicObjectContainer::getAll`. -/
def Classes.getAll [DecidableEq Obj] (C : Classes τ Obj) (container : List Obj) (type : τ)
    (self : Option Obj) : List Obj :=
  container.filter fun obj => C.isA obj type && some obj ≠ self

/-- `lock`. -/
def lock (alive : Obj → Bool) (pointer : Option Obj) : Option Obj := pointer.filter alive

/-! ## The container of handles -/

/-- `ObjectHandleContainer`, one handle for each entry of the list. -/
inductive ObjectHandleContainer (Obj : Type) : List (Dependency τ) → Type
  | nil : ObjectHandleContainer Obj []
  | single {type : τ} {deps : List (Dependency τ)} (object : Option Obj)
      (others : ObjectHandleContainer Obj deps) : ObjectHandleContainer Obj (.single type :: deps)
  | multi {type : τ} {deps : List (Dependency τ)} (objects : List Obj)
      (others : ObjectHandleContainer Obj deps) : ObjectHandleContainer Obj (.multi type :: deps)

namespace ObjectHandleContainer

/-- As constructed. -/
def empty : (deps : List (Dependency τ)) → ObjectHandleContainer Obj deps
  | [] => .nil
  | .single _ :: deps => .single none (empty deps)
  | .multi _ :: deps => .multi [] (empty deps)

/-- `canContain<Type>`. -/
def canContain (C : Classes τ Obj) (type : τ) : List (Dependency τ) → Bool
  | [] => false
  | .single object :: deps => C.isBaseOf type object || canContain C type deps
  | .multi _ :: deps => canContain C type deps

/-- `get<Type>`, of the first entry that is derived from it. -/
def get (C : Classes τ Obj) (alive : Obj → Bool) (type : τ) :
    {deps : List (Dependency τ)} → ObjectHandleContainer Obj deps → Option Obj
  | _, .nil => none
  | _, @single _ _ object _ handle others =>
      if C.isBaseOf type object then lock alive handle else others.get C alive type
  | _, .multi _ others => others.get C alive type

/-- `isSet<Type>`. -/
def isSet (C : Classes τ Obj) (alive : Obj → Bool) (type : τ) :
    {deps : List (Dependency τ)} → ObjectHandleContainer Obj deps → Bool
  | _, .nil => false
  | _, @single _ _ object _ handle others =>
      if C.isBaseOf type object then (lock alive handle).isSome else others.isSet C alive type
  | _, .multi _ others => others.isSet C alive type

/-- What is stored for `Multi<Type>`. -/
def stored [DecidableEq τ] (type : τ) :
    {deps : List (Dependency τ)} → ObjectHandleContainer Obj deps → List Obj
  | _, .nil => []
  | _, .single _ others => others.stored type
  | _, @multi _ _ object _ handles others => if object = type then handles else others.stored type

/-- `get<Multi<Type>>`. -/
def getMulti [DecidableEq τ] (alive : Obj → Bool) (type : τ) {deps : List (Dependency τ)}
    (handles : ObjectHandleContainer Obj deps) : List Obj :=
  (handles.stored type).filter alive

/-- `isSet<Multi<Type>>`. -/
def isSetMulti [DecidableEq τ] (type : τ) {deps : List (Dependency τ)}
    (handles : ObjectHandleContainer Obj deps) : Bool :=
  decide ((handles.stored type).length > 0)

/-- `AggregatableObject::checkIsSet<Checks...>`. -/
def checkIsSet (C : Classes τ Obj) (alive : Obj → Bool) (checks : List τ)
    {deps : List (Dependency τ)} (handles : ObjectHandleContainer Obj deps) : Bool :=
  checks.all fun check => handles.isSet C alive check

/-- `setFromAggregationIfNotSet`: a handle that is set is kept, and a list as long as the new one
as well. -/
def setFromAggregationIfNotSet [DecidableEq Obj] (C : Classes τ Obj) (alive : Obj → Bool)
    (container : List Obj) : {deps : List (Dependency τ)} → ObjectHandleContainer Obj deps →
    ObjectHandleContainer Obj deps
  | _, .nil => .nil
  | _, @single _ _ type _ object others =>
      .single (if (lock alive object).isNone then C.getOne container type none else object)
        (others.setFromAggregationIfNotSet C alive container)
  | _, @multi _ _ type _ objects others =>
      .multi (if (C.getAll container type none).length ≠ objects.length
          then C.getAll container type none else objects)
        (others.setFromAggregationIfNotSet C alive container)

end ObjectHandleContainer

/-! ## What the operations come to -/

lemma lock_eq_some {alive : Obj → Bool} {pointer : Option Obj} {obj : Obj} :
    lock alive pointer = some obj ↔ pointer = some obj ∧ alive obj = true := by
  simp only [lock, Option.filter_eq_some_iff]

lemma lock_none (alive : Obj → Bool) : lock alive none = none := rfl

lemma lock_some_of_alive {alive : Obj → Bool} {obj : Obj} (h : alive obj = true) :
    lock alive (some obj) = some obj := lock_eq_some.mpr ⟨rfl, h⟩

variable [DecidableEq Obj]

lemma Classes.getOne_none (C : Classes τ Obj) (container : List Obj) (type : τ) :
    C.getOne container type none =
      if C.isComplete type then container.find? (C.isA · type) else none := by
  simp [getOne]

lemma Classes.getAll_none (C : Classes τ Obj) (container : List Obj) (type : τ) :
    C.getAll container type none = container.filter (C.isA · type) := by
  simp [getAll]

/-- Once filled, handles are not filled otherwise from the same objects. -/
lemma ObjectHandleContainer.set_set (C : Classes τ Obj) (alive : Obj → Bool)
    (container : List Obj) {deps : List (Dependency τ)} (h : ObjectHandleContainer Obj deps) :
    (h.setFromAggregationIfNotSet C alive container).setFromAggregationIfNotSet C alive container =
      h.setFromAggregationIfNotSet C alive container := by
  induction h with
  | nil => rfl
  | single object others ih =>
      simp only [setFromAggregationIfNotSet, ih, single.injEq, and_true]
      split <;> simp_all
  | multi objects others ih =>
      simp only [setFromAggregationIfNotSet, ih, multi.injEq, and_true]
      split <;> simp_all

end CpsCore

import Mathlib
import CpsCore.Aggregation.Aggregator
import CpsCore.Configuration.Json

/-!
# Static factories and helpers

A `StaticHelper` creates the objects of its types that a configuration asks for, and aggregates
them.  A type is a class or a `StaticFactory` of classes; a helper may begin with another helper,
whose types are created in any case.

What the compiler knows of the classes enters as a `Framework`.  Where an exception escapes from a
`configure`, there is no result.
-/

namespace CpsCore

def Json.size : Json → ℕ
  | .null => 0
  | .array elements => elements.length
  | .object fields => fields.length
  | _ => 1

/-! ## Classes and objects -/

structure Framework (κ τ : Type) where
  typeId : κ → String
  /-- The types in the `AggregatableObject` of the class. -/
  deps : κ → List (Dependency τ)
  /-- Whether it is an `IAggregatableObject`. -/
  isAggregatable : κ → Bool
  isA : κ → τ → Bool
  isBaseOf : τ → τ → Bool
  isComplete : τ → Bool
  isBaseOf_refl : ∀ type, isBaseOf type type = true
  Params : κ → Type
  default : (cls : κ) → Params cls
  /-- `configure`, of an `IConfigurableObject`. -/
  configure : (cls : κ) → Option (Json → Params cls → Option (Params cls × Bool))
  /-- What `PluginHelper` creates, null pointers included. -/
  plugins : Json → List (Option (Σ cls, Params cls))

/-- An object by its address. -/
structure Object (κ : Type) where
  address : ℕ
  cls : κ
  deriving DecidableEq, Repr

variable {κ τ : Type}

/-- What an object is made of. -/
abbrev Framework.Instance (F : Framework κ τ) : Type := Σ cls, F.Params cls

def Framework.classes (F : Framework κ τ) : Classes τ (Object κ) where
  deps obj := F.deps obj.cls
  isA obj := F.isA obj.cls
  isBaseOf := F.isBaseOf
  isComplete := F.isComplete
  isBaseOf_refl := F.isBaseOf_refl

/-- The objects by their addresses, and their handles. -/
structure Heap (F : Framework κ τ) where
  objects : List F.Instance := []
  memory : Memory F.classes := {}

namespace Framework

variable (F : Framework κ τ)

/-- `make_shared` and `configureIfConfigurable`, whose return value counts for nothing. -/
def makeConfigured (cls : κ) (config : Json) : Option F.Instance :=
  match F.configure cls with
  | some configure => (configure config (F.default cls)).map fun r => ⟨cls, r.1⟩
  | none => some ⟨cls, F.default cls⟩

/-! ## Factories -/

/-- `StaticFactory::createSpecific`: a null pointer for a type that is not found. -/
def createSpecific (type : String) (config : Json) : List κ → Option (Option F.Instance)
  | [] => some none
  | cls :: classes =>
      if type = F.typeId cls then (F.makeConfigured cls config).map some
      else createSpecific type config classes

/-- `StaticFactory::create`. -/
def create (supportsMulti : Bool) (classes : List κ) (config : Json) : Option (List F.Instance) :=
  if config.empty then some []
  else if !supportsMulti && decide (config.size > 1) then some []
  else if supportsMulti then
    (config.items.mapM fun item => F.createSpecific item.1 item.2 classes).map
      (List.filterMap id)
  else
    match config.items with
    | child :: _ => (F.createSpecific child.1 child.2 classes).map Option.toList
    | [] => some []

end Framework

/-! ## Types -/

/-- What may be in the list of a helper. -/
inductive HelperType (κ : Type)
  | object (cls : κ)
  /-- `StaticFactory<SuperClass, supportsMulti, First, Others...>`. -/
  | factory (typeId : String) (supportsMulti : Bool) (first : κ) (others : List κ)
  deriving DecidableEq, Repr

def Framework.helperTypeId (F : Framework κ τ) : HelperType κ → String
  | .object cls => F.typeId cls
  | .factory typeId _ _ _ => typeId

/-- `StaticHelper::createObject`. -/
def Framework.createObject (F : Framework κ τ) (config : Json) :
    HelperType κ → Option (List F.Instance)
  | .object cls => (F.makeConfigured cls config).map fun obj => [obj]
  | .factory _ supportsMulti first others => F.create supportsMulti (first :: others) config

/-- `StaticHelper::createObjectDefault`. -/
def Framework.createObjectDefault (F : Framework κ τ) : HelperType κ → F.Instance
  | .object cls => ⟨cls, F.default cls⟩
  | .factory _ _ first _ => ⟨first, F.default first⟩

/-! ## Helpers -/

variable [DecidableEq κ] {F : Framework κ τ}

/-- An aggregator under construction. -/
abbrev Aggregation (F : Framework κ τ) : Type := Heap F × List (Object κ)

/-- `Aggregator::add<Type>` of a new object. -/
def Aggregation.add (agg : Aggregation F) (obj : F.Instance) : Aggregation F :=
  let pointer : Object κ := ⟨agg.1.objects.length, obj.1⟩
  let objects := agg.1.objects ++ [obj]
  if F.isAggregatable obj.1 then
    (⟨objects, (agg.1.memory.add agg.2 pointer).1⟩, (agg.1.memory.add agg.2 pointer).2)
  else (⟨objects, agg.1.memory⟩, agg.2)

def Aggregation.addIfInConfig (config : Json) (agg : Aggregation F) (type : HelperType κ) :
    Option (Aggregation F) :=
  match config.find (F.helperTypeId type) with
  | some params => (F.createObject params type).map fun objs => objs.foldl Aggregation.add agg
  | none => some agg

def Aggregation.addIfNotInConfig (config : Json) (agg : Aggregation F) (type : HelperType κ) :
    Aggregation F :=
  match config.find (F.helperTypeId type) with
  | some _ => agg
  | none => agg.add (F.createObjectDefault type)

namespace Heap

/-- `createDefaults`, of a helper over `types`. -/
def createDefaults (types : List (HelperType κ)) (config : Json) (heap : Heap F) : Aggregation F :=
  types.foldl (Aggregation.addIfNotInConfig config) (heap, [])

/-- `createAggregationImpl`, of a helper that does not begin with another. -/
def createAggregationImpl (types : List (HelperType κ)) (config : Json) (heap : Heap F) :
    Option (Aggregation F) :=
  types.foldlM (Aggregation.addIfInConfig config) (heap, [])

/-- `createAggregationImpl`, of a helper that begins with the helper over `defaults`. -/
def createAggregationWithDefaults (defaults types : List (HelperType κ)) (config : Json)
    (heap : Heap F) : Option (Aggregation F) :=
  let defaultAgg := heap.createDefaults defaults config
  (defaultAgg.1.createAggregationImpl defaults config).bind fun agg =>
    let merged := agg.1.memory.merge agg.2 defaultAgg.2
    types.foldlM (Aggregation.addIfInConfig config) (⟨agg.1.objects, merged.1⟩, merged.2.1)

/-- `createAggregation`, of such a helper. -/
def createAggregation (defaults types : List (HelperType κ)) (config : Json) (heap : Heap F) :
    Option (Aggregation F) :=
  (heap.createAggregationWithDefaults defaults types config).map fun agg =>
    match config.find "plugin_helper" with
    | some _ => (F.plugins config).foldl (fun agg plugin => plugin.elim agg agg.add) agg
    | none => agg

end Heap

end CpsCore

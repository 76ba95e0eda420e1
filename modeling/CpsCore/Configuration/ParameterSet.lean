import Mathlib
import CpsCore.Configuration.Json

/-!
# Parameter sets

A parameter set is a struct of `Parameter`s with a `configure` that hands each of them to a
mapper or a populator.  The mapper picks what it does by the C++ type of the parameter, with
`if constexpr`; the three families below are the types it compiles for.

* `ParamType` — the type of a parameter.
* `Element` — the element type of a vector.
* `ParameterSet` — the parameters in the order of `configure`, with their ids and defaults.

The Boolean `writable` restricts the three to what the populator writes and a configuration can
hold: ids are distinct and not empty, enumerations are registered, the keys of maps are strings,
and there is no `Special` type and no configurable object.
-/

namespace CpsCore

/-! ## Reading one value -/

/-- What a read makes of the value under its key, if there is one. -/
inductive Read (α : Type)
  | value (a : α)
  | missing
  | throws

namespace Read

variable {α : Type}

def isMissing : Read α → Bool
  | missing => true
  | _ => false

def isThrow : Read α → Bool
  | throws => true
  | _ => false

end Read

/-- A null is no value, and an exception of the library is caught. -/
def JsonPod.read {α : Type} (p : JsonPod α) : Option Json → Read α
  | none => .missing
  | some json =>
      if json.isNull then .missing
      else
        match p.get json with
        | some a => .value a
        | none => .missing

def readString : Option Json → Read String
  | some (.string s) => .value s
  | _ => .missing

def EnumMap.read {α : Type} (e : EnumMap α) : Option Json → Read α
  | some (.string s) => .value (e.value s)
  | _ => .missing

@[simp] lemma JsonPod.isThrow_read {α : Type} (p : JsonPod α) (found : Option Json) :
    (p.read found).isThrow = false := by
  unfold JsonPod.read
  split
  · simp [Read.isThrow]
  · split
    · simp [Read.isThrow]
    · split <;> simp [Read.isThrow]

@[simp] lemma isThrow_readString (found : Option Json) : (readString found).isThrow = false := by
  unfold readString
  split <;> simp [Read.isThrow]

@[simp] lemma EnumMap.isThrow_read {α : Type} (e : EnumMap α) (found : Option Json) :
    (e.read found).isThrow = false := by
  unfold EnumMap.read
  split <;> simp [Read.isThrow]

/-- A type with an overload of `add` of its own, which reads nothing where there is nothing.  With
`viaVector` set, it is `addVector` that looks for the value. -/
structure Special (α : Type) where
  default : α
  read : Option Json → Read α
  viaVector : Bool := false
  read_none : read none = .missing

/-- `Duration`, in nanoseconds; the configuration gives milliseconds, as an `int`. -/
def Special.duration : Special ℤ where
  default := 0
  read
    | none => .missing
    | some (.number n) => .value ((BitVec.ofInt 32 n).toInt * 1000000)
    | some (.float x) => .value (x.toInt32.toInt * 1000000)
    | some (.boolean b) => .value (if b then 1000000 else 0)
    | some _ => .throws
  read_none := rfl

/-- A `Configuration` of its own. -/
def Special.configuration : Special Json where
  default := .null
  read
    | some (.object fields) => .value (.object fields)
    | _ => .missing
  read_none := rfl

/-- A vector or matrix of Eigen, by its scalars in the order of its storage: the overloads of `add`
for `Vector2`, `Vector3` and the types of dynamic size, and `addEigen` for those of a fixed `size`.
All of them go by a `std::vector` of their own. -/
def Special.eigen {α : Type} (scalar : JsonPod α) (size : Option ℕ) : Special (List α) where
  default := List.replicate (size.getD 0) scalar.default
  read
    | some (.array elements) =>
        match elements.mapM scalar.get with
        | some vec => if size.all (· = vec.length) then .value vec else .missing
        | none => .throws
    | _ => .missing
  viaVector := true
  read_none := rfl

/-- What becomes of an element of a vector. -/
inductive Converted (α : Type)
  | value (a : α)
  /-- `return false` from the middle of the loop. -/
  | aborts
  | throws

namespace Converted

variable {α : Type}

def ofOption : Option α → Converted α
  | some a => value a
  | none => throws

def isAbort : Converted α → Bool
  | aborts => true
  | _ => false

def isThrow : Converted α → Bool
  | throws => true
  | _ => false

@[simp] lemma ofOption_eq_throws {o : Option α} : ofOption o = throws ↔ o = none := by
  cases o <;> simp [ofOption]

@[simp] lemma ofOption_ne_aborts (o : Option α) : ofOption o ≠ aborts := by
  cases o <;> simp [ofOption]

lemma eq_aborts {c : Converted α} : c = aborts ↔ c.isAbort = true := by
  cases c <;> simp [isAbort]

lemma eq_throws {c : Converted α} : c = throws ↔ c.isThrow = true := by
  cases c <;> simp [isThrow]

end Converted

/-! ## The keys of a map -/

inductive MapKey (writable : Bool) : Type → Type 1
  | string : MapKey writable String
  | enum {κ : Type} (e : EnumMap κ) (h : writable = false) : MapKey writable κ

def MapKey.convert {w : Bool} : {κ : Type} → MapKey w κ → String → κ
  | _, .string, name => name
  | _, .enum e _, name => e.value name

/-! ## The grammar -/

/-- The element types a vector hands to `get<T>`; it treats the others itself. -/
def JsonType.isPlain {w : Bool} : {α : Type} → JsonType w α → Bool
  | _, .enum _ _ => false
  | _, .vector _ => false
  | _, .pod _ => true
  | _, .string => true
  | _, .map _ => true
  | _, .optional _ => true

mutual

inductive ParamType (writable : Bool) : Type → Type 1
  | pod {α : Type} (p : JsonPod α) : ParamType writable α
  | string : ParamType writable String
  | enum {α : Type} (e : EnumMap α) (h : writable = true → e.Registered) : ParamType writable α
  | special {α : Type} (s : Special α) (h : writable = false) : ParamType writable α
  | vector {α : Type} (e : Element writable α) : ParamType writable (List α)
  | map {κ α : Type} [LinearOrder κ] (key : MapKey writable κ) (t : JsonType writable α) :
      ParamType writable (OrderedMap κ α)
  | setMap {ids : List String} {κ α : Type} [LinearOrder κ] (key : MapKey writable κ)
      (params : ParameterSet writable ids α) : ParamType writable (OrderedMap κ α)
  | optional {α : Type} (t : ParamType writable α) : ParamType writable (Option α)
  | set {ids : List String} {α : Type} (params : ParameterSet writable ids α) : ParamType writable α

inductive Element (writable : Bool) : Type → Type 1
  | plain {α : Type} (t : JsonType writable α) (h : t.isPlain = true) : Element writable α
  | enum {α : Type} (e : EnumMap α) (h : writable = true → e.Registered) : Element writable α
  /-- A `Configuration`, or an Eigen vector, with the values it should be given. -/
  | special {α : Type} (convert : Json → Converted α) (shaped : Json → Bool)
      (h : writable = false) : Element writable α
  | vector {α : Type} (e : Element writable α) : Element writable (List α)
  | set {ids : List String} {α : Type} (params : ParameterSet writable ids α) : Element writable α

inductive ParameterSet (writable : Bool) : List String → Type → Type 1
  | nil : ParameterSet writable [] Unit
  | param {ids : List String} {α β : Type} (id : String) (mandatory : Bool)
      (t : ParamType writable α) (value : α) (rest : ParameterSet writable ids β)
      (h : writable = true → id ≠ "" ∧ id ∉ ids) : ParameterSet writable (id :: ids) (α × β)
  /-- A `ParameterRef` to a configurable object, which maps its parameters by itself. -/
  | object {ids ids' : List String} {α β : Type} (id : String) (mandatory : Bool)
      (params : ParameterSet writable ids' α) (rest : ParameterSet writable ids β)
      (h : writable = false) : ParameterSet writable (id :: ids) (α × β)

end

variable {w : Bool}

/-- A set as it is constructed. -/
def ParameterSet.default : {ids : List String} → {α : Type} → ParameterSet w ids α → α
  | _, _, .nil => ()
  | _, _, .param _ _ _ value rest _ => (value, rest.default)
  | _, _, .object _ _ params rest _ => (params.default, rest.default)

/-- `Type v;` -/
def ParamType.default : {α : Type} → ParamType w α → α
  | _, .pod p => p.default
  | _, .string => ""
  | _, .enum e _ => e.cast 0
  | _, .special s _ => s.default
  | _, .vector _ => []
  | _, @ParamType.map _ _ _ _ _ _ => OrderedMap.empty
  | _, @ParamType.setMap _ _ _ _ _ _ _ => OrderedMap.empty
  | _, .optional _ => none
  | _, .set params => params.default

end CpsCore

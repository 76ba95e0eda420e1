import Mathlib
import CpsCore.Lib.OrderedMap

/-!
# Configurations

A `Configuration` is a JSON document.  This is what the mapper and the populator use of the JSON
library: the kinds of values, lookup and iteration, and the conversions `get<T>` and `= value`
for the types `T` the library knows (`JsonType`).
-/

namespace CpsCore

/-- `nlohmann::json`. -/
inductive Json
  | null
  | boolean (b : Bool)
  | number (n : ℤ)
  | float (x : Float)
  | string (s : String)
  | array (elements : List Json)
  | object (fields : List (String × Json))

namespace Json

/-- Only an object has anything under a key. -/
def find : Json → String → Option Json
  | object fields, key => fields.lookup key
  | _, _ => none

def isBoolean : Json → Bool
  | boolean _ => true
  | _ => false

def isInteger : Json → Bool
  | number _ => true
  | _ => false

def isString : Json → Bool
  | string _ => true
  | _ => false

def isObject : Json → Bool
  | object _ => true
  | _ => false

def isArray : Json → Bool
  | array _ => true
  | _ => false

def isNull : Json → Bool
  | null => true
  | _ => false

def empty : Json → Bool
  | null => true
  | array elements => elements.isEmpty
  | object fields => fields.isEmpty
  | _ => false

/-- `items()`: an array is keyed by its indices, and a primitive value is one item without a
name. -/
def items : Json → List (String × Json)
  | null => []
  | object fields => fields
  | array elements => elements.mapIdx fun i element => (toString i, element)
  | value => [("", value)]

def setField (key : String) (value : Json) : List (String × Json) → List (String × Json)
  | [] => [(key, value)]
  | field :: fields =>
      if field.1 = key then (key, value) :: fields else field :: setField key value fields

/-- `json[key] = value`, on a document that is null or an object. -/
def set (json : Json) (key : String) (value : Json) : Json :=
  match json with
  | object fields => object (setField key value fields)
  | _ => object [(key, value)]

/-- `push_back`, on a document that is null or an array. -/
def pushBack (json value : Json) : Json :=
  match json with
  | array elements => array (elements ++ [value])
  | _ => array [value]

lemma lookup_setField (key other : String) (value : Json) (fields : List (String × Json)) :
    (setField key value fields).lookup other =
      if other = key then some value else fields.lookup other := by
  induction fields with
  | nil =>
      by_cases h : other = key
      · simp [setField, h]
      · simp [setField, List.lookup_cons, beq_false_of_ne h, h]
  | cons field fields ih =>
      obtain ⟨name, old⟩ := field
      by_cases hname : name = key
      · subst hname
        by_cases h : other = name
        · simp [setField, h]
        · simp [setField, List.lookup_cons, beq_false_of_ne h, h]
      · by_cases h : other = name
        · subst h
          simp [setField, hname]
        · simp [setField, hname, List.lookup_cons, beq_false_of_ne h, ih]

lemma foldl_pushBack (values : List Json) (elements : List Json) :
    values.foldl pushBack (array elements) = array (elements ++ values) := by
  induction values generalizing elements with
  | nil => simp
  | cons value values ih => simp [pushBack, ih]

lemma foldl_pushBack_null (value : Json) (values : List Json) :
    (value :: values).foldl pushBack null = array (value :: values) := by
  simp [pushBack, foldl_pushBack]

end Json

/-! ## Scalars -/

/-- A plain old data type, with the conversions of the JSON library in both directions.  They
are inverse.  The library converts values of more kinds than the one it writes (`shaped`), which
is never null. -/
structure JsonPod (α : Type) where
  default : α
  get : Json → Option α
  write : α → Json
  shaped : Json → Bool
  get_write : ∀ a, get (write a) = some a
  shaped_write : ∀ a, shaped (write a) = true
  shaped_null : shaped .null = false

lemma JsonPod.write_ne_null {α : Type} (p : JsonPod α) (a : α) : (p.write a).isNull = false := by
  have hshaped := p.shaped_write a
  cases hwrite : p.write a with
  | null =>
      rw [hwrite, p.shaped_null] at hshaped
      exact absurd hshaped (by decide)
  | _ => rfl

def JsonPod.bool : JsonPod Bool where
  default := false
  get
    | .boolean b => some b
    | _ => none
  write := .boolean
  shaped := Json.isBoolean
  get_write _ := by simp
  shaped_write _ := rfl
  shaped_null := rfl

/-- `int64_t`, the integer type of the library itself. -/
def JsonPod.int64 : JsonPod (BitVec 64) where
  default := 0
  get
    | .number n => some (BitVec.ofInt 64 n)
    | .float x => some (BitVec.ofInt 64 x.toInt64.toInt)
    | _ => none
  write v := .number v.toInt
  shaped := Json.isInteger
  get_write v := by simp
  shaped_write _ := rfl
  shaped_null := rfl

/-- `uint64_t`. -/
def JsonPod.uint64 : JsonPod (BitVec 64) where
  default := 0
  get
    | .number n => some (BitVec.ofInt 64 n)
    | .float x => some (BitVec.ofNat 64 x.toUInt64.toNat)
    | _ => none
  write v := .number v.toNat
  shaped := Json.isInteger
  get_write v := by simp
  shaped_write _ := rfl
  shaped_null := rfl

/-- `int`.  To the types of numbers that are not its own, the library converts a boolean too. -/
def JsonPod.int : JsonPod (BitVec 32) where
  default := 0
  get
    | .number n => some (BitVec.ofInt 32 n)
    | .float x => some (BitVec.ofInt 32 x.toInt32.toInt)
    | .boolean b => some (if b then 1 else 0)
    | _ => none
  write v := .number v.toInt
  shaped := Json.isInteger
  get_write v := by simp
  shaped_write _ := rfl
  shaped_null := rfl

/-! ## Enumerations -/

/-- The names registered for an enumeration, in the order of their registration, and its
conversion from a number. -/
structure EnumMap (α : Type) where
  entries : List (α × String)
  cast : ℤ → α
  decEq : DecidableEq α

namespace EnumMap

variable {α : Type}

/-- `EnumMap::convert` of a name; of names registered twice, the first counts. -/
def value (e : EnumMap α) (name : String) : α :=
  match e.entries.find? fun entry => entry.2 = name with
  | some entry => entry.1
  | none => e.cast 0

/-- `EnumMap::convert` of a value. -/
def name (e : EnumMap α) (a : α) : String :=
  haveI := e.decEq
  match e.entries.find? fun entry => entry.1 = a with
  | some entry => entry.2
  | none => ""

/-- Every value has a name, and no two of them the same. -/
structure Registered (e : EnumMap α) : Prop where
  complete : ∀ a, a ∈ e.entries.map Prod.fst
  injective : (e.entries.map Prod.snd).Nodup

lemma value_name {e : EnumMap α} (h : e.Registered) (a : α) : e.value (e.name a) = a := by
  let _ := e.decEq
  have hfound : ∃ entry, e.entries.find? (fun entry => entry.1 = a) = some entry := by
    obtain ⟨entry, hmem, rfl⟩ := List.mem_map.mp (h.complete a)
    exact Option.isSome_iff_exists.mp (List.find?_isSome.mpr ⟨entry, hmem, by simp⟩)
  obtain ⟨entry, hentry⟩ := hfound
  have hmem := List.mem_of_find?_eq_some hentry
  have hvalue : entry.1 = a := by simpa using List.find?_some hentry
  have hname : e.name a = entry.2 := by
    unfold name
    rw [hentry]
  -- the entry found for the name is the entry found for the value
  have hback : ∃ entry', e.entries.find? (fun entry' => entry'.2 = entry.2) = some entry' :=
    Option.isSome_iff_exists.mp (List.find?_isSome.mpr ⟨entry, hmem, by simp⟩)
  obtain ⟨entry', hentry'⟩ := hback
  have hsame : entry' = entry :=
    List.inj_on_of_nodup_map h.injective (List.mem_of_find?_eq_some hentry') hmem
      (by simpa using List.find?_some hentry')
  rw [hname, value, hentry', hsame]
  exact hvalue

end EnumMap

/-! ## The types the library converts -/

/-- The types `T` of `get<T>`.  An enumeration is a number to the library.  With `writable` set,
enumerations are those that can be written by name. -/
inductive JsonType (writable : Bool) : Type → Type 1
  | pod {α : Type} (p : JsonPod α) : JsonType writable α
  | string : JsonType writable String
  | enum {α : Type} (e : EnumMap α) (h : writable = true → e.Registered) : JsonType writable α
  | vector {α : Type} (t : JsonType writable α) : JsonType writable (List α)
  | map {α : Type} (t : JsonType writable α) : JsonType writable (OrderedMap String α)
  | optional {α : Type} (t : JsonType writable α) : JsonType writable (Option α)

/-- `get<T>`; nothing where it throws. -/
def JsonType.get {w : Bool} : {α : Type} → JsonType w α → Json → Option α
  | _, .pod p, json => p.get json
  | _, .string, .string s => some s
  | _, .string, _ => none
  | _, .enum e _, .number n => some (e.cast n)
  | _, .enum e _, .float x => some (e.cast x.toInt64.toInt)
  | _, .enum _ _, _ => none
  | _, .vector t, .array elements => elements.mapM fun element => t.get element
  | _, .vector _, _ => none
  | _, .map t, .object fields =>
      (fields.mapM fun field => (t.get field.2).map fun value => (field.1, value)).map
        OrderedMap.ofList
  | _, .map _, _ => none
  | _, .optional _, .null => some none
  | _, .optional t, json => (t.get json).map some

end CpsCore

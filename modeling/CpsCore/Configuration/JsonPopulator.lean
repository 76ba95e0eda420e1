import Mathlib
import CpsCore.Configuration.ParameterSet

/-!
# The JSON populator

`JsonPopulator` writes the parameters of a set into a document that is null at first.  It knows
the types of `ParameterSet true`.

* `writeVector`, `writeMap`: the loops of `writeValue` over a container.
* `ParamType.write`: what a parameter writes.  `operator&` writes a nested set as it is, and
  leaves the other types to `writeValue`; inside of another type a set goes through `writeValue`
  too, which writes one that is empty as an object.
-/

namespace CpsCore

/-- The elements of a vector, `push_back`ed. -/
def writeVector (values : List Json) : Json := values.foldl Json.pushBack .null

/-- The entries of a map. -/
def writeMap (values : List Json) : Json :=
  -- each entry goes under the literal name, not under its own key
  values.foldl (fun config value => config.set "key" value) .null

/-- `writeValue` of a type the JSON library knows. -/
def JsonType.writeValue : {α : Type} → JsonType true α → α → Json
  | _, .pod p, value => p.write value
  | _, .string, value => .string value
  | _, .enum e _, value => .string (e.name value)
  | _, .vector t, value => writeVector (value.map fun v => t.writeValue v)
  | _, .map t, value => writeMap (value.entries.map fun entry => t.writeValue entry.2)
  | _, .optional _, none => .null
  | _, .optional t, some value => t.writeValue value

/-- The set part of `writeValue`. -/
def writeSet (json : Json) : Json := if json.empty then .object [] else json

def ParamType.isSet {w : Bool} : {α : Type} → ParamType w α → Bool
  | _, .set _ => true
  | _, .pod _ => false
  | _, .string => false
  | _, .enum _ _ => false
  | _, .special _ _ => false
  | _, .vector _ => false
  | _, @ParamType.map _ _ _ _ _ _ => false
  | _, @ParamType.setMap _ _ _ _ _ _ _ => false
  | _, .optional _ => false

mutual

/-- What `writeValue` writes, and what `operator&` writes for a `parameter`. -/
def ParamType.write : {α : Type} → ParamType true α → (parameter : Bool) → α → Json
  | _, .pod p, _, value => p.write value
  | _, .string, _, value => .string value
  | _, .enum e _, _, value => .string (e.name value)
  | _, .special _ h, _, _ => nomatch h
  | _, .vector e, _, value => writeVector (value.map fun v => e.writeValue v)
  | _, @ParamType.map _ _ _ _ _ t, _, value =>
      writeMap (value.entries.map fun entry => t.writeValue entry.2)
  | _, @ParamType.setMap _ _ _ _ _ _ params, _, value =>
      writeMap (value.entries.map fun entry => writeSet (params.populate entry.2 .null))
  | _, .optional _, _, none => .null
  | _, .optional t, _, some value => t.write false value
  | _, .set params, parameter, value =>
      if parameter then params.populate value .null else writeSet (params.populate value .null)

def Element.writeValue : {α : Type} → Element true α → α → Json
  | _, .plain t _, value => t.writeValue value
  | _, .enum e _, value => .string (e.name value)
  | _, .special _ _ h, _ => nomatch h
  | _, .vector e, value => writeVector (value.map fun v => e.writeValue v)
  | _, .set params, value => writeSet (params.populate value .null)

/-- `configure(populator)`, for a populator that has come to `json`. -/
def ParameterSet.populate : {ids : List String} → {α : Type} → ParameterSet true ids α → α → Json →
    Json
  | _, _, .nil, _, json => json
  | _, _, .param id _ t _ rest _, value, json =>
      let written := t.write true value.1
      rest.populate value.2
        (if id.isEmpty && !t.isSet then written else json.set id written)
  | _, _, .object _ _ _ _ h, _, _ => nomatch h

end

/-! ## The written document -/

@[simp] lemma writeVector_nil : writeVector [] = .null := by
  simp [writeVector]

@[simp] lemma writeVector_cons (value : Json) (values : List Json) :
    writeVector (value :: values) = .array (value :: values) :=
  Json.foldl_pushBack_null value values

@[simp] lemma writeMap_nil : writeMap [] = .null := by
  simp [writeMap]

/-- Only the last entry of a map is left. -/
lemma writeMap_append (values : List Json) (value : Json) :
    writeMap (values ++ [value]) = .object [("key", value)] := by
  have hlast : ∀ values value, writeMap (values ++ [value]) = (writeMap values).set "key" value := by
    intro values value
    simp [writeMap]
  induction values using List.reverseRecOn generalizing value with
  | nil => simp [writeMap, Json.set]
  | append_singleton values value' ih =>
      rw [hlast, ih]
      simp [Json.set, Json.setField]

lemma writeMap_eq_object {κ β : Type} {entries : List (κ × β)} (write : β → Json)
    (hne : entries ≠ []) :
    ∃ fields, writeMap (entries.map fun entry => write entry.2) = .object fields := by
  obtain ⟨front, last, hentries⟩ := (List.eq_nil_or_concat entries).resolve_left hne
  rw [hentries, List.concat_eq_append, List.map_append, List.map_singleton, writeMap_append]
  exact ⟨_, rfl⟩

/-- A document that can take another field: `find` knows the fields written so far. -/
def Json.Open (json : Json) : Prop := json = .null ∨ ∃ fields, json = .object fields

lemma Json.Open.find_set {json : Json} (h : json.Open) (key other : String) (value : Json) :
    (json.set key value).find other = if other = key then some value else json.find other := by
  rcases h with rfl | ⟨fields, rfl⟩
  · have hset := Json.lookup_setField key other value []
    simpa [Json.set, Json.find, Json.setField] using hset
  · exact Json.lookup_setField key other value fields

lemma Json.open_set (json : Json) (key : String) (value : Json) : (json.set key value).Open := by
  unfold Json.set
  split <;> exact Or.inr ⟨_, rfl⟩

lemma Json.not_empty_set (json : Json) (key : String) (value : Json) :
    ∃ field fields, json.set key value = .object (field :: fields) := by
  unfold Json.set
  split
  case h_1 fields =>
    cases fields with
    | nil => exact ⟨_, _, rfl⟩
    | cons field fields =>
        simp only [Json.setField]
        split <;> exact ⟨_, _, rfl⟩
  case h_2 => exact ⟨_, _, rfl⟩

/-- Every parameter finds what it has written. -/
def ParameterSet.Holds : {ids : List String} → {α : Type} → ParameterSet true ids α → α → Json →
    Prop
  | _, _, .nil, _, _ => True
  | _, _, .param id _ t _ rest _, value, json =>
      json.find id = some (t.write true value.1) ∧ rest.Holds value.2 json
  | _, _, .object _ _ _ _ h, _, _ => nomatch h

def ParameterSet.isNil {w : Bool} : {ids : List String} → {α : Type} → ParameterSet w ids α → Bool
  | _, _, .nil => true
  | _, _, .param _ _ _ _ _ _ => false
  | _, _, .object _ _ _ _ _ => false

lemma ParameterSet.populate_param {ids : List String} {α β : Type} {id : String} {mandatory : Bool}
    {t : ParamType true α} {default : α} {rest : ParameterSet true ids β}
    (h : true = true → id ≠ "" ∧ id ∉ ids) (value : α × β) (json : Json) :
    (ParameterSet.param id mandatory t default rest h).populate value json =
      rest.populate value.2 (json.set id (t.write true value.1)) := by
  simp [ParameterSet.populate, String.isEmpty_iff, (h rfl).1]

/-- The populator keeps what is there under other keys. -/
lemma ParameterSet.find_populate : {ids : List String} → {α : Type} →
    (params : ParameterSet true ids α) → (value : α) → {json : Json} → json.Open →
    ∀ key, key ∉ ids → (params.populate value json).find key = json.find key
  | _, _, .nil, _, _, _, _, _ => rfl
  | _, _, .param id _ t _ rest h, value, json, hopen, key, hkey => by
      simp only [List.mem_cons, not_or] at hkey
      rw [ParameterSet.populate_param h, rest.find_populate value.2 (json.open_set id _) key hkey.2,
        hopen.find_set, if_neg hkey.1]

/-- **What the populator writes is found.** -/
theorem ParameterSet.populate_holds : {ids : List String} → {α : Type} →
    (params : ParameterSet true ids α) → (value : α) → {json : Json} → json.Open →
    params.Holds value (params.populate value json)
  | _, _, .nil, _, _, _ => trivial
  | _, _, .param id _ t _ rest h, value, json, hopen => by
      have hnext := json.open_set id (t.write true value.1)
      rw [ParameterSet.populate_param h]
      refine ⟨?_, rest.populate_holds value.2 hnext⟩
      rw [rest.find_populate value.2 hnext id (h rfl).2, hopen.find_set, if_pos rfl]

/-- A set that has parameters writes fields. -/
lemma ParameterSet.populate_eq_object : {ids : List String} → {α : Type} →
    (params : ParameterSet true ids α) → (value : α) → {json : Json} →
    (params.isNil = false ∨ ∃ field fields, json = .object (field :: fields)) →
    ∃ field fields, params.populate value json = .object (field :: fields)
  | _, _, .nil, _, json, hjson => by
      simpa [ParameterSet.isNil, ParameterSet.populate] using hjson
  | _, _, .param id _ t _ rest h, value, json, _ => by
      rw [ParameterSet.populate_param h]
      exact rest.populate_eq_object value.2 (Or.inr (json.not_empty_set id _))

lemma ParameterSet.populate_nil {ids : List String} {α : Type} {params : ParameterSet true ids α}
    (h : params.isNil = true) (value : α) (json : Json) : params.populate value json = json := by
  cases params with
  | nil => simp [ParameterSet.populate]
  | param => simp [ParameterSet.isNil] at h
  | object => simp [ParameterSet.isNil] at h

end CpsCore

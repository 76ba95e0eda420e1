import Mathlib
import CpsCore.Configuration.ParameterSet

/-!
# The property mapper

`PropertyMapper` maps a configuration to the parameters of a set.  A mapper is its configuration
and the flag `mandatoryCheck_`; every call may lower the flag and none raises it, so what a call
does is its `Added`: the value of the parameter afterwards, the return value, and whether it has
lowered the flag.  Where an exception of the JSON library escapes, there is no `Added`.
-/

namespace CpsCore

structure Added (α : Type) where
  value : α
  returned : Bool
  failed : Bool

/-- The parameter got a value. -/
def Added.found {α : Type} (value : α) : Added α := ⟨value, true, false⟩

/-- `mandatoryCheck(key, mandatory); return false;` -/
def Added.missing {α : Type} (value : α) (mandatory : Bool) : Added α := ⟨value, false, mandatory⟩

def Read.added {α : Type} (read : Read α) (value : α) (mandatory : Bool) : Option (Added α) :=
  match read with
  | .value a => some (.found a)
  | .missing => some (.missing value mandatory)
  | .throws => none

/-- The loop of `addVector`, and its return value. -/
def convertAll {α : Type} (convert : Json → Converted α) : List Json → Option (List α × Bool)
  | [] => some ([], true)
  | json :: rest =>
      match convert json with
      | .value a => (convertAll convert rest).map fun r => (a :: r.1, r.2)
      | .aborts => some ([], false)
      | .throws => none

/-- The loop of `addMap` over parameter sets: a key that is there already, as an enumeration may
have one under several names, has its entry configured again. -/
def configureEntries {κ α : Type} [LinearOrder κ] (key : String → κ)
    (configure : Json → α → Option α) (default : α) :
    List (String × Json) → OrderedMap κ α → Option (OrderedMap κ α)
  | [], val => some val
  | item :: items, val =>
      let inserted := val.insert (key item.1) default
      (configure item.2 ((inserted.lookup (key item.1)).getD default)).bind fun a =>
        configureEntries key configure default items (inserted.update (key item.1) a)

/-- The object part of `operator&`: a failure of the object is one of the parameter. -/
def configureObject {α : Type} (configure : Json → α → Option (α × Bool)) (found : Option Json)
    (value : α) (mandatory : Bool) : Option (α × Bool) :=
  match found with
  | some json => (configure json value).map fun r => (r.1, mandatory && r.2)
  | none => some (value, mandatory)

variable {w : Bool}

/-- Whether `addVector` looks for the value. -/
def ParamType.isVector : {α : Type} → ParamType w α → Bool
  | _, .vector _ => true
  | _, .optional t => t.isVector
  | _, .special s _ => s.viaVector
  | _, .pod _ => false
  | _, .string => false
  | _, .enum _ _ => false
  | _, @ParamType.map _ _ _ _ _ _ => false
  | _, @ParamType.setMap _ _ _ _ _ _ _ => false
  | _, .set _ => false

/-- The value a parameter looks at: `find(key)`, except that `addVector` takes an empty key for the
configuration itself. -/
def ParamType.seek {α : Type} (t : ParamType w α) (config : Json) (key : String) : Option Json :=
  if t.isVector && key.isEmpty then some config else config.find key

mutual

/-- `addSpecific`, on the value the parameter looks at. -/
def ParamType.addSpecific : {α : Type} → ParamType w α → Option Json → α → Bool →
    Option (Added α)
  | _, .pod p, found, value, mandatory => (p.read found).added value mandatory
  | _, .string, found, value, mandatory => (readString found).added value mandatory
  | _, .enum e _, found, value, mandatory => (e.read found).added value mandatory
  | _, .special s _, found, value, mandatory => (s.read found).added value mandatory
  | _, .vector e, found, value, mandatory =>
      match found with
      | some (.array elements) =>
          (convertAll (fun json => e.convert json) elements).map fun r => ⟨r.1, r.2, false⟩
      | _ => some (.missing value mandatory)
  | _, @ParamType.map _ _ _ _ key t, found, value, mandatory =>
      match found with
      | some json =>
          (json.items.mapM fun item => (t.get item.2).map fun a => (key.convert item.1, a)).map
            fun entries => .found (OrderedMap.ofList entries)
      | none => some (.missing value mandatory)
  | _, @ParamType.setMap _ _ _ _ _ key params, found, value, mandatory =>
      match found with
      | some json =>
          (configureEntries key.convert
            (fun json value => (params.configure json value).map Prod.fst) params.default json.items
            OrderedMap.empty).map .found
      | none => some (.missing value mandatory)
  | _, .optional t, found, _, mandatory =>
      (t.addSpecific found t.default mandatory).map fun a =>
        ⟨if a.returned then some a.value else none, a.returned, a.failed⟩
  | _, .set params, found, value, mandatory =>
      match found with
      | some (.object fields) =>
          if fields.isEmpty then some ⟨value, false, false⟩
          else (params.configure (.object fields) value).map fun r => ⟨r.1, !r.2, false⟩
      | _ => some (.missing value mandatory)

/-- The body of the loop of `addVector`. -/
def Element.convert : {α : Type} → Element w α → Json → Converted α
  | _, .plain t _, json => .ofOption (t.get json)
  | _, .enum e _, json =>
      match json with
      | .string s => .value (e.value s)
      | _ => .throws
  | _, .special convert _ _, json => convert json
  | _, .vector e, json =>
      match json with
      | .array elements =>
          .ofOption ((convertAll (fun json => e.convert json) elements).map Prod.fst)
      | _ => .aborts
  | _, .set params, json => .ofOption ((params.configure json params.default).map Prod.fst)

/-- A mapper over `config` that visits all parameters; the flag says that a check has failed. -/
def ParameterSet.configure : {ids : List String} → {α : Type} → ParameterSet w ids α → Json → α →
    Option (α × Bool)
  | _, _, .nil, _, _ => some ((), false)
  | _, _, .param id mandatory t _ rest _, config, value =>
      (t.addSpecific (t.seek config id) value.1 mandatory).bind fun a =>
        (rest.configure config value.2).map fun r => ((a.value, r.1), a.failed || r.2)
  | _, _, .object id mandatory params rest _, config, value =>
      (configureObject (fun json value => params.configure json value) (config.find id) value.1
        mandatory).bind fun a =>
          (rest.configure config value.2).map fun r => ((a.1, r.1), a.2 || r.2)

end

/-- `ConfigurableObject::configure`: the parameters afterwards, and the return value. -/
def ConfigurableObject.configure {ids : List String} {α : Type} (set : ParameterSet w ids α)
    (config : Json) (params : α) : Option (α × Bool) :=
  (set.configure config params).map fun r => (r.1, !r.2)

end CpsCore

import Mathlib
import CpsCore.Configuration.PropertyMapper

/-!
# Mandatory parameters

What it means that a configuration has everything a parameter set asks for (`Complete`), and what
`configure` checks of it.

* `lacks`: the check of a mandatory parameter of the set itself fails.
* `throws`: an element of a vector or a map cannot be converted, and the exception escapes.
* `Overlooks`: something is missing that no check of the set itself sees.

The outcome of `configure` depends on the first two alone (`ParameterSet.configure_outcome`): the
return value of a nested set, of the elements of a vector and of the entries of a map is dropped.
-/

namespace CpsCore

variable {w : Bool}

/-! ## What a configuration should have -/

def EnumMap.Knows {α : Type} (e : EnumMap α) (json : Json) : Prop :=
  ∃ s, json = .string s ∧ s ∈ e.entries.map Prod.snd

def MapKey.Knows : {κ : Type} → MapKey w κ → String → Prop
  | _, .string, _ => True
  | _, .enum e _, name => name ∈ e.entries.map Prod.snd

def Element.Converts : {α : Type} → Element w α → Json → Prop
  | _, .plain t _, json => (t.get json).isSome = true
  | _, .enum e _, json => e.Knows json
  | _, .special convert _ _, json => ∃ a, convert json = .value a
  | _, .vector e, json => ∃ elements, json = .array elements ∧ ∀ x ∈ elements, e.Converts x
  | _, .set _, _ => True

/-- A parameter has a present, convertible value; a nested set or map of sets is present. -/
def ParamType.Has : {α : Type} → ParamType w α → Option Json → Prop
  | _, .pod p, found => ∃ a, p.read found = .value a
  | _, .string, found => ∃ a, readString found = .value a
  | _, .enum e _, found => ∃ json, found = some json ∧ e.Knows json
  | _, .special s _, found => ∃ a, s.read found = .value a
  | _, .vector e, found => ∃ elements, found = some (.array elements) ∧ ∀ x ∈ elements, e.Converts x
  | _, @ParamType.map _ _ _ _ key t, found => ∃ fields, found = some (.object fields) ∧
      ∀ field ∈ fields, key.Knows field.1 ∧ (t.get field.2).isSome = true
  | _, @ParamType.setMap _ _ _ _ _ key _, found => ∃ fields, found = some (.object fields) ∧
      ∀ field ∈ fields, key.Knows field.1
  | _, .optional t, found => t.Has found
  | _, .set _, found => ∃ fields, found = some (.object fields)

mutual

/-- All sets present in the value of a parameter are complete. -/
def ParamType.Below : {α : Type} → ParamType w α → Option Json → Prop
  | _, .vector e, found => ∀ elements, found = some (.array elements) → ∀ x ∈ elements, e.Below x
  | _, @ParamType.setMap _ _ _ _ _ _ params, found => ∀ fields, found = some (.object fields) →
      ∀ field ∈ fields, params.Complete field.2
  | _, .optional t, found => t.Below found
  | _, .set params, found => ∀ fields, found = some (.object fields) →
      params.Complete (.object fields)
  | _, .pod _, _ => True
  | _, .string, _ => True
  | _, .enum _ _, _ => True
  | _, .special _ _, _ => True
  | _, @ParamType.map _ _ _ _ _ _, _ => True

def Element.Below : {α : Type} → Element w α → Json → Prop
  | _, .vector e, json => ∀ elements, json = .array elements → ∀ x ∈ elements, e.Below x
  | _, .set params, json => params.Complete json
  | _, .plain _ _, _ => True
  | _, .enum _ _, _ => True
  | _, .special _ _ _, _ => True

/-- Every mandatory parameter is there, and so are those of the sets that are there. -/
def ParameterSet.Complete : {ids : List String} → {α : Type} → ParameterSet w ids α → Json → Prop
  | _, _, .nil, _ => True
  | _, _, .param id mandatory t _ rest _, config =>
      (mandatory = true → t.Has (t.seek config id)) ∧ t.Below (t.seek config id) ∧
        rest.Complete config
  | _, _, .object id mandatory params rest _, config =>
      (mandatory = true → (config.find id).isSome = true) ∧
        (∀ json, config.find id = some json → params.Complete json) ∧ rest.Complete config

end

/-! ## What the mapper checks -/

/-- The check of the parameter fails, if it is mandatory. -/
def ParamType.lacks : {α : Type} → ParamType w α → Option Json → Bool
  | _, .pod p, found => (p.read found).isMissing
  | _, .string, found => (readString found).isMissing
  | _, .enum e _, found => (e.read found).isMissing
  | _, .special s _, found => (s.read found).isMissing
  | _, .vector _, found => !found.any Json.isArray
  | _, @ParamType.map _ _ _ _ _ _, found => found.isNone
  | _, @ParamType.setMap _ _ _ _ _ _ _, found => found.isNone
  | _, .optional t, found => t.lacks found
  | _, .set _, found => !found.any Json.isObject

def ParameterSet.lacks : {ids : List String} → {α : Type} → ParameterSet w ids α → Json → Bool
  | _, _, .nil, _ => false
  | _, _, .param id mandatory t _ rest _, config =>
      (mandatory && t.lacks (t.seek config id)) || rest.lacks config
  | _, _, .object id mandatory params rest _, config =>
      (mandatory && (config.find id).all fun json => params.lacks json) || rest.lacks config

/-- The loop over a vector ends early at an element that is no array where one is needed. -/
def Element.aborts : {α : Type} → Element w α → Json → Bool
  | _, .special convert _ _, json => (convert json).isAbort
  | _, .vector _, json => !json.isArray
  | _, .plain _ _, _ => false
  | _, .enum _ _, _ => false
  | _, .set _, _ => false

def throwsAll (throws aborts : Json → Bool) : List Json → Bool
  | [] => false
  | json :: rest => throws json || (!aborts json && throwsAll throws aborts rest)

mutual

/-- Somewhere in the value of the parameter a conversion throws, and nothing catches it. -/
def ParamType.throws : {α : Type} → ParamType w α → Option Json → Bool
  | _, .special s _, found => (s.read found).isThrow
  | _, .vector e, found =>
      match found with
      | some (.array elements) => throwsAll (fun json => e.throws json) e.aborts elements
      | _ => false
  | _, @ParamType.map _ _ _ _ _ t, found =>
      found.any fun json => json.items.any fun item => (t.get item.2).isNone
  | _, @ParamType.setMap _ _ _ _ _ _ params, found =>
      found.any fun json => json.items.any fun item => params.throws item.2
  | _, .optional t, found => t.throws found
  | _, .set params, found =>
      match found with
      | some (.object fields) => !fields.isEmpty && params.throws (.object fields)
      | _ => false
  | _, .pod _, _ => false
  | _, .string, _ => false
  | _, .enum _ _, _ => false

def Element.throws : {α : Type} → Element w α → Json → Bool
  | _, .plain t _, json => (t.get json).isNone
  | _, .enum _ _, json => !json.isString
  | _, .special convert _ _, json => (convert json).isThrow
  | _, .vector e, json =>
      match json with
      | .array elements => throwsAll (fun json => e.throws json) e.aborts elements
      | _ => false
  | _, .set params, json => params.throws json

def ParameterSet.throws : {ids : List String} → {α : Type} → ParameterSet w ids α → Json → Bool
  | _, _, .nil, _ => false
  | _, _, .param id _ t _ rest _, config => t.throws (t.seek config id) || rest.throws config
  | _, _, .object id _ params rest _, config =>
      ((config.find id).any fun json => params.throws json) || rest.throws config

end

/-- Something is missing that no check of the set itself sees: a mandatory value the check takes
for present is not convertible, or a set below is not complete. -/
def ParameterSet.Overlooks : {ids : List String} → {α : Type} → ParameterSet w ids α → Json → Prop
  | _, _, .nil, _ => False
  | _, _, .param id mandatory t _ rest _, config =>
      (mandatory = true ∧ t.lacks (t.seek config id) = false ∧ ¬ t.Has (t.seek config id)) ∨
        ¬ t.Below (t.seek config id) ∨ rest.Overlooks config
  | _, _, .object id _ params rest _, config =>
      (∃ json, config.find id = some json ∧ ¬ params.Complete json) ∨ rest.Overlooks config

/-! ## The outcome -/

lemma mapM_eq_none {α β : Type} {f : α → Option β} {l : List α} :
    l.mapM f = none ↔ ∃ x ∈ l, f x = none := by
  induction l with
  | nil => simp
  | cons x l ih =>
      rw [List.mapM_cons]
      cases hx : f x <;> cases hl : l.mapM f <;> simp_all

lemma convertAll_eq_none {α : Type} {convert : Json → Converted α} {throws aborts : Json → Bool}
    (hthrows : ∀ json, convert json = .throws ↔ throws json = true)
    (haborts : ∀ json, convert json = .aborts ↔ aborts json = true) (l : List Json) :
    convertAll convert l = none ↔ throwsAll throws aborts l = true := by
  induction l with
  | nil => simp [convertAll, throwsAll]
  | cons json l ih =>
      have hthrow := hthrows json
      have habort := haborts json
      simp only [convertAll, throwsAll]
      split <;> simp_all

lemma configureEntries_eq_none {κ α : Type} [LinearOrder κ] {key : String → κ}
    {configure : Json → α → Option α} {default : α} {throws : Json → Bool}
    (h : ∀ json value, configure json value = none ↔ throws json = true)
    (items : List (String × Json)) (val : OrderedMap κ α) :
    configureEntries key configure default items val = none ↔
      (items.any fun item => throws item.2) = true := by
  induction items generalizing val with
  | nil => simp [configureEntries]
  | cons item items ih =>
      have hitem := h item.2
        (((val.insert (key item.1) default).lookup (key item.1)).getD default)
      rw [configureEntries, List.any_cons, Bool.or_eq_true, ← hitem]
      cases configure item.2 _ with
      | none => simp
      | some a => simp [ih]

lemma Element.convert_aborts {α : Type} (e : Element w α) (json : Json) :
    e.convert json = .aborts ↔ e.aborts json = true := by
  cases e with
  | plain t h => simp [Element.convert, Element.aborts]
  | enum e h => cases json <;> simp [Element.convert, Element.aborts]
  | special convert shaped h => exact Converted.eq_aborts
  | vector e => cases json <;> simp [Element.convert, Element.aborts, Json.isArray]
  | set params => simp [Element.convert, Element.aborts]

lemma Read.added_outcome {α : Type} (read : Read α) (value : α) (mandatory : Bool) :
    (read.added value mandatory).map Added.failed =
      if read.isThrow then none else some (mandatory && read.isMissing) := by
  cases read <;> simp [Read.added, Added.missing, Added.found, Read.isMissing, Read.isThrow]

lemma outcome_eq_none {α β : Type} {o : Option α} {f : α → β} {throws : Bool} {b : β}
    (h : o.map f = if throws then none else some b) : o = none ↔ throws = true := by
  cases throws <;> cases o <;> simp_all

/-- The outcome of a call that keeps nothing of the outcomes of those it makes. -/
lemma outcome_of_none {α β γ : Type} {o : Option α} {f : α → β} {g : β → γ} {throws : Bool} {c : γ}
    (hnone : o = none ↔ throws = true) (hsome : ∀ a, g (f a) = c) :
    (o.map f).map g = if throws then none else some c := by
  cases throws <;> cases o <;> simp_all

/-- The outcome of two calls in turn. -/
lemma outcome_bind {α β γ : Type} {o : Option α} {o' : Option β} {f : α → Bool} {f' : β → Bool}
    {throws throws' failed failed' : Bool} {g : α → β → γ × Bool}
    (h : o.map f = if throws then none else some failed)
    (h' : o'.map f' = if throws' then none else some failed')
    (hg : ∀ a b, (g a b).2 = (f a || f' b)) :
    (o.bind fun a => o'.map fun b => g a b).map Prod.snd =
      if throws || throws' then none else some (failed || failed') := by
  cases throws <;> cases throws' <;> cases o <;> cases o' <;> simp_all

lemma configureObject_outcome {α : Type} {configure : Json → α → Option (α × Bool)}
    {throws lacks : Json → Bool} (found : Option Json) (value : α) (mandatory : Bool)
    (h : ∀ json, (configure json value).map Prod.snd =
      if throws json then none else some (lacks json)) :
    (configureObject configure found value mandatory).map Prod.snd =
      if found.any throws then none else some (mandatory && found.all lacks) := by
  cases found with
  | none => simp [configureObject]
  | some json =>
      have hjson := h json
      cases hthrows : throws json <;> cases hconf : configure json value <;>
        simp_all [configureObject]

mutual

/-- **What a parameter does to its mapper**: it throws, or the check fails, or neither. -/
theorem ParamType.addSpecific_outcome : {α : Type} → (t : ParamType w α) → (found : Option Json) →
    (value : α) → (mandatory : Bool) → (t.addSpecific found value mandatory).map Added.failed =
      if t.throws found then none else some (mandatory && t.lacks found)
  | _, .pod p, found, value, mandatory => by
      simpa [ParamType.addSpecific, ParamType.throws, ParamType.lacks] using
        (p.read found).added_outcome value mandatory
  | _, .string, found, value, mandatory => by
      simpa [ParamType.addSpecific, ParamType.throws, ParamType.lacks] using
        (readString found).added_outcome value mandatory
  | _, .enum e _, found, value, mandatory => by
      simpa [ParamType.addSpecific, ParamType.throws, ParamType.lacks] using
        (e.read found).added_outcome value mandatory
  | _, .special s _, found, value, mandatory => (s.read found).added_outcome value mandatory
  | _, .vector e, found, value, mandatory => by
      have hnone := convertAll_eq_none e.convert_throws e.convert_aborts
      simp only [ParamType.addSpecific, ParamType.throws]
      cases found with
      | none => simp [ParamType.lacks, Added.missing]
      | some json =>
          cases json with
          | array elements =>
              exact outcome_of_none (hnone elements) (by simp [ParamType.lacks, Json.isArray])
          | _ => simp [ParamType.lacks, Added.missing, Json.isArray]
  | _, @ParamType.map _ _ _ _ key t, found, value, mandatory => by
      simp only [ParamType.addSpecific, ParamType.throws]
      cases found with
      | none => simp [ParamType.lacks, Added.missing]
      | some json =>
          refine outcome_of_none ?_ (by simp [ParamType.lacks, Added.found])
          simp [mapM_eq_none]
  | _, @ParamType.setMap _ _ _ _ _ key params, found, value, mandatory => by
      have ih := fun json value => outcome_eq_none (params.configure_outcome json value)
      simp only [ParamType.addSpecific, ParamType.throws]
      cases found with
      | none => simp [ParamType.lacks, Added.missing]
      | some json =>
          refine outcome_of_none ?_ (by simp [ParamType.lacks, Added.found])
          rw [Option.any_some]
          exact configureEntries_eq_none (by simpa using ih) json.items OrderedMap.empty
  | _, .optional t, found, value, mandatory => by
      have ih := t.addSpecific_outcome found t.default mandatory
      simp only [ParamType.addSpecific, ParamType.throws, ParamType.lacks, Option.map_map]
      exact ih
  | _, .set params, found, value, mandatory => by
      simp only [ParamType.addSpecific, ParamType.throws]
      cases found with
      | none => simp [ParamType.lacks, Added.missing]
      | some json =>
          cases json with
          | object fields =>
              have ih := outcome_eq_none (params.configure_outcome (.object fields) value)
              cases fields with
              | nil => simp [ParamType.lacks, Json.isObject]
              | cons field fields =>
                  refine outcome_of_none ?_ fun _ => ?_
                  · simpa using ih
                  · simp [ParamType.lacks, Json.isObject]
          | _ => simp [ParamType.lacks, Added.missing, Json.isObject]

theorem Element.convert_throws : {α : Type} → (e : Element w α) → (json : Json) →
    (e.convert json = .throws ↔ e.throws json = true)
  | _, .plain t _, json => by simp [Element.convert, Element.throws]
  | _, .enum e _, json => by
      simp only [Element.convert, Element.throws]
      cases json <;> simp [Json.isString]
  | _, .special convert _ _, json => Converted.eq_throws
  | _, .vector e, json => by
      have hnone := convertAll_eq_none e.convert_throws e.convert_aborts
      simp only [Element.convert, Element.throws]
      cases json with
      | array elements => simpa using hnone elements
      | _ => simp
  | _, .set params, json => by
      have ih := outcome_eq_none (params.configure_outcome json params.default)
      simpa [Element.convert, Element.throws] using ih

/-- **What a set does to its mapper.** -/
theorem ParameterSet.configure_outcome : {ids : List String} → {α : Type} →
    (params : ParameterSet w ids α) → (config : Json) → (value : α) →
    (params.configure config value).map Prod.snd =
      if params.throws config then none else some (params.lacks config)
  | _, _, .nil, config, value => by
      simp [ParameterSet.configure, ParameterSet.throws, ParameterSet.lacks]
  | _, _, .param id mandatory t _ rest _, config, value => by
      have ht := t.addSpecific_outcome (t.seek config id) value.1 mandatory
      have hrest := rest.configure_outcome config value.2
      simp only [ParameterSet.configure, ParameterSet.throws, ParameterSet.lacks]
      exact outcome_bind ht hrest fun _ _ => rfl
  | _, _, .object id mandatory params rest _, config, value => by
      have ih := fun json => params.configure_outcome json value.1
      have hrest := rest.configure_outcome config value.2
      have hobject := configureObject_outcome (config.find id) value.1 mandatory ih
      simp only [ParameterSet.configure, ParameterSet.throws, ParameterSet.lacks]
      exact outcome_bind hobject hrest fun _ _ => rfl

end

/-! ## What the checks are worth -/

/-- What is there passes its own check. -/
lemma ParamType.lacks_of_has : {α : Type} → (t : ParamType w α) → {found : Option Json} →
    t.Has found → t.lacks found = false
  | _, .pod p, found, h => by
      obtain ⟨a, ha⟩ := h
      simp [ParamType.lacks, ha, Read.isMissing]
  | _, .string, found, h => by
      obtain ⟨a, ha⟩ := h
      simp [ParamType.lacks, ha, Read.isMissing]
  | _, .enum e _, found, h => by
      obtain ⟨json, hjson, s, hs, _⟩ := h
      simp [ParamType.lacks, hjson, hs, EnumMap.read, Read.isMissing]
  | _, .special s _, found, h => by
      obtain ⟨a, ha⟩ := h
      simp [ParamType.lacks, ha, Read.isMissing]
  | _, .vector e, found, h => by
      obtain ⟨elements, hfound, _⟩ := h
      simp [ParamType.lacks, hfound, Json.isArray]
  | _, @ParamType.map _ _ _ _ key t, found, h => by
      obtain ⟨fields, hfound, _⟩ := h
      simp [ParamType.lacks, hfound]
  | _, @ParamType.setMap _ _ _ _ _ key params, found, h => by
      obtain ⟨fields, hfound⟩ := h
      simp [ParamType.lacks, hfound]
  | _, .optional t, found, h => t.lacks_of_has h
  | _, .set params, found, h => by
      obtain ⟨fields, hfound⟩ := h
      simp [ParamType.lacks, hfound, Json.isObject]

/-- Whatever is missing, the checks see it or overlook it. -/
theorem ParameterSet.complete_iff : {ids : List String} → {α : Type} →
    (params : ParameterSet w ids α) → (config : Json) →
    (params.Complete config ↔ params.lacks config = false ∧ ¬ params.Overlooks config)
  | _, _, .nil, config => by
      simp [ParameterSet.Complete, ParameterSet.lacks, ParameterSet.Overlooks]
  | _, _, .param id mandatory t _ rest _, config => by
      have hhas := @ParamType.lacks_of_has w _ t (t.seek config id)
      simp only [ParameterSet.Complete, ParameterSet.lacks, ParameterSet.Overlooks,
        rest.complete_iff config, Bool.or_eq_false_iff, Bool.and_eq_false_iff]
      cases mandatory <;> cases hlacks : t.lacks (t.seek config id) <;> simp_all <;> tauto
  | _, _, .object id mandatory params rest _, config => by
      have hparams := params.complete_iff
      simp only [ParameterSet.Complete, ParameterSet.lacks, ParameterSet.Overlooks,
        rest.complete_iff config, Bool.or_eq_false_iff, Bool.and_eq_false_iff]
      cases config.find id with
      | none => cases mandatory <;> simp
      | some json =>
          have hjson := hparams json
          cases mandatory <;> cases params.lacks json <;> simp_all <;> tauto

/-- **Mandatory parameters.**  `configure` reports exactly whether everything asked for is there,
if and only if its own checks fail, or nothing is overlooked unless an exception escapes. -/
theorem configure_enforces_iff {ids : List String} {α : Type} (set : ParameterSet w ids α)
    (config : Json) (params : α) :
    ((∃ params', ConfigurableObject.configure set config params = some (params', true)) ↔
      set.Complete config) ↔
    (set.lacks config = true ∨ (set.throws config = true ↔ set.Overlooks config)) := by
  have hreturns : (∃ params', ConfigurableObject.configure set config params = some (params', true)) ↔
      set.throws config = false ∧ set.lacks config = false := by
    have houtcome := set.configure_outcome config params
    unfold ConfigurableObject.configure
    cases hthrows : set.throws config <;> cases hlacks : set.lacks config <;>
      cases hconf : set.configure config params <;> simp_all
  rw [hreturns, set.complete_iff config]
  cases set.throws config <;> cases set.lacks config <;> simp

/-- A set with a mandatory number, nested in another set that may be absent. -/
def nestedSet : ParameterSet false ["p3"] ((BitVec 64 × Unit) × Unit) :=
  .param "p3" false (.set (.param "p1" true (.pod .uint64) 0 .nil (by simp))) (0, ()) .nil (by simp)

/-- The nested set is there and its number is not, and `configure` reports success. -/
theorem configure_misses_nested :
    ¬ ((∃ params', ConfigurableObject.configure nestedSet
        (.object [("p3", .object [("p2", .boolean true)])]) nestedSet.default =
          some (params', true)) ↔
      nestedSet.Complete (.object [("p3", .object [("p2", .boolean true)])])) := by
  have hreturns : ConfigurableObject.configure nestedSet
      (.object [("p3", .object [("p2", .boolean true)])]) nestedSet.default =
        some (((0, ()), ()), true) := rfl
  intro hiff
  obtain ⟨-, hbelow, -⟩ := hiff.mp ⟨_, hreturns⟩
  obtain ⟨hhas, -, -⟩ := hbelow [("p2", .boolean true)] rfl
  obtain ⟨a, ha⟩ := hhas rfl
  cases (show Read.missing = Read.value a from ha)

end CpsCore

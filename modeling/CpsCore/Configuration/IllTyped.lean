import Mathlib
import CpsCore.Configuration.Mandatory

/-!
# Ill-typed values

What `operator&` of a mapper does with a value that does not have the shape its parameter asks
for.  Some of the overloads look at the kind of the value before they do anything, one catches the
exception of the conversion, and the others find out in the middle or not at all.

* `MapperType.Shaped` — the shape a parameter asks for.
* `MapperType.Refuses` — what the checks of its overload see.
* `rejects_cleanly_iff` — an ill-typed value is rejected without side effects exactly if its
  overload refuses it.
-/

namespace CpsCore

/-! ## The mapper -/

structure PropertyMapper where
  p_ : Json
  mandatoryCheck_ : Bool := true

namespace PropertyMapper

variable {w : Bool} {α : Type}

def map (pm : PropertyMapper) : Bool := pm.mandatoryCheck_

/-- `operator&`: the mapper and the parameter afterwards, and the return value. -/
def operatorAnd (pm : PropertyMapper) (id : String) (mandatory : Bool) (t : ParamType w α)
    (value : α) : Option (PropertyMapper × α × Bool) :=
  (t.addSpecific (t.seek pm.p_ id) value mandatory).map fun a =>
    ({ pm with mandatoryCheck_ := pm.mandatoryCheck_ && !a.failed }, a.value, a.returned)

/-- Nothing is thrown, `false` is returned, the value stays, and `map()` turns to `false` exactly
for a mandatory parameter. -/
def RejectsCleanly (pm : PropertyMapper) (id : String) (mandatory : Bool) (t : ParamType w α)
    (value : α) : Prop :=
  ∃ pm', pm.operatorAnd id mandatory t value = some (pm', value, false) ∧
    (pm'.map = false ↔ mandatory = true)

lemma rejectsCleanly_iff {pm : PropertyMapper} (hmap : pm.map = true) (id : String)
    (mandatory : Bool) (t : ParamType w α) (value : α) :
    pm.RejectsCleanly id mandatory t value ↔
      t.addSpecific (t.seek pm.p_ id) value mandatory = some (.missing value mandatory) := by
  have hcheck : pm.mandatoryCheck_ = true := hmap
  rw [RejectsCleanly, operatorAnd]
  cases t.addSpecific (t.seek pm.p_ id) value mandatory with
  | none => simp
  | some a =>
      obtain ⟨v, returned, failed⟩ := a
      rw [Option.map_some, Option.some.injEq, Added.missing, Added.mk.injEq, hcheck]
      constructor
      · rintro ⟨pm', hpm', hflag⟩
        obtain ⟨rfl, rfl, rfl⟩ : _ = pm' ∧ v = value ∧ returned = false := by simpa using hpm'
        cases failed <;> cases mandatory <;> simp_all [map]
      · rintro ⟨rfl, rfl, rfl⟩
        exact ⟨_, rfl, by simp [map]⟩

end PropertyMapper

/-! ## Shapes -/

/-- The value has the kind the type is written as, at every depth. -/
def JsonType.Shaped {w : Bool} : {α : Type} → JsonType w α → Json → Prop
  | _, .pod p, json => p.shaped json = true
  | _, .string, json => json.isString = true
  | _, .enum e _, json => e.Knows json
  | _, .vector t, json => ∃ elements, json = .array elements ∧ ∀ x ∈ elements, t.Shaped x
  | _, .map t, json => ∃ fields, json = .object fields ∧ ∀ field ∈ fields, t.Shaped field.2
  | _, .optional t, json => json.isNull = true ∨ t.Shaped json

/-- The same for an element of a vector; a parameter set is an object. -/
def Element.Shaped {w : Bool} : {α : Type} → Element w α → Json → Prop
  | _, .plain t _, json => t.Shaped json
  | _, .enum e _, json => e.Knows json
  | _, .special _ shaped _, json => shaped json = true
  | _, .vector e, json => ∃ elements, json = .array elements ∧ ∀ x ∈ elements, e.Shaped x
  | _, .set _, json => json.isObject = true

/-- The types of parameters with an overload of their own; an `Optional` goes by that of its
type. -/
inductive MapperType : Type → Type 1
  | pod {α : Type} (p : JsonPod α) : MapperType α
  | string : MapperType String
  | enum {α : Type} (e : EnumMap α) : MapperType α
  | duration : MapperType ℤ
  | configuration : MapperType Json
  | eigen {α : Type} (scalar : JsonPod α) (size : Option ℕ) : MapperType (List α)
  | vector {α : Type} (e : Element false α) : MapperType (List α)
  | map {κ α : Type} [LinearOrder κ] (key : MapKey false κ) (t : JsonType false α) :
      MapperType (OrderedMap κ α)
  | setMap {ids : List String} {κ α : Type} [LinearOrder κ] (key : MapKey false κ)
      (params : ParameterSet false ids α) : MapperType (OrderedMap κ α)
  | set {ids : List String} {α : Type} (params : ParameterSet false ids α) : MapperType α

namespace MapperType

def type : {α : Type} → MapperType α → ParamType false α
  | _, .pod p => .pod p
  | _, .string => .string
  | _, .enum e => .enum e (by simp)
  | _, .duration => .special .duration rfl
  | _, .configuration => .special .configuration rfl
  | _, .eigen scalar size => .special (.eigen scalar size) rfl
  | _, .vector e => .vector e
  | _, @map _ _ _ key t => .map key t
  | _, @setMap _ _ _ _ key params => .setMap key params
  | _, .set params => .set params

/-- The value has the kind, the elements, the length and the names the parameter asks for. -/
def Shaped : {α : Type} → MapperType α → Json → Prop
  | _, .pod p, json => p.shaped json = true
  | _, .string, json => json.isString = true
  | _, .enum e, json => e.Knows json
  | _, .duration, json => json.isInteger = true
  | _, .configuration, json => json.isObject = true
  | _, .eigen scalar size, json => ∃ elements, json = .array elements ∧
      (∀ x ∈ elements, scalar.shaped x = true) ∧ ∀ n, size = some n → elements.length = n
  | _, .vector e, json => ∃ elements, json = .array elements ∧ ∀ x ∈ elements, e.Shaped x
  | _, @map _ _ _ key t, json => ∃ fields, json = .object fields ∧
      ∀ field ∈ fields, key.Knows field.1 ∧ t.Shaped field.2
  | _, @setMap _ _ _ _ key _, json => ∃ fields, json = .object fields ∧
      ∀ field ∈ fields, key.Knows field.1 ∧ field.2.isObject = true
  | _, .set _, json => json.isObject = true

/-- The vector ends at an element that is no array where one is needed, and those before it are
what the parameter holds already. -/
def BreaksOff {α : Type} (e : Element false α) (json : Json) (value : List α) : Prop :=
  ∃ before x after, json = .array (before ++ x :: after) ∧ e.aborts x = true ∧
    List.Forall₂ (fun y a => e.convert y = .value a) before value

/-- What the overload of a parameter makes of an ill-typed value without any trace.  Plain old data
takes whatever the library converts.  The last case of a vector is one by chance: it has been
cleared and filled again. -/
def Refuses : {α : Type} → MapperType α → Bool → Json → α → Prop
  | _, .pod p, _, json, _ => json.isNull = true ∨ p.get json = none
  | _, .string, _, _, _ => True
  | _, .enum _, _, json, _ => json.isString = false
  | _, .duration, _, _, _ => False
  | _, .configuration, _, _, _ => True
  | _, .eigen scalar size, _, json, _ => ∀ elements, json = .array elements →
      (∀ x ∈ elements, (scalar.get x).isSome = true) ∧ ∃ n, size = some n ∧ elements.length ≠ n
  | _, .vector e, mandatory, json, value =>
      json.isArray = false ∨ (mandatory = false ∧ BreaksOff e json value)
  | _, @map _ _ _ _ _, _, _, _ => False
  | _, @setMap _ _ _ _ _ _, _, _, _ => False
  | _, .set _, _, _, _ => True

end MapperType

/-! ## What the overloads do -/

/-- The loop of `addVector` returns `false` where it meets the first such element, and keeps what
it has converted before. -/
lemma convertAll_eq_some_false {α : Type} {convert : Json → Converted α} {vals : List α}
    {elements : List Json} :
    convertAll convert elements = some (vals, false) ↔
      ∃ before x after, elements = before ++ x :: after ∧ convert x = .aborts ∧
        List.Forall₂ (fun y a => convert y = .value a) before vals := by
  induction elements generalizing vals with
  | nil => simp [convertAll]
  | cons json elements ih =>
      have hsplit : (∃ before x after, json :: elements = before ++ x :: after ∧
            convert x = .aborts ∧ List.Forall₂ (fun y a => convert y = .value a) before vals) ↔
          (convert json = .aborts ∧ vals = []) ∨
            ∃ a vals', convert json = .value a ∧ vals = a :: vals' ∧
              ∃ before x after, elements = before ++ x :: after ∧ convert x = .aborts ∧
                List.Forall₂ (fun y a => convert y = .value a) before vals' := by
        constructor
        · rintro ⟨before, x, after, heq, hx, hall⟩
          cases hall with
          | nil =>
              obtain ⟨rfl, rfl⟩ := List.cons.inj heq
              exact Or.inl ⟨hx, rfl⟩
          | cons hy hall =>
              obtain ⟨rfl, rfl⟩ := List.cons.inj heq
              exact Or.inr ⟨_, _, hy, rfl, _, x, after, rfl, hx, hall⟩
        · rintro (⟨hx, rfl⟩ | ⟨a, vals', ha, rfl, before, x, after, rfl, hx, hall⟩)
          · exact ⟨[], json, elements, rfl, hx, .nil⟩
          · exact ⟨json :: before, x, after, rfl, hx, .cons ha hall⟩
      rw [hsplit, convertAll]
      cases hjson : convert json with
      | value a =>
          simp only [reduceCtorEq, false_and, false_or, Converted.value.injEq, ← ih]
          cases convertAll convert elements with
          | none => simp
          | some r =>
              obtain ⟨vals', returned⟩ := r
              simp [eq_comm]
      | aborts => simp [eq_comm]
      | throws => simp

lemma length_of_mapM_eq_some {α β : Type} {f : α → Option β} {l : List α} {l' : List β}
    (h : l.mapM f = some l') : l'.length = l.length := by
  induction l generalizing l' with
  | nil =>
      obtain rfl : [] = l' := by simpa using h
      rfl
  | cons x l ih =>
      rw [List.mapM_cons] at h
      cases hx : f x with
      | none => simp [hx] at h
      | some y =>
          cases hl : l.mapM f with
          | none => simp [hx, hl] at h
          | some ys =>
              obtain rfl : y :: ys = l' := by simpa [hx, hl] using h
              rw [List.length_cons, List.length_cons, ih hl]

/-- A type without a check either throws or returns `true`. -/
lemma found_ne_missing {α β : Type} (o : Option β) (f : β → α) (value : α) (mandatory : Bool) :
    (o.map fun b => Added.found (f b)) ≠ some (.missing value mandatory) := by
  cases o with
  | none => simp
  | some b => simp [Added.found, Added.missing]

lemma Read.added_eq_missing_iff {α : Type} (read : Read α) (value : α) (mandatory : Bool) :
    read.added value mandatory = some (.missing value mandatory) ↔ read.isMissing = true := by
  cases read <;> simp [Read.added, Added.found, Added.missing, Read.isMissing]

namespace MapperType

variable {α : Type}

lemma isMissing_eigen (scalar : JsonPod α) (size : Option ℕ) (json : Json) :
    ((Special.eigen scalar size).read (some json)).isMissing = true ↔
      ∀ elements, json = .array elements → (∀ x ∈ elements, (scalar.get x).isSome = true) ∧
        ∃ n, size = some n ∧ elements.length ≠ n := by
  cases json with
  | array elements =>
      have hsome : (∀ x ∈ elements, (scalar.get x).isSome = true) ↔
          elements.mapM scalar.get ≠ none := by
        rw [Ne, mapM_eq_none]
        simp [Option.isSome_iff_ne_none]
      simp only [Json.array.injEq, forall_eq', hsome]
      cases hvec : elements.mapM scalar.get with
      | none => simp [Special.eigen, hvec, Read.isMissing]
      | some vec =>
          have hlen := length_of_mapM_eq_some hvec
          cases size with
          | none => simp [Special.eigen, hvec, Read.isMissing]
          | some n =>
              by_cases hn : n = vec.length
              · simp [Special.eigen, hvec, Read.isMissing, hn, hlen]
              · simp [Special.eigen, hvec, Read.isMissing, hn, ← hlen, Ne.symm hn]
  | _ => simp [Special.eigen, Read.isMissing]

/-- **What is refused without a trace.**  Case by case over the overloads. -/
lemma addSpecific_iff (m : MapperType α) (mandatory : Bool) (value : α) (json : Json)
    (hill : ¬m.Shaped json) :
    m.type.addSpecific (some json) value mandatory = some (.missing value mandatory) ↔
      m.Refuses mandatory json value := by
  cases m with
  | pod p =>
      rw [type, ParamType.addSpecific, Read.added_eq_missing_iff, JsonPod.read, Refuses]
      cases json.isNull with
      | true => simp [Read.isMissing]
      | false => cases p.get json <;> simp [Read.isMissing]
  | string =>
      rw [type, ParamType.addSpecific, Read.added_eq_missing_iff]
      cases json with
      | string s => exact absurd rfl hill
      | _ => simp [readString, Read.isMissing, Refuses]
  | enum e =>
      rw [type, ParamType.addSpecific, Read.added_eq_missing_iff]
      cases json <;> simp [EnumMap.read, Read.isMissing, Refuses, Json.isString]
  | duration =>
      rw [type, ParamType.addSpecific, Read.added_eq_missing_iff]
      cases json <;> simp [Special.duration, Read.isMissing, Refuses]
  | configuration =>
      rw [type, ParamType.addSpecific, Read.added_eq_missing_iff]
      cases json with
      | object fields => exact absurd rfl hill
      | _ => simp [Special.configuration, Read.isMissing, Refuses]
  | eigen scalar size =>
      rw [type, ParamType.addSpecific, Read.added_eq_missing_iff]
      exact isMissing_eigen scalar size json
  | vector e =>
      rw [type, Refuses]
      cases json with
      | array elements =>
          rw [ParamType.addSpecific]
          have hoff : BreaksOff e (.array elements) value ↔
              convertAll (fun json => e.convert json) elements = some (value, false) := by
            simp only [convertAll_eq_some_false, BreaksOff, Json.array.injEq, e.convert_aborts]
          rw [hoff]
          cases convertAll (fun json => e.convert json) elements with
          | none => simp [Json.isArray]
          | some r =>
              obtain ⟨vals, returned⟩ := r
              cases mandatory <;> simp [Added.missing, Json.isArray, Prod.ext_iff]
      | _ => simp [Json.isArray, ParamType.addSpecific]
  | map key t =>
      simp only [type, ParamType.addSpecific, Refuses, iff_false]
      exact found_ne_missing _ _ _ _
  | setMap key params =>
      simp only [type, ParamType.addSpecific, Refuses, iff_false]
      exact found_ne_missing _ id _ _
  | set params =>
      rw [type]
      cases json with
      | object fields => exact absurd rfl hill
      | _ => simp [ParamType.addSpecific, Refuses]

end MapperType

/-- **When an ill-typed value is rejected without side effects.** -/
theorem rejects_cleanly_iff {α : Type} (m : MapperType α) (pm : PropertyMapper)
    (hmap : pm.map = true) (id : String) (mandatory : Bool) (value : α) (json : Json)
    (hfound : m.type.seek pm.p_ id = some json) (hill : ¬m.Shaped json) :
    pm.RejectsCleanly id mandatory m.type value ↔ m.Refuses mandatory json value := by
  rw [PropertyMapper.rejectsCleanly_iff hmap, hfound]
  exact m.addSpecific_iff mandatory value json hill

/-- A string where a vector should be. -/
theorem rejects_cleanly_string :
    PropertyMapper.RejectsCleanly ⟨.object [("gains", .string "high")], true⟩ "gains" true
      (MapperType.vector (.plain (.pod .int64) rfl)).type [1] := by
  have hill : ¬(MapperType.vector (.plain (.pod .int64) rfl)).Shaped (.string "high") := by
    rintro ⟨elements, helements, -⟩
    cases helements
  exact (rejects_cleanly_iff _ ⟨.object [("gains", .string "high")], true⟩ rfl "gains" true [1] _
    rfl hill).mpr (Or.inl rfl)

/-- An enumeration of two names. -/
def switchMap : EnumMap Bool := ⟨[(false, "off"), (true, "on")], (· ≠ 0), inferInstance⟩

/-- A duration that is a string, a vector of numbers with a string in it, a name that no value of the
enumeration has, and a boolean for an `int`: the first two throw, the third sets the value that
stands for 0, and the last one sets 1. -/
theorem ill_typed_not_rejected :
    (¬MapperType.duration.Shaped (.string "fast") ∧
      ¬PropertyMapper.RejectsCleanly ⟨.object [("period", .string "fast")], true⟩ "period" true
        MapperType.duration.type 7) ∧
    (¬(MapperType.vector (.plain (.pod .int64) rfl)).Shaped (.array [.number 2, .string "high"]) ∧
      ¬PropertyMapper.RejectsCleanly ⟨.object [("gains", .array [.number 2, .string "high"])], true⟩
        "gains" true (MapperType.vector (.plain (.pod .int64) rfl)).type [1]) ∧
    (¬(MapperType.enum switchMap).Shaped (.string "auto") ∧
      ¬PropertyMapper.RejectsCleanly ⟨.object [("light", .string "auto")], true⟩ "light" true
        (MapperType.enum switchMap).type true) ∧
    ¬(MapperType.pod .int).Shaped (.boolean true) ∧
      ¬PropertyMapper.RejectsCleanly ⟨.object [("count", .boolean true)], true⟩ "count" true
        (MapperType.pod .int).type 7 := by
  refine ⟨⟨?_, ?_⟩, ⟨?_, ?_⟩, ⟨?_, ?_⟩, ?_, ?_⟩
  · intro hshaped
    exact Bool.noConfusion hshaped
  · rintro ⟨pm', hthrows, -⟩
    exact Option.some_ne_none _ hthrows.symm
  · rintro ⟨elements, helements, hall⟩
    cases helements
    exact Bool.noConfusion (hall (.string "high") (by simp))
  · rintro ⟨pm', hthrows, -⟩
    exact Option.some_ne_none _ hthrows.symm
  · rintro ⟨s, hs, hmem⟩
    cases hs
    exact absurd hmem (by decide)
  · rintro ⟨pm', hset, -⟩
    have hvalue : some (_, false, true) = some (pm', true, false) := hset
    simp at hvalue
  · intro hshaped
    exact Bool.noConfusion hshaped
  · rintro ⟨pm', hset, -⟩
    have hvalue : some (_, (1 : BitVec 32), true) = some (pm', 7, false) := hset
    simp at hvalue

end CpsCore

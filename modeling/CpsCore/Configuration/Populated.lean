import Mathlib
import CpsCore.Configuration.PropertyMapper
import CpsCore.Configuration.JsonPopulator

/-!
# Mapping back what was populated

When does a mapper read from a document of the populator what the populator wrote?

* `JsonType.GetsBack`: `get<T>` undoes `writeValue`.
* `ParamType.Recovers t x y`: a parameter that holds `y` gets the value `x` from what `x` writes;
  `ParameterSet.Recovers` says so of all parameters.
* `ParameterSet.Misses`: the check of a mandatory parameter fails on what was written.

An empty container is written as null.  A vector does not take a null for an empty vector, but a
map takes it for an empty map, even where it was an unset optional.
-/

namespace CpsCore

/-! ## The types of the library -/

def JsonType.GetsBack : {α : Type} → JsonType true α → α → Prop
  | _, .pod _, _ => True
  | _, .string, _ => True
  | _, .enum _ _, _ => False
  | _, .vector t, value => value ≠ [] ∧ ∀ v ∈ value, t.GetsBack v
  | _, .map t, value => ∃ v, value.entries = [("key", v)] ∧ t.GetsBack v
  | _, .optional _, none => True
  | _, .optional t, some v => t.GetsBack v ∧ (t.writeValue v).isNull = false

lemma mapM_map_eq_some {α β : Type} {f : β → Option α} {g : α → β} {l : List α} :
    (l.map g).mapM f = some l ↔ ∀ x ∈ l, f (g x) = some x := by
  induction l with
  | nil => simp
  | cons x l ih =>
      rw [List.map_cons, List.mapM_cons]
      cases hx : f (g x) <;> cases hl : (l.map g).mapM f <;> simp_all

lemma OrderedMap.entries_ofList_singleton {κ α : Type} [LinearOrder κ] (k : κ) (a : α) :
    (OrderedMap.ofList [(k, a)]).entries = [(k, a)] :=
  OrderedMap.ofList_of_sorted (by simp)

/-- A map that is not empty comes back if it has the one entry under the name all entries share. -/
lemma map_comes_back {κ β : Type} [LinearOrder κ] {key : String → κ} {get : Json → Option β}
    {write : β → Json} {R : β → Prop} (hget : ∀ b, get (write b) = some b ↔ R b)
    {m : OrderedMap κ β} (hne : m.entries ≠ []) {fields : List (String × Json)}
    (hfields : writeMap (m.entries.map fun entry => write entry.2) = .object fields) :
    (fields.mapM fun field => (get field.2).map fun b => (key field.1, b)).map OrderedMap.ofList =
        some m ↔
      ∃ k b, m.entries = [(k, b)] ∧ key "key" = k ∧ R b := by
  obtain ⟨entries, ⟨k, b⟩, hentries⟩ := List.eq_nil_or_concat m.entries |>.resolve_left hne
  rw [List.concat_eq_append] at hentries
  rw [hentries, List.map_append, List.map_singleton, writeMap_append, Json.object.injEq] at hfields
  subst hfields
  have hlast : ∀ k' b', m.entries = [(k', b')] → b' = b := by
    intro k' b' h
    rw [hentries, List.append_eq_singleton_iff] at h
    rcases h with ⟨-, h⟩ | ⟨-, h⟩ <;> simp_all
  have hmap : ([("key", write b)].mapM fun field => (get field.2).map fun b => (key field.1, b)).map
      OrderedMap.ofList = (get (write b)).map fun b => OrderedMap.ofList [(key "key", b)] := by
    cases hb : get (write b) <;> simp [List.mapM_cons, hb]
  rw [hmap, Option.map_eq_some_iff]
  constructor
  · rintro ⟨c, hc, rfl⟩
    have hsingle := OrderedMap.entries_ofList_singleton (key "key") c
    obtain rfl := hlast _ _ hsingle
    exact ⟨_, c, hsingle, rfl, (hget c).mp hc⟩
  · rintro ⟨_, c, hsingle, rfl, hc⟩
    obtain rfl := hlast _ _ hsingle
    refine ⟨c, (hget c).mpr hc, ?_⟩
    rw [← hsingle, OrderedMap.ofList_entries]

lemma JsonType.get_optional {α : Type} (t : JsonType true α) (json : Json) :
    t.optional.get json = if json.isNull then some none else (t.get json).map some := by
  cases json <;> simp [JsonType.get, Json.isNull]

/-- **The types of the library**: `get<T>` undoes `writeValue` where `GetsBack` says so. -/
theorem JsonType.get_writeValue : {α : Type} → (t : JsonType true α) → (value : α) →
    (t.get (t.writeValue value) = some value ↔ t.GetsBack value)
  | _, .pod p, value => by simp [JsonType.writeValue, JsonType.get, JsonType.GetsBack, p.get_write]
  | _, .string, value => by simp [JsonType.writeValue, JsonType.get, JsonType.GetsBack]
  | _, .enum e _, value => by simp [JsonType.writeValue, JsonType.get, JsonType.GetsBack]
  | _, .vector t, value => by
      have ih := t.get_writeValue
      cases value with
      | nil => simp [JsonType.writeValue, JsonType.get, JsonType.GetsBack]
      | cons v vs =>
          have hall := @mapM_map_eq_some _ _ (fun json => t.get json) (fun v => t.writeValue v)
            (v :: vs)
          rw [List.map_cons] at hall
          simp only [JsonType.writeValue, List.map_cons, writeVector_cons, JsonType.get, hall,
            JsonType.GetsBack, ih]
          simp
  | _, .map t, value => by
      have ih := t.get_writeValue
      by_cases hne : value.entries = []
      · simp [JsonType.writeValue, JsonType.get, JsonType.GetsBack, hne]
      · obtain ⟨fields, hfields⟩ := writeMap_eq_object (fun v => t.writeValue v) hne
        have hback := @map_comes_back _ _ _ id _ _ _ ih value hne fields hfields
        simp only [JsonType.writeValue, JsonType.GetsBack, hfields, JsonType.get]
        simpa using hback
  | _, .optional t, none => by simp [JsonType.writeValue, JsonType.get, JsonType.GetsBack]
  | _, .optional t, some v => by
      have ih := t.get_writeValue v
      rw [JsonType.get_optional]
      simp only [JsonType.writeValue, JsonType.GetsBack]
      by_cases hnull : (t.writeValue v).isNull = true <;> simp [hnull, ih]

/-! ## Parameters -/

/-- A type whose mapping takes a null for a value. -/
def ParamType.takesNull : {α : Type} → ParamType true α → Bool
  | _, @ParamType.map _ _ _ _ _ _ => true
  | _, @ParamType.setMap _ _ _ _ _ _ _ => true
  | _, .optional t => t.takesNull
  | _, .pod _ => false
  | _, .string => false
  | _, .enum _ _ => false
  | _, .special _ _ => false
  | _, .vector _ => false
  | _, .set _ => false

/-- The value is written so that a mandatory check fails on it. -/
def ParamType.Misses : {α : Type} → ParamType true α → α → Prop
  | _, .vector _, value => value = []
  | _, .optional _, value => value = none
  | _, .set params, _ => params.isNil = true
  | _, .pod _, _ => False
  | _, .string, _ => False
  | _, .enum _ _, _ => False
  | _, .special _ _, _ => False
  | _, @ParamType.map _ _ _ _ _ _, _ => False
  | _, @ParamType.setMap _ _ _ _ _ _ _, _ => False

/-- The check of a mandatory parameter fails on what is written. -/
def ParameterSet.Misses : {ids : List String} → {α : Type} → ParameterSet true ids α → α → Prop
  | _, _, .nil, _ => False
  | _, _, .param _ mandatory t _ rest _, value =>
      (mandatory = true ∧ t.Misses value.1) ∨ rest.Misses value.2
  | _, _, .object _ _ _ _ h, _ => nomatch h

/-- The mapping of the written value returns true. -/
def ParamType.Taken : {α : Type} → ParamType true α → α → Prop
  | _, .vector _, value => value ≠ []
  | _, .optional _, value => value ≠ none
  | _, .set params, value => params.isNil = false ∧ ¬ params.Misses value
  | _, .pod _, _ => True
  | _, .string, _ => True
  | _, .enum _ _, _ => True
  | _, .special _ _, _ => True
  | _, @ParamType.map _ _ _ _ _ _, _ => True
  | _, @ParamType.setMap _ _ _ _ _ _ _, _ => True

mutual

/-- A parameter that holds `y` gets `x` from what `x` writes. -/
def ParamType.Recovers : {α : Type} → ParamType true α → (x y : α) → Prop
  | _, .pod _, _, _ => True
  | _, .string, _, _ => True
  | _, .enum _ _, _, _ => True
  | _, .special _ h, _, _ => nomatch h
  | _, .vector e, x, y => (x = [] → y = []) ∧ ∀ v ∈ x, e.Recovers v
  | _, @ParamType.map _ _ _ _ key t, x, _ =>
      x.entries = [] ∨ ∃ k v, x.entries = [(k, v)] ∧ key.convert "key" = k ∧ t.GetsBack v
  | _, @ParamType.setMap _ _ _ _ _ key params, x, _ =>
      x.entries = [] ∨ ∃ k v, x.entries = [(k, v)] ∧ key.convert "key" = k ∧
        params.Recovers v params.default
  | _, .optional t, none, _ => t.takesNull = false
  | _, .optional t, some v, _ => t.Recovers v t.default ∧ t.Taken v
  | _, .set params, x, y => params.Recovers x y

def Element.Recovers : {α : Type} → Element true α → α → Prop
  | _, .plain t _, x => t.GetsBack x
  | _, .enum _ _, _ => True
  | _, .special _ _ h, _ => nomatch h
  | _, .vector e, x => x ≠ [] ∧ ∀ v ∈ x, e.Recovers v
  | _, .set params, x => params.Recovers x params.default

/-- Each parameter of `y` gets the value it has in `x`. -/
def ParameterSet.Recovers : {ids : List String} → {α : Type} → ParameterSet true ids α → (x y : α) →
    Prop
  | _, _, .nil, _, _ => True
  | _, _, .param _ _ t _ rest _, x, y => t.Recovers x.1 y.1 ∧ rest.Recovers x.2 y.2
  | _, _, .object _ _ _ _ h, _, _ => nomatch h

end

/-- The outcome `o` of a mapping: it gives `x` where `recovers` holds, then with this return value
and this flag, and nothing or another value elsewhere. -/
def Gives {α : Type} (o : Option (Added α)) (x : α) (recovers returned failed : Prop) : Prop :=
  (recovers → ∃ r f, o = some ⟨x, r, f⟩ ∧ (r = true ↔ returned) ∧ (f = true ↔ failed)) ∧
    (¬ recovers → ∀ a, o = some a → a.value ≠ x)

lemma Gives.found {α : Type} {x : α} {recovers returned failed : Prop} (hrecovers : recovers)
    (hreturned : returned) (hfailed : ¬ failed) :
    Gives (some (.found x)) x recovers returned failed :=
  ⟨fun _ => ⟨true, false, rfl, by simp [hreturned], by simp [hfailed]⟩, fun h => absurd hrecovers h⟩

lemma Gives.value_iff {α : Type} {o : Option (Added α)} {x : α} {recovers returned failed : Prop}
    (h : Gives o x recovers returned failed) : (∃ a, o = some a ∧ a.value = x) ↔ recovers := by
  constructor
  · rintro ⟨a, ho, hvalue⟩
    by_contra hnot
    exact h.2 hnot a ho hvalue
  · intro hrecovers
    obtain ⟨r, f, ho, -⟩ := h.1 hrecovers
    exact ⟨_, ho, rfl⟩

/-- A value that is found becomes the value of the optional; one that is not leaves it unset. -/
lemma Gives.optional {α : Type} {o : Option (Added α)} {v : α}
    {recovers returned failed returned' failed' : Prop} (h : Gives o v recovers returned failed)
    (hfound : returned → ¬ failed) (hreturned' : returned') (hfailed' : ¬ failed') :
    Gives (o.map fun a => (⟨if a.returned then some a.value else none, a.returned, a.failed⟩ :
      Added (Option α))) (some v) (recovers ∧ returned) returned' failed' := by
  constructor
  · rintro ⟨hrecovers, hreturned⟩
    obtain ⟨r, f, ho, hr, hf⟩ := h.1 hrecovers
    obtain rfl := hr.mpr hreturned
    have hnot : ¬ f = true := fun hf' => hfound hreturned (hf.mp hf')
    exact ⟨true, f, by simp [ho], by simp [hreturned'], by simp [hnot, hfailed']⟩
  · intro hnot a ha heq
    obtain ⟨inner, ho, rfl⟩ := Option.map_eq_some_iff.mp ha
    -- the value is there, so the inner mapping has returned true, and with this value
    have hinner : inner.returned = true := by
      by_contra hfalse
      simp [hfalse] at heq
    have hvalue : inner.value = v := by simpa [hinner] using heq
    have hrecovers : recovers := h.value_iff.mp ⟨inner, ho, hvalue⟩
    obtain ⟨r, f, ho', hr, -⟩ := h.1 hrecovers
    obtain rfl := Option.some_inj.mp (ho.symm.trans ho')
    exact hnot ⟨hrecovers, hr.mp hinner⟩

/-- A null is missing to every type but a map, and no reason to throw. -/
lemma ParamType.addSpecific_null : {α : Type} → (t : ParamType true α) → (y : α) →
    (mandatory : Bool) → ∃ a, t.addSpecific (some .null) y mandatory = some a ∧
      a.returned = t.takesNull ∧ (t.takesNull = false → a.failed = mandatory)
  | _, .pod p, y, mandatory => by
      simp [ParamType.addSpecific, ParamType.takesNull, JsonPod.read, Json.isNull, Read.added,
        Added.missing]
  | _, .string, y, mandatory => by
      simp [ParamType.addSpecific, ParamType.takesNull, readString, Read.added, Added.missing]
  | _, .enum e _, y, mandatory => by
      simp [ParamType.addSpecific, ParamType.takesNull, EnumMap.read, Read.added, Added.missing]
  | _, .vector e, y, mandatory => by
      simp [ParamType.addSpecific, ParamType.takesNull, Added.missing]
  | _, @ParamType.map _ _ _ _ key t, y, mandatory => by
      simp [ParamType.addSpecific, ParamType.takesNull, Json.items, Added.found]
  | _, @ParamType.setMap _ _ _ _ _ key params, y, mandatory => by
      simp [ParamType.addSpecific, ParamType.takesNull, Json.items, configureEntries, Added.found]
  | _, .optional t, y, mandatory => by
      obtain ⟨a, ha, hreturned, hfailed⟩ := t.addSpecific_null t.default mandatory
      refine ⟨⟨if a.returned then some a.value else none, a.returned, a.failed⟩, ?_, hreturned,
        hfailed⟩
      simp [ParamType.addSpecific, ha]
  | _, .set params, y, mandatory => by
      simp [ParamType.addSpecific, ParamType.takesNull, Added.missing]

/-- A loop over written elements gives them all, or not the vector. -/
lemma convertAll_map {α : Type} {convert : Json → Converted α} {write : α → Json} {R : α → Prop}
    (h : ∀ v, convert (write v) = .value v ↔ R v) (xs : List α) :
    ((∀ v ∈ xs, R v) → convertAll convert (xs.map write) = some (xs, true)) ∧
      (∀ r, convertAll convert (xs.map write) = some r → r.1 = xs → ∀ v ∈ xs, R v) := by
  induction xs with
  | nil => simp [convertAll]
  | cons x xs ih =>
      obtain ⟨ihall, ihonly⟩ := ih
      rw [List.map_cons, List.forall_mem_cons]
      constructor
      · rintro ⟨hx, hxs⟩
        simp [convertAll, (h x).mpr hx, ihall hxs]
      · intro r hr heq
        simp only [convertAll] at hr
        split at hr
        case h_1 a ha =>
          obtain ⟨s, hs, rfl⟩ := Option.map_eq_some_iff.mp hr
          obtain ⟨rfl, hrest⟩ := List.cons_eq_cons.mp heq
          exact ⟨(h a).mp ha, ihonly s hs hrest⟩
        case h_2 =>
          obtain rfl := Option.some_inj.mp hr
          exact absurd heq (by simp)
        case h_3 => exact absurd hr (by simp)

/-- What the vector part of `writeValue` writes, read by the vector part of the mapper. -/
lemma gives_vector {α : Type} {o : Option (List α × Bool)} {xs : List α} {R : α → Prop}
    (hne : xs ≠ []) (hall : (∀ v ∈ xs, R v) → o = some (xs, true))
    (honly : ∀ r, o = some r → r.1 = xs → ∀ v ∈ xs, R v) (y : List α) {failed : Prop}
    (hfailed : ¬ failed) :
    Gives (o.map fun r => (⟨r.1, r.2, false⟩ : Added (List α))) xs
      ((xs = [] → y = []) ∧ ∀ v ∈ xs, R v) (xs ≠ []) failed := by
  constructor
  · rintro ⟨-, hxs⟩
    exact ⟨true, false, by simp [hall hxs], by simp [hne], by simp [hfailed]⟩
  · intro hnot a ha heq
    obtain ⟨r, hr, rfl⟩ := Option.map_eq_some_iff.mp ha
    exact hnot ⟨fun h => absurd h hne, honly r hr heq⟩

/-- The same for a map. -/
lemma gives_map {κ β : Type} [LinearOrder κ] {key : String → κ} {get : Json → Option β}
    {write : β → Json} {R : β → Prop} (hget : ∀ b, get (write b) = some b ↔ R b)
    (m : OrderedMap κ β) {failed : Prop} (hfailed : ¬ failed) :
    Gives (((writeMap (m.entries.map fun entry => write entry.2)).items.mapM fun item =>
        (get item.2).map fun b => (key item.1, b)).map fun entries =>
          Added.found (OrderedMap.ofList entries)) m
      (m.entries = [] ∨ ∃ k b, m.entries = [(k, b)] ∧ key "key" = k ∧ R b) True failed := by
  by_cases hne : m.entries = []
  · have hm : OrderedMap.ofList [] = m := by
      rw [← hne, OrderedMap.ofList_entries]
    have hnull : ((writeMap (m.entries.map fun entry => write entry.2)).items.mapM fun item =>
        (get item.2).map fun b => (key item.1, b)) = some [] := by
      simp [hne, Json.items]
    rw [hnull, Option.map_some, hm]
    exact Gives.found (Or.inl hne) trivial hfailed
  · obtain ⟨fields, hfields⟩ := writeMap_eq_object write hne
    have hback := @map_comes_back κ β _ key get write R hget m hne fields hfields
    rw [hfields]
    constructor
    · rintro (hnil | hsingle)
      · exact absurd hnil hne
      · obtain ⟨entries, hentries, rfl⟩ := Option.map_eq_some_iff.mp (hback.mpr hsingle)
        exact ⟨true, false, by simp [Json.items, hentries, Added.found], by simp, by simp [hfailed]⟩
    · intro hnot a ha heq
      obtain ⟨entries, hentries, rfl⟩ := Option.map_eq_some_iff.mp ha
      refine hnot (Or.inr (hback.mp ?_))
      rw [Option.map_eq_some_iff]
      exact ⟨entries, hentries, heq⟩

/-- On what is written for a map, at most one entry, the loop over parameter sets is as plain as the
one over other types. -/
lemma configureEntries_writeMap {κ α : Type} [LinearOrder κ] (key : String → κ)
    (configure : Json → α → Option α) (default : α) (values : List Json) :
    configureEntries key configure default (writeMap values).items OrderedMap.empty =
      ((writeMap values).items.mapM fun item =>
        (configure item.2 default).map fun a => (key item.1, a)).map OrderedMap.ofList := by
  rcases List.eq_nil_or_concat values with rfl | ⟨front, value, rfl⟩
  · simp [configureEntries, Json.items, OrderedMap.ofList]
  · rw [List.concat_eq_append, writeMap_append]
    simp only [Json.items, configureEntries, OrderedMap.lookup_empty_insert, Option.getD_some]
    cases hvalue : configure value default <;>
      simp [List.mapM_cons, hvalue, OrderedMap.update_empty_insert]

/-- The outcome of mapping a set: all its values and this flag, or not all its values. -/
def GivesSet {α : Type} (o : Option (α × Bool)) (x : α) (recovers missed : Prop) : Prop :=
  (recovers → ∃ failed, o = some (x, failed) ∧ (failed = true ↔ missed)) ∧
    (¬ recovers → ∀ r, o = some r → r.1 ≠ x)

lemma GivesSet.fst_iff {α : Type} {o : Option (α × Bool)} {x : α} {recovers missed : Prop}
    (h : GivesSet o x recovers missed) : o.map Prod.fst = some x ↔ recovers := by
  rw [Option.map_eq_some_iff]
  constructor
  · rintro ⟨r, hr, hx⟩
    by_contra hnot
    exact h.2 hnot r hr hx
  · intro hrecovers
    obtain ⟨failed, ho, -⟩ := h.1 hrecovers
    exact ⟨_, ho, rfl⟩

/-- A nested set returns what its own mapper returns. -/
lemma GivesSet.added {α : Type} {o : Option (α × Bool)} {x : α}
    {recovers missed returned failed : Prop} (h : GivesSet o x recovers missed)
    (hreturned : returned ↔ ¬ missed) (hfailed : ¬ failed) :
    Gives (o.map fun r => (⟨r.1, !r.2, false⟩ : Added α)) x recovers returned failed := by
  constructor
  · intro hrecovers
    obtain ⟨flag, ho, hflag⟩ := h.1 hrecovers
    exact ⟨!flag, false, by simp [ho], by simp [hreturned, ← hflag], by simp [hfailed]⟩
  · intro hnot a ha heq
    obtain ⟨r, hr, rfl⟩ := Option.map_eq_some_iff.mp ha
    exact h.2 hnot r hr heq

lemma Converted.ofOption_eq_value {α : Type} {o : Option α} {a : α} :
    Converted.ofOption o = .value a ↔ o = some a := by
  cases o <;> simp [Converted.ofOption]

/-! ## Sets -/

lemma ParameterSet.eq_of_isNil {ids : List String} {α : Type} {params : ParameterSet true ids α}
    (h : params.isNil = true) (x y : α) : params.Recovers x y ∧ y = x := by
  cases params with
  | nil => exact ⟨trivial, Subsingleton.elim y x⟩
  | param => simp [ParameterSet.isNil] at h
  | object => simp [ParameterSet.isNil] at h

/-- A set that has parameters is written as its fields, in either place. -/
lemma writeSet_populate {ids : List String} {α : Type} {params : ParameterSet true ids α}
    (h : params.isNil = false) (x : α) :
    ∃ field fields, params.populate x .null = .object (field :: fields) ∧
      writeSet (params.populate x .null) = .object (field :: fields) := by
  obtain ⟨field, fields, hfields⟩ := @ParameterSet.populate_eq_object _ _ params x .null (Or.inl h)
  exact ⟨field, fields, hfields, by simp [writeSet, hfields, Json.empty]⟩

lemma writeSet_holds {ids : List String} {α : Type} (params : ParameterSet true ids α) (x : α) :
    params.Holds x (writeSet (params.populate x .null)) := by
  cases hnil : params.isNil with
  | true =>
      cases params with
      | nil => trivial
      | param => simp [ParameterSet.isNil] at hnil
      | object => simp [ParameterSet.isNil] at hnil
  | false =>
      obtain ⟨field, fields, hparam, hset⟩ := writeSet_populate hnil x
      rw [hset, ← hparam]
      exact params.populate_holds x (Or.inl rfl)

/-- What a parameter writes gives what it gives inside of another type, except that the check sees
a set that has no parameters. -/
lemma ParamType.gives_parameter {α : Type} {t : ParamType true α} {x y : α} {mandatory : Bool}
    (h : Gives (t.addSpecific (some (t.write false x)) y mandatory) x (t.Recovers x y) (t.Taken x)
      (mandatory = true ∧ t.isSet = false ∧ t.Misses x)) :
    Gives (t.addSpecific (some (t.write true x)) y mandatory) x (t.Recovers x y) (t.Taken x)
      (mandatory = true ∧ t.Misses x) := by
  cases t with
  | set params =>
      cases hnil : params.isNil with
      | true =>
          obtain ⟨hrecovers, rfl⟩ := ParameterSet.eq_of_isNil hnil x y
          simp only [ParamType.write, if_true, ParameterSet.populate_nil hnil,
            ParamType.addSpecific, ParamType.Recovers, ParamType.Taken, ParamType.Misses]
          exact ⟨fun _ => ⟨false, mandatory, rfl, by simp [hnil], by simp [hnil]⟩,
            fun hnot => absurd hrecovers hnot⟩
      | false =>
          obtain ⟨field, fields, hparam, hset⟩ := writeSet_populate hnil x
          have hwrite : (ParamType.set params).write true x = (ParamType.set params).write false x := by
            simp only [ParamType.write, if_true, Bool.false_eq_true, if_false]
            rw [hset, hparam]
          rw [hwrite]
          simpa [ParamType.isSet, ParamType.Misses, hnil] using h
  | optional t => cases x <;> simpa [ParamType.write, ParamType.isSet] using h
  | special s hspecial => exact Bool.noConfusion hspecial
  | _ => simpa [ParamType.write, ParamType.isSet] using h

lemma ParamType.Taken.not_misses {α : Type} {t : ParamType true α} {x : α} (h : t.Taken x)
    (hset : t.isSet = false) : ¬ t.Misses x := by
  cases t <;> simp_all [ParamType.Taken, ParamType.Misses, ParamType.isSet]

/-! ## The round trip -/

mutual

/-- **A parameter and what it writes**: inside of another type, where a set goes through
`writeValue`. -/
theorem ParamType.gives_write : {α : Type} → (t : ParamType true α) → (x y : α) →
    (mandatory : Bool) → Gives (t.addSpecific (some (t.write false x)) y mandatory) x
      (t.Recovers x y) (t.Taken x) (mandatory = true ∧ t.isSet = false ∧ t.Misses x)
  | _, .pod p, x, y, mandatory => by
      have hread : p.read (some (p.write x)) = .value x := by
        simp [JsonPod.read, p.write_ne_null, p.get_write]
      simp only [ParamType.addSpecific, ParamType.write, hread, Read.added]
      exact Gives.found trivial trivial (by simp [ParamType.Misses])
  | _, .string, x, y, mandatory => by
      simp only [ParamType.addSpecific, ParamType.write, readString, Read.added]
      exact Gives.found trivial trivial (by simp [ParamType.Misses])
  | _, .enum e h, x, y, mandatory => by
      have hread : e.read (some (.string (e.name x))) = .value x := by
        simp [EnumMap.read, EnumMap.value_name (h rfl)]
      simp only [ParamType.addSpecific, ParamType.write, hread, Read.added]
      exact Gives.found trivial trivial (by simp [ParamType.Misses])
  | _, .vector e, x, y, mandatory => by
      have ih := e.convert_writeValue
      simp only [ParamType.addSpecific, ParamType.write, ParamType.Recovers, ParamType.Taken,
        ParamType.isSet, ParamType.Misses]
      cases x with
      | nil =>
          simp only [List.map_nil, writeVector_nil]
          constructor
          · rintro ⟨hy, -⟩
            exact ⟨false, mandatory, by simp [Added.missing, hy], by simp, by simp⟩
          · intro hnot a ha heq
            obtain rfl := Option.some_inj.mp ha
            exact hnot ⟨fun _ => heq, by simp⟩
      | cons v vs =>
          obtain ⟨hall, honly⟩ := convertAll_map ih (v :: vs)
          simp only [List.map_cons, writeVector_cons] at hall honly ⊢
          exact gives_vector (by simp) hall honly y (by simp)
  | _, @ParamType.map _ _ _ _ key t, x, y, mandatory => by
      have hmap := @gives_map _ _ _ key.convert _ _ _ t.get_writeValue x
        (mandatory = true ∧ False) (by simp)
      simpa [ParamType.addSpecific, ParamType.write, ParamType.Recovers, ParamType.Taken,
        ParamType.Misses] using hmap
  | _, @ParamType.setMap _ _ _ _ _ key params, x, y, mandatory => by
      have ih := fun v => (params.configure_holds v params.default (writeSet_holds params v)).fst_iff
      have hmap := @gives_map _ _ _ key.convert
        (fun json => (params.configure json params.default).map Prod.fst)
        (fun v => writeSet (params.populate v .null)) _ ih x (mandatory = true ∧ False) (by simp)
      simp only [ParamType.addSpecific, ParamType.write, configureEntries_writeMap]
      simpa [ParamType.Recovers, ParamType.Taken, ParamType.Misses, Option.map_map,
        Function.comp_def] using hmap
  | _, .optional t, none, y, mandatory => by
      obtain ⟨a, ha, hreturned, hfailed⟩ := t.addSpecific_null t.default mandatory
      simp only [ParamType.addSpecific, ParamType.write, ha, Option.map_some, ParamType.Recovers,
        ParamType.Taken, ParamType.isSet, ParamType.Misses]
      cases hnull : t.takesNull with
      | true => exact ⟨by simp, by simp [hreturned, hnull]⟩
      | false =>
          refine ⟨fun _ => ⟨false, mandatory, ?_, by simp, by simp⟩, by simp⟩
          simp [hreturned, hnull, hfailed hnull]
  | _, .optional t, some v, y, mandatory => by
      have ih := t.gives_write v t.default mandatory
      simp only [ParamType.addSpecific, ParamType.write, ParamType.Recovers, ParamType.isSet,
        ParamType.Misses]
      exact ih.optional (fun htaken h => htaken.not_misses h.2.1 h.2.2) (by simp [ParamType.Taken])
        (by simp)
  | _, .set params, x, y, mandatory => by
      have ih := params.configure_holds x y (writeSet_holds params x)
      simp only [ParamType.addSpecific, ParamType.write, ParamType.Recovers, ParamType.Taken,
        ParamType.isSet, ParamType.Misses, Bool.false_eq_true, if_false]
      cases hnil : params.isNil with
      | true =>
          obtain ⟨hrecovers, rfl⟩ := ParameterSet.eq_of_isNil hnil x y
          simp only [ParameterSet.populate_nil hnil, writeSet, Json.empty, if_true,
            List.isEmpty_nil]
          exact ⟨fun _ => ⟨false, false, rfl, by simp, by simp⟩, fun hnot => absurd hrecovers hnot⟩
      | false =>
          obtain ⟨field, fields, -, hset⟩ := writeSet_populate hnil x
          rw [hset] at ih ⊢
          simp only [List.isEmpty_cons, Bool.false_eq_true, if_false]
          exact ih.added (by simp) (by simp)

theorem Element.convert_writeValue : {α : Type} → (e : Element true α) → (x : α) →
    (e.convert (e.writeValue x) = .value x ↔ e.Recovers x)
  | _, .plain t _, x => by
      simp [Element.convert, Element.writeValue, Element.Recovers, Converted.ofOption_eq_value,
        t.get_writeValue]
  | _, .enum e h, x => by
      simp [Element.convert, Element.writeValue, Element.Recovers, EnumMap.value_name (h rfl)]
  | _, .vector e, x => by
      have ih := e.convert_writeValue
      cases x with
      | nil => simp [Element.convert, Element.writeValue, Element.Recovers]
      | cons v vs =>
          obtain ⟨hall, honly⟩ := convertAll_map ih (v :: vs)
          simp only [List.map_cons] at hall honly
          simp only [Element.convert, Element.writeValue, Element.Recovers, List.map_cons,
            writeVector_cons, Converted.ofOption_eq_value, Option.map_eq_some_iff]
          constructor
          · rintro ⟨r, hr, heq⟩
            exact ⟨by simp, honly r hr heq⟩
          · rintro ⟨-, hrecovers⟩
            exact ⟨_, hall hrecovers, rfl⟩
  | _, .set params, x => by
      have ih := (params.configure_holds x params.default (writeSet_holds params x)).fst_iff
      simpa [Element.convert, Element.writeValue, Element.Recovers, Converted.ofOption_eq_value]
        using ih

/-- **A set and what it writes**: on every configuration that has it. -/
theorem ParameterSet.configure_holds : {ids : List String} → {α : Type} →
    (params : ParameterSet true ids α) → (x y : α) → {config : Json} → params.Holds x config →
    GivesSet (params.configure config y) x (params.Recovers x y) (params.Misses x)
  | _, _, .nil, x, y, config, _ =>
      ⟨fun _ => ⟨false, rfl, by simp [ParameterSet.Misses]⟩, fun hnot => absurd trivial hnot⟩
  | _, _, .param id mandatory t _ rest h, x, y, config, hholds => by
      have ht := ParamType.gives_parameter (t.gives_write x.1 y.1 mandatory)
      have hrest := rest.configure_holds x.2 y.2 hholds.2
      have hseek : t.seek config id = some (t.write true x.1) := by
        simp [ParamType.seek, String.isEmpty_iff, (h rfl).1, hholds.1]
      simp only [ParameterSet.configure, ParameterSet.Recovers, ParameterSet.Misses, hseek]
      constructor
      · rintro ⟨hx, hxs⟩
        obtain ⟨r, f, ho, -, hf⟩ := ht.1 hx
        obtain ⟨f', ho', hf'⟩ := hrest.1 hxs
        exact ⟨f || f', by simp [ho, ho'], by simp [hf, hf']⟩
      · intro hnot r hr heq
        obtain ⟨a, ha, hr⟩ := Option.bind_eq_some_iff.mp hr
        obtain ⟨r', hr', rfl⟩ := Option.map_eq_some_iff.mp hr
        obtain ⟨hx, hxs⟩ := Prod.mk.inj heq
        refine hnot ⟨ht.value_iff.mp ⟨a, ha, hx⟩, hrest.fst_iff.mp ?_⟩
        rw [hr', Option.map_some, hxs]

end

def ParamType.Unset : {α : Type} → ParamType true α → α → Prop
  | _, .optional _, value => value = none
  | _, .pod _, _ => False
  | _, .string, _ => False
  | _, .enum _ _, _ => False
  | _, .special _ _, _ => False
  | _, .vector _, _ => False
  | _, @ParamType.map _ _ _ _ _ _, _ => False
  | _, @ParamType.setMap _ _ _ _ _ _ _, _ => False
  | _, .set _, _ => False

/-- No mandatory parameter is an unset optional. -/
def ParameterSet.AllSet : {ids : List String} → {α : Type} → ParameterSet true ids α → α → Prop
  | _, _, .nil, _ => True
  | _, _, .param _ mandatory t _ rest _, value =>
      (mandatory = true → ¬ t.Unset value.1) ∧ rest.AllSet value.2
  | _, _, .object _ _ _ _ h, _ => nomatch h

/-- **The mapper undoes the populator** for a value `x` and a target `y` if and only if all
parameters recover, and nothing that is set misses its check. -/
theorem populated_maps_back_iff {ids : List String} {α : Type} (params : ParameterSet true ids α)
    (x y : α) :
    (∃ failed, params.configure (params.populate x .null) y = some (x, failed) ∧
      (params.AllSet x → failed = false)) ↔
    params.Recovers x y ∧ (params.AllSet x → ¬ params.Misses x) := by
  have hgives := params.configure_holds x y (params.populate_holds x (Or.inl rfl))
  constructor
  · rintro ⟨failed, ho, hflag⟩
    have hrecovers : params.Recovers x y := hgives.fst_iff.mp (by rw [ho, Option.map_some])
    obtain ⟨failed', ho', hmisses⟩ := hgives.1 hrecovers
    obtain ⟨-, rfl⟩ := Prod.mk.inj (Option.some_inj.mp (ho.symm.trans ho'))
    refine ⟨hrecovers, fun hset hmiss => ?_⟩
    rw [hflag hset] at hmisses
    exact absurd (hmisses.mpr hmiss) (by simp)
  · rintro ⟨hrecovers, hflag⟩
    obtain ⟨failed, ho, hmisses⟩ := hgives.1 hrecovers
    refine ⟨failed, ho, fun hset => ?_⟩
    exact Bool.eq_false_iff.mpr fun h => hflag hset (hmisses.mp h)

/-- A set with one map. -/
def mapSet : ParameterSet true ["missions"] (OrderedMap String Bool × Unit) :=
  .param "missions" false (.map .string (.pod .bool)) OrderedMap.empty .nil (by simp)

/-- The map `a ↦ true` comes back as `key ↦ true`. -/
theorem populated_map_lost : ¬ ∃ failed,
    mapSet.configure (mapSet.populate (OrderedMap.ofList [("a", true)], ()) .null) mapSet.default =
      some ((OrderedMap.ofList [("a", true)], ()), failed) ∧
      (mapSet.AllSet (OrderedMap.ofList [("a", true)], ()) → failed = false) := by
  rintro ⟨failed, hmapped, -⟩
  have hkey : mapSet.configure (mapSet.populate (OrderedMap.ofList [("a", true)], ()) .null)
      mapSet.default = some ((OrderedMap.ofList [("key", true)], ()), false) := rfl
  rw [hkey, Option.some_inj, Prod.mk.injEq, Prod.mk.injEq] at hmapped
  have hentries := congrArg OrderedMap.entries hmapped.1.1
  simp [OrderedMap.entries_ofList_singleton] at hentries

end CpsCore

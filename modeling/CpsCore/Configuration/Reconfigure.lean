import Mathlib
import CpsCore.Configuration.Mandatory

/-!
# Configuring again

What the parameters of a set held before `configure`, and what of it is left afterwards.  A mapper
either sets a parameter, whatever it was, or leaves it alone (`SetsOrKeeps`).  A nested set is the
one exception: it is updated in place, so that the same is said of each of its parameters.

* `ParameterSet.Forgets` — what two runs over one configuration have in common.
* `configure_forgets_past` — two runs from any two instances do, and a second run changes nothing.
-/

namespace CpsCore

variable {w : Bool}

/-! ## What two runs have in common -/

/-- A parameter that is read from its key: the same after both runs if the key is there and
converts, and as it was if there is no such key. -/
def Keyed {α : Type} (has : Prop) (found : Option Json) (x y x' y' : α) : Prop :=
  (has → x' = y') ∧ (found = none → x' = x ∧ y' = y)

mutual

/-- The parameter held `x` and `y` before the two runs, and holds `x'` and `y'` after them.  An
optional is the same in any case.  A set is reached if its key holds an object that is not empty;
the mapper passes over any other. -/
def ParamType.Forgets : {α : Type} → ParamType w α → Option Json → (x y x' y' : α) → Prop
  | _, .set params, found, x, y, x', y' =>
      match found with
      | some (.object fields) =>
          if fields.isEmpty then x' = x ∧ y' = y else params.Forgets (.object fields) x y x' y'
      | _ => x' = x ∧ y' = y
  | _, .optional _, _, _, _, x', y' => x' = y'
  | _, t@(.pod _), found, x, y, x', y' => Keyed (t.Has found) found x y x' y'
  | _, t@(.string), found, x, y, x', y' => Keyed (t.Has found) found x y x' y'
  | _, t@(.enum _ _), found, x, y, x', y' => Keyed (t.Has found) found x y x' y'
  | _, t@(.special _ _), found, x, y, x', y' => Keyed (t.Has found) found x y x' y'
  | _, t@(.vector _), found, x, y, x', y' => Keyed (t.Has found) found x y x' y'
  | _, t@(@ParamType.map _ _ _ _ _ _), found, x, y, x', y' => Keyed (t.Has found) found x y x' y'
  | _, t@(@ParamType.setMap _ _ _ _ _ _ _), found, x, y, x', y' =>
      Keyed (t.Has found) found x y x' y'

/-- All parameters of the set do. -/
def ParameterSet.Forgets : {ids : List String} → {α : Type} → ParameterSet w ids α → Json →
    (x y x' y' : α) → Prop
  | _, _, .nil, _, _, _, _, _ => True
  | _, _, .param id _ t _ rest _, config, x, y, x', y' =>
      t.Forgets (t.seek config id) x.1 y.1 x'.1 y'.1 ∧ rest.Forgets config x.2 y.2 x'.2 y'.2
  | _, _, .object id _ params rest _, config, x, y, x', y' =>
      (match config.find id with
        | some json => params.Forgets json x.1 y.1 x'.1 y'.1
        | none => x'.1 = x.1 ∧ y'.1 = y.1) ∧ rest.Forgets config x.2 y.2 x'.2 y'.2

end

/-! ## Setting and keeping -/

/-- What a call does to its parameter: it leaves it, or does the same to any. -/
def SetsOrKeeps {α : Type} (keeps : Bool) (add : α → Option (Added α)) : Prop :=
  if keeps then ∃ failed, ∀ value, add value = some (.missing value failed)
  else ∃ added, ∀ value, add value = added

namespace SetsOrKeeps

variable {α : Type} {keeps : Bool} {add : α → Option (Added α)} {x : α} {a : Added α}

/-- Two calls return the same, and leave the same if they set the parameter. -/
lemma two_runs (h : SetsOrKeeps keeps add) (hx : add x = some a) (y : α) :
    ∃ v, add y = some { a with value := v } ∧ (keeps = false → a.value = v) ∧
      (keeps = true → a.value = x ∧ v = y) := by
  cases keeps with
  | false =>
      obtain ⟨added, hadded⟩ : ∃ added, ∀ value, add value = added := h
      exact ⟨a.value, by rw [hadded y, ← hadded x, hx], fun _ => rfl, nofun⟩
  | true =>
      obtain ⟨failed, hmissing⟩ : ∃ failed, ∀ value, add value = some (.missing value failed) := h
      obtain rfl : Added.missing x failed = a := Option.some.inj ((hmissing x).symm.trans hx)
      exact ⟨y, hmissing y, nofun, fun _ => ⟨rfl, rfl⟩⟩

/-- A second call on what the first has left does nothing more. -/
lemma again (h : SetsOrKeeps keeps add) (hx : add x = some a) : add a.value = some a := by
  obtain ⟨v, hv, hset, hkept⟩ := h.two_runs hx a.value
  cases keeps with
  | false => rw [hv, ← hset rfl]
  | true => rw [hv, (hkept rfl).2]

end SetsOrKeeps

lemma Read.setsOrKeeps {α : Type} (read : Read α) (mandatory : Bool) :
    SetsOrKeeps read.isMissing fun value => read.added value mandatory := by
  cases read with
  | value a => exact ⟨some (.found a), fun _ => rfl⟩
  | missing => exact ⟨mandatory, fun _ => rfl⟩
  | throws => exact ⟨none, fun _ => rfl⟩

namespace ParamType

/-- The parameter is neither a set nor an optional. -/
def isKeyed : {α : Type} → ParamType w α → Bool
  | _, .set _ => false
  | _, .optional _ => false
  | _, .pod _ => true
  | _, .string => true
  | _, .enum _ _ => true
  | _, .special _ _ => true
  | _, .vector _ => true
  | _, @ParamType.map _ _ _ _ _ _ => true
  | _, @ParamType.setMap _ _ _ _ _ _ _ => true

variable {α : Type}

lemma setsOrKeeps (t : ParamType w α) (ht : t.isKeyed = true) (found : Option Json)
    (mandatory : Bool) :
    SetsOrKeeps (t.lacks found) fun value => t.addSpecific found value mandatory := by
  cases t with
  | pod p => simpa [lacks, addSpecific] using (p.read found).setsOrKeeps mandatory
  | string => simpa [lacks, addSpecific] using (readString found).setsOrKeeps mandatory
  | enum e h => simpa [lacks, addSpecific] using (e.read found).setsOrKeeps mandatory
  | special s h => simpa [lacks, addSpecific] using (s.read found).setsOrKeeps mandatory
  | vector e =>
      cases found with
      | none => exact ⟨mandatory, fun _ => by simp [addSpecific]⟩
      | some json =>
          cases json with
          | array elements =>
              exact ⟨(vector e).addSpecific (some (.array elements)) [] mandatory,
                fun _ => by simp only [addSpecific]⟩
          | _ => exact ⟨mandatory, fun _ => by simp [addSpecific]⟩
  | map key t =>
      cases found with
      | none => exact ⟨mandatory, fun _ => by simp [addSpecific]⟩
      | some json =>
          exact ⟨(map key t).addSpecific (some json) OrderedMap.empty mandatory,
            fun _ => by simp only [addSpecific]⟩
  | setMap key params =>
      cases found with
      | none => exact ⟨mandatory, fun _ => by simp [addSpecific]⟩
      | some json =>
          exact ⟨(setMap key params).addSpecific (some json) OrderedMap.empty mandatory,
            fun _ => by simp only [addSpecific]⟩
  | optional t => cases ht
  | set params => cases ht

/-- Nothing is read from a key that is not there. -/
lemma lacks_none (t : ParamType w α) : t.lacks none = true := by
  induction t using ParamType.rec (motive_2 := fun _ _ => True) (motive_3 := fun _ _ _ => True) with
  | special s h => simp [lacks, s.read_none, Read.isMissing]
  | optional t ih => simpa [lacks] using ih
  | _ => simp [lacks, JsonPod.read, readString, EnumMap.read, Read.isMissing]

lemma keyed_of_setsOrKeeps (t : ParamType w α) (ht : t.isKeyed = true) {found : Option Json}
    {mandatory : Bool} {x : α} {a : Added α} (h : t.addSpecific found x mandatory = some a)
    (y : α) : ∃ v, t.addSpecific found y mandatory = some { a with value := v } ∧
      Keyed (t.Has found) found x y a.value v := by
  obtain ⟨v, hv, hset, hkept⟩ := (t.setsOrKeeps ht found mandatory).two_runs h y
  refine ⟨v, hv, fun hhas => hset (t.lacks_of_has hhas), ?_⟩
  rintro rfl
  exact hkept t.lacks_none

end ParamType

/-- A set is passed over, or configured in place. -/
lemma ParameterSet.addSpecific_set {ids : List String} {α : Type} (params : ParameterSet w ids α)
    (found : Option Json) (mandatory : Bool) :
    ((∃ returned failed, ∀ value, (ParamType.set params).addSpecific found value mandatory =
        some ⟨value, returned, failed⟩) ∧
      ∀ x y x' y', (ParamType.set params).Forgets found x y x' y' ↔ x' = x ∧ y' = y) ∨
    ∃ fields, (∀ value, (ParamType.set params).addSpecific found value mandatory =
        (params.configure (.object fields) value).map fun r => ⟨r.1, !r.2, false⟩) ∧
      ∀ x y x' y', (ParamType.set params).Forgets found x y x' y' ↔
        params.Forgets (.object fields) x y x' y' := by
  cases found with
  | none =>
      exact Or.inl ⟨⟨false, mandatory, fun _ => by simp [ParamType.addSpecific, Added.missing]⟩,
        fun _ _ _ _ => by simp [ParamType.Forgets]⟩
  | some json =>
      cases json with
      | object fields =>
          simp only [ParamType.addSpecific, ParamType.Forgets]
          cases hempty : fields.isEmpty with
          | true => exact Or.inl ⟨⟨false, false, fun _ => rfl⟩, fun _ _ _ _ => Iff.rfl⟩
          | false => exact Or.inr ⟨fields, fun _ => by simp, fun _ _ _ _ => by simp⟩
      | _ =>
          exact Or.inl ⟨⟨false, mandatory, fun _ => by simp [ParamType.addSpecific, Added.missing]⟩,
            fun _ _ _ _ => by simp [ParamType.Forgets]⟩

/-! ## The runs -/

mutual

/-- **Two calls on one parameter.** -/
theorem ParamType.addSpecific_forgets : {α : Type} → (t : ParamType w α) → {found : Option Json} →
    {mandatory : Bool} → {x : α} → {a : Added α} → t.addSpecific found x mandatory = some a →
    (y : α) → ∃ v, t.addSpecific found y mandatory = some { a with value := v } ∧
      t.Forgets found x y a.value v
  | _, .pod p, _, _, _, _, h, y => (ParamType.pod p).keyed_of_setsOrKeeps rfl h y
  | _, .string, _, _, _, _, h, y => ParamType.string.keyed_of_setsOrKeeps rfl h y
  | _, .enum e he, _, _, _, _, h, y => (ParamType.enum e he).keyed_of_setsOrKeeps rfl h y
  | _, .special s hs, _, _, _, _, h, y => (ParamType.special s hs).keyed_of_setsOrKeeps rfl h y
  | _, .vector e, _, _, _, _, h, y => (ParamType.vector e).keyed_of_setsOrKeeps rfl h y
  | _, @ParamType.map _ _ _ _ key t, _, _, _, _, h, y =>
      (ParamType.map key t).keyed_of_setsOrKeeps rfl h y
  | _, @ParamType.setMap _ _ _ _ _ key params, _, _, _, _, h, y =>
      (ParamType.setMap key params).keyed_of_setsOrKeeps rfl h y
  | _, .optional t, found, mandatory, x, a, h, y => by
      rw [ParamType.addSpecific] at h
      exact ⟨a.value, by rw [ParamType.addSpecific, h], by simp [ParamType.Forgets]⟩
  | _, .set params, found, mandatory, x, a, h, y => by
      rcases params.addSpecific_set found mandatory with ⟨⟨returned, failed, hkeeps⟩, hforgets⟩ |
        ⟨fields, hconfigures, hforgets⟩
      · obtain rfl : Added.mk x returned failed = a := Option.some.inj ((hkeeps x).symm.trans h)
        exact ⟨y, hkeeps y, (hforgets x y x y).mpr ⟨rfl, rfl⟩⟩
      · rw [hconfigures] at h
        obtain ⟨r, hr, rfl⟩ := Option.map_eq_some_iff.mp h
        obtain ⟨v, hv, hset⟩ := params.configure_forgets hr y
        exact ⟨v, by rw [hconfigures, hv, Option.map_some], (hforgets x y r.1 v).mpr hset⟩

/-- **Two runs over one configuration.** -/
theorem ParameterSet.configure_forgets : {ids : List String} → {α : Type} →
    (params : ParameterSet w ids α) → {config : Json} → {x : α} → {r : α × Bool} →
    params.configure config x = some r → (y : α) →
    ∃ y', params.configure config y = some (y', r.2) ∧ params.Forgets config x y r.1 y'
  | _, _, .nil, config, x, r, h, y => by
      obtain rfl : ((), false) = r := by simpa [ParameterSet.configure] using h
      exact ⟨(), by simp [ParameterSet.configure], by simp [ParameterSet.Forgets]⟩
  | _, _, .param id mandatory t _ rest _, config, x, r, h, y => by
      rw [ParameterSet.configure] at h
      obtain ⟨a, ha, h⟩ := Option.bind_eq_some_iff.mp h
      obtain ⟨s, hs, rfl⟩ := Option.map_eq_some_iff.mp h
      obtain ⟨v, hv, hparam⟩ := t.addSpecific_forgets ha y.1
      obtain ⟨v', hv', hrest⟩ := rest.configure_forgets hs y.2
      exact ⟨(v, v'), by simp [ParameterSet.configure, hv, hv'], hparam, hrest⟩
  | _, _, .object id mandatory params rest _, config, x, r, h, y => by
      rw [ParameterSet.configure] at h
      obtain ⟨a, ha, h⟩ := Option.bind_eq_some_iff.mp h
      obtain ⟨s, hs, rfl⟩ := Option.map_eq_some_iff.mp h
      obtain ⟨v', hv', hrest⟩ := rest.configure_forgets hs y.2
      simp only [ParameterSet.configure, ParameterSet.Forgets]
      cases hfind : config.find id with
      | none =>
          obtain rfl : (x.1, mandatory) = a := by simpa [configureObject, hfind] using ha
          exact ⟨(y.1, v'), by simp [configureObject, hv'], ⟨rfl, rfl⟩, hrest⟩
      | some json =>
          rw [hfind, configureObject] at ha
          obtain ⟨r', hr', rfl⟩ := Option.map_eq_some_iff.mp ha
          obtain ⟨v, hv, hobject⟩ := params.configure_forgets hr' y.1
          exact ⟨(v, v'), by simp [configureObject, hv, hv'], hobject, hrest⟩

end

mutual

/-- **A second call on one parameter.** -/
theorem ParamType.addSpecific_again : {α : Type} → (t : ParamType w α) → {found : Option Json} →
    {mandatory : Bool} → {x : α} → {a : Added α} → t.addSpecific found x mandatory = some a →
    t.addSpecific found a.value mandatory = some a
  | _, .pod p, found, mandatory, _, _, h =>
      ((ParamType.pod p).setsOrKeeps rfl found mandatory).again h
  | _, .string, found, mandatory, _, _, h =>
      (ParamType.string.setsOrKeeps rfl found mandatory).again h
  | _, .enum e he, found, mandatory, _, _, h =>
      ((ParamType.enum e he).setsOrKeeps rfl found mandatory).again h
  | _, .special s hs, found, mandatory, _, _, h =>
      ((ParamType.special s hs).setsOrKeeps rfl found mandatory).again h
  | _, .vector e, found, mandatory, _, _, h =>
      ((ParamType.vector e).setsOrKeeps rfl found mandatory).again h
  | _, @ParamType.map _ _ _ _ key t, found, mandatory, _, _, h =>
      ((ParamType.map key t).setsOrKeeps rfl found mandatory).again h
  | _, @ParamType.setMap _ _ _ _ _ key params, found, mandatory, _, _, h =>
      ((ParamType.setMap key params).setsOrKeeps rfl found mandatory).again h
  | _, .optional t, found, mandatory, x, a, h => by
      rw [ParamType.addSpecific] at h ⊢
      exact h
  | _, .set params, found, mandatory, x, a, h => by
      rcases params.addSpecific_set found mandatory with ⟨⟨returned, failed, hkeeps⟩, -⟩ |
        ⟨fields, hconfigures, -⟩
      · obtain rfl : Added.mk x returned failed = a := Option.some.inj ((hkeeps x).symm.trans h)
        exact hkeeps x
      · rw [hconfigures] at h
        obtain ⟨r, hr, rfl⟩ := Option.map_eq_some_iff.mp h
        rw [hconfigures, params.configure_again hr, Option.map_some]

/-- **A second run.** -/
theorem ParameterSet.configure_again : {ids : List String} → {α : Type} →
    (params : ParameterSet w ids α) → {config : Json} → {x : α} → {r : α × Bool} →
    params.configure config x = some r → params.configure config r.1 = some r
  | _, _, .nil, config, x, r, h => h
  | _, _, .param id mandatory t _ rest _, config, x, r, h => by
      rw [ParameterSet.configure] at h
      obtain ⟨a, ha, h⟩ := Option.bind_eq_some_iff.mp h
      obtain ⟨s, hs, rfl⟩ := Option.map_eq_some_iff.mp h
      simp [ParameterSet.configure, t.addSpecific_again ha, rest.configure_again hs]
  | _, _, .object id mandatory params rest _, config, x, r, h => by
      rw [ParameterSet.configure] at h
      obtain ⟨a, ha, h⟩ := Option.bind_eq_some_iff.mp h
      obtain ⟨s, hs, rfl⟩ := Option.map_eq_some_iff.mp h
      have hrest := rest.configure_again hs
      rw [ParameterSet.configure]
      cases hfind : config.find id with
      | none =>
          obtain rfl : (x.1, mandatory) = a := by simpa [configureObject, hfind] using ha
          simp [configureObject, hrest]
      | some json =>
          rw [hfind, configureObject] at ha
          obtain ⟨r', hr', rfl⟩ := Option.map_eq_some_iff.mp ha
          simp [configureObject, params.configure_again hr', hrest]

end

/-- **Configuring forgets the past.**  Where `configure` returns on one instance it returns the same
on every other, the parameters afterwards are what `Forgets` says, and to configure a second time
changes nothing. -/
theorem configure_forgets_past {ids : List String} {α : Type} (set : ParameterSet w ids α)
    (config : Json) (x x' : α) (result : Bool)
    (h : ConfigurableObject.configure set config x = some (x', result)) (y : α) :
    (∃ y', ConfigurableObject.configure set config y = some (y', result) ∧
      set.Forgets config x y x' y') ∧
    ConfigurableObject.configure set config x' = some (x', result) := by
  obtain ⟨r, hr, heq⟩ := Option.map_eq_some_iff.mp h
  obtain ⟨rfl, rfl⟩ : r.1 = x' ∧ (!r.2) = result := by simpa using heq
  obtain ⟨y', hy', hforgets⟩ := set.configure_forgets hr y
  refine ⟨⟨y', ?_, hforgets⟩, ?_⟩
  · rw [ConfigurableObject.configure, hy', Option.map_some]
  · rw [ConfigurableObject.configure, set.configure_again hr, Option.map_some]

/-- A mandatory vector of numbers and an optional name. -/
def limitsSet : ParameterSet false ["limits", "name"] (List (BitVec 64) × Option String × Unit) :=
  .param "limits" true (.vector (.plain (.pod .int64) rfl)) []
    (.param "name" false (.optional .string) none .nil (by simp)) (by simp)

/-- Two limits and no name, over another limit and a name, and over none. -/
theorem configure_forgets_past_limits :
    (∃ y', ConfigurableObject.configure limitsSet
        (.object [("limits", .array [.number 1, .number 2])]) ([], none, ()) = some (y', true) ∧
      limitsSet.Forgets (.object [("limits", .array [.number 1, .number 2])])
        ([5], some "high", ()) ([], none, ()) ([1, 2], none, ()) y') ∧
    ConfigurableObject.configure limitsSet (.object [("limits", .array [.number 1, .number 2])])
      ([1, 2], none, ()) = some (([1, 2], none, ()), true) :=
  configure_forgets_past limitsSet (.object [("limits", .array [.number 1, .number 2])])
    ([5], some "high", ()) ([1, 2], none, ()) true rfl ([], none, ())

end CpsCore

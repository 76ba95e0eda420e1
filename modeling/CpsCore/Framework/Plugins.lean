import Mathlib
import CpsCore.Configuration.PropertyMapper
import CpsCore.Framework.Defaults

/-!
# Plugins

There is one `PluginHelper` in a process.  `createAggregation` of any helper has it load the
libraries its configuration names, and create the registered plugins the configuration has.  A
library registers its plugins when it is loaded; what has been registered stays.

* `PluginHelper.Step`: a process that registers plugins and creates aggregations.
* `First`: the class was the first one under its id.
* `plugins_created`: the plugins of an aggregation, in any such process.
-/

namespace CpsCore

variable {κ τ : Type}

/-! ## The helper -/

/-- A creator stands for the class it creates; the creators are in the order of their
registration. -/
structure PluginHelper (κ : Type) where
  params : List String × Unit := ([], ())
  pluginCreators_ : List κ := []

lemma isPlain_string {w : Bool} : (@JsonType.string w).isPlain = true := rfl

/-- `PluginHelperParams`. -/
def pluginHelperParams : ParameterSet true ["plugins"] (List String × Unit) :=
  .param "plugins" true (.vector (.plain .string isPlain_string)) [] .nil (by simp)

namespace PluginHelper

/-- What the helper gets from outside. -/
structure Host (κ : Type) where
  /-- What `register_plugin` of a library registers; there is nothing under a path where `dlopen` or
  `dlsym` fails. -/
  libraries : String → Option (List κ)
  /-- The order in which the `unordered_map` is gone through. -/
  iteration : List κ → List κ
  iteration_perm : ∀ types, (iteration types).Perm types

section

variable (F : Framework κ τ)

/-- `registerPluginImpl`. -/
def registerPlugin (helper : PluginHelper κ) (type : κ) : PluginHelper κ :=
  if helper.pluginCreators_.any fun other => F.typeId other = F.typeId type then helper
  else { helper with pluginCreators_ := helper.pluginCreators_ ++ [type] }

def addPlugin (host : Host κ) (helper : PluginHelper κ) (path : String) : PluginHelper κ :=
  match host.libraries path with
  | some types => types.foldl (registerPlugin F) helper
  | none => helper

def loadPlugins (host : Host κ) (helper : PluginHelper κ) : PluginHelper κ :=
  helper.params.1.foldl (addPlugin F host) helper

/-- `createPlugins`; the creators return what they have made, configured or not. -/
def createPlugins (host : Host κ) (helper : PluginHelper κ) (config : Json) :
    Option (List F.Instance) :=
  ((host.iteration helper.pluginCreators_).filterMap fun type =>
    (config.find (F.typeId type)).map (type, ·)).mapM fun it => F.makeConfigured it.1 it.2

end

end PluginHelper

/-- `createAggregation`, and what becomes of the plugin helper. -/
def Heap.createAggregationWithPlugins [DecidableEq κ] {F : Framework κ τ}
    (host : PluginHelper.Host κ) (helper : PluginHelper κ)
    (defaults types : List (HelperType κ)) (config : Json) (heap : Heap F) :
    Option (Aggregation F × PluginHelper κ) :=
  (heap.createAggregationWithDefaults defaults types config).bind fun agg =>
    match config.find "plugin_helper" with
    | none => some (agg, helper)
    | some it =>
        (ConfigurableObject.configure pluginHelperParams it helper.params).bind fun configured =>
          if configured.2 then
            let loaded := { helper with params := configured.1 }.loadPlugins F host
            (loaded.createPlugins F host config).map fun plugins =>
              (plugins.foldl Aggregation.add agg, loaded)
          else some (agg, { helper with params := configured.1 })

/-! ## What a configuration has loaded -/

/-- The libraries that a configuration names, where that is an array of strings. -/
def pluginPaths (config : Json) : Option (List String) :=
  match (config.find "plugin_helper").bind (·.find "plugins") with
  | some (.array elements) => elements.mapM fun element => (@JsonType.string true).get element
  | _ => none

/-- What these register. -/
def PluginHelper.registered (host : PluginHelper.Host κ) (config : Json) : List κ :=
  ((pluginPaths config).getD []).flatMap fun path => (host.libraries path).getD []

lemma convertAll_plain {α : Type} {w : Bool} {t : JsonType w α} {h : t.isPlain = true}
    (elements : List Json) :
    convertAll (fun json => (Element.plain t h).convert json) elements =
      (elements.mapM fun element => t.get element).map fun values => (values, true) := by
  induction elements with
  | nil => rfl
  | cons element elements ih =>
      simp only [Element.convert] at ih ⊢
      rw [convertAll, List.mapM_cons, ih]
      cases t.get element with
      | none => rfl
      | some value => cases elements.mapM fun element => t.get element <;> rfl

/-- `configure` of the plugin helper: without a list of paths it fails, and throws where something
else than a path is in the list. -/
lemma configure_pluginHelperParams (json : Json) (params : List String × Unit) :
    ConfigurableObject.configure pluginHelperParams json params =
      match json.find "plugins" with
      | some (.array elements) =>
          (elements.mapM fun element => (@JsonType.string true).get element).map fun paths =>
            ((paths, ()), true)
      | _ => some (params, false) := by
  have hseek : (ParamType.vector (.plain (@JsonType.string true) isPlain_string)).seek json
      "plugins" = json.find "plugins" := by
    simp [ParamType.seek]
  simp only [ConfigurableObject.configure, pluginHelperParams, ParameterSet.configure, hseek,
    ParamType.addSpecific]
  cases json.find "plugins" with
  | none => rfl
  | some found =>
      cases found with
      | array elements =>
          simp only [convertAll_plain]
          cases elements.mapM fun element => (@JsonType.string true).get element <;> rfl
      | _ => rfl

/-! ## First registrations -/

/-- Among those that have been registered, in this order, the class is the first with its id. -/
def First (F : Framework κ τ) (history : List κ) (type : κ) : Prop :=
  ∃ before after, history = before ++ type :: after ∧
    ∀ other ∈ before, F.typeId other ≠ F.typeId type

section

variable {F : Framework κ τ} {history : List κ} {type other : κ}

lemma exists_first (h : other ∈ history) :
    ∃ type, First F history type ∧ F.typeId type = F.typeId other := by
  induction history with
  | nil => exact absurd h List.not_mem_nil
  | cons head history ih =>
      by_cases hhead : F.typeId head = F.typeId other
      · exact ⟨head, ⟨[], history, rfl, by simp⟩, hhead⟩
      · have htail : other ∈ history :=
          (List.mem_cons.mp h).resolve_left fun heq => hhead (heq ▸ rfl)
        obtain ⟨type, ⟨before, after, rfl, hbefore⟩, htype⟩ := ih htail
        refine ⟨type, ⟨head :: before, after, rfl, ?_⟩, htype⟩
        rw [List.forall_mem_cons]
        exact ⟨fun heq => hhead (heq.trans htype), hbefore⟩

lemma First.mem (h : First F history type) : type ∈ history := by
  obtain ⟨before, after, rfl, -⟩ := h
  simp

/-- One more registration is a first one only if its id is new. -/
lemma first_snoc : First F (history ++ [other]) type ↔ First F history type ∨
    (type = other ∧ ∀ old ∈ history, F.typeId old ≠ F.typeId other) := by
  constructor
  · rintro ⟨before, after, hsplit, hbefore⟩
    rcases List.eq_nil_or_concat after with rfl | ⟨after, last, rfl⟩
    · obtain ⟨rfl, hsame⟩ := List.append_inj' hsplit rfl
      obtain rfl := List.singleton_inj.mp hsame
      exact Or.inr ⟨rfl, hbefore⟩
    · rw [List.concat_eq_append, ← List.cons_append, ← List.append_assoc] at hsplit
      obtain ⟨rfl, -⟩ := List.append_inj' hsplit rfl
      exact Or.inl ⟨before, after, rfl, hbefore⟩
  · rintro (⟨before, after, rfl, hbefore⟩ | ⟨rfl, hnew⟩)
    · exact ⟨before, after ++ [other], by simp, hbefore⟩
    · exact ⟨history, [], rfl, hnew⟩

end

namespace PluginHelper

/-- The creators are those of the first registrations. -/
structure Registers (F : Framework κ τ) (helper : PluginHelper κ) (history : List κ) : Prop where
  nodup : (helper.pluginCreators_.map F.typeId).Nodup
  mem_iff : ∀ type, type ∈ helper.pluginCreators_ ↔ First F history type

variable {F : Framework κ τ} {host : Host κ} {helper : PluginHelper κ} {history : List κ}

lemma registers_initial : Registers F {} [] :=
  ⟨List.nodup_nil, fun _ => iff_of_false List.not_mem_nil fun h => List.not_mem_nil h.mem⟩

lemma Registers.setParams (h : Registers F helper history) (params : List String × Unit) :
    Registers F { helper with params } history := ⟨h.nodup, h.mem_iff⟩

lemma Registers.registerPlugin (h : Registers F helper history) (type : κ) :
    Registers F (helper.registerPlugin F type) (history ++ [type]) := by
  unfold PluginHelper.registerPlugin
  split
  case isTrue hold =>
    obtain ⟨other, hother, hid⟩ := List.any_eq_true.mp hold
    refine ⟨h.nodup, fun cls => ?_⟩
    rw [h.mem_iff, first_snoc]
    refine (or_iff_left ?_).symm
    rintro ⟨-, hnew⟩
    exact hnew other ((h.mem_iff other).mp hother).mem (of_decide_eq_true hid)
  case isFalse hfresh =>
    have hnew : ∀ old ∈ history, F.typeId old ≠ F.typeId type := by
      intro old hold heq
      obtain ⟨first, hfirst, hid⟩ := exists_first (F := F) hold
      refine hfresh (List.any_eq_true.mpr ⟨first, (h.mem_iff first).mpr hfirst, ?_⟩)
      exact decide_eq_true (hid.trans heq)
    constructor
    case nodup =>
      rw [List.map_append, List.map_singleton]
      refine List.Nodup.append h.nodup (List.nodup_singleton _) ?_
      rw [List.disjoint_singleton, List.mem_map]
      rintro ⟨old, hold, hid⟩
      exact hnew old ((h.mem_iff old).mp hold).mem hid
    case mem_iff =>
      intro cls
      rw [List.mem_append, List.mem_singleton, h.mem_iff, first_snoc, and_iff_left hnew]

lemma Registers.foldl (h : Registers F helper history) (types : List κ) :
    Registers F (types.foldl (PluginHelper.registerPlugin F) helper) (history ++ types) := by
  induction types generalizing helper history with
  | nil => simpa using h
  | cons type types ih => simpa using ih (h.registerPlugin type)

lemma Registers.addPlugin (h : Registers F helper history) (path : String) :
    Registers F (helper.addPlugin F host path) (history ++ (host.libraries path).getD []) := by
  unfold PluginHelper.addPlugin
  cases host.libraries path with
  | none => simpa using h
  | some types => exact h.foldl types

/-- The libraries are loaded one after the other. -/
lemma Registers.loadPlugins (h : Registers F helper history) :
    Registers F (helper.loadPlugins F host)
      (history ++ helper.params.1.flatMap fun path => (host.libraries path).getD []) := by
  unfold PluginHelper.loadPlugins
  generalize helper.params.1 = paths
  induction paths generalizing helper history with
  | nil => simpa using h
  | cons path paths ih => simpa using ih (h.addPlugin path)

/-! ## What is created -/

lemma forall₂_of_mapM {α β : Type} {f : α → Option β} {l : List α} {l' : List β}
    (h : l.mapM f = some l') : List.Forall₂ (fun a b => f a = some b) l l' := by
  induction l generalizing l' with
  | nil =>
      obtain rfl : [] = l' := by simpa using h
      exact .nil
  | cons a l ih =>
      rw [List.mapM_cons] at h
      obtain ⟨b, hb, h⟩ := Option.bind_eq_some_iff.mp h
      obtain ⟨bs, hbs, h⟩ := Option.bind_eq_some_iff.mp h
      obtain rfl : b :: bs = l' := Option.some.inj h
      exact .cons hb (ih hbs)

variable {config : Json} {plugins : List F.Instance}

/-- The creators that have a configuration, with it. -/
def configured (F : Framework κ τ) (host : Host κ) (helper : PluginHelper κ) (config : Json) :
    List (κ × Json) :=
  (host.iteration helper.pluginCreators_).filterMap fun type =>
    (config.find (F.typeId type)).map (type, ·)

lemma mem_configured {type : κ} {params : Json} :
    (type, params) ∈ configured F host helper config ↔
      type ∈ helper.pluginCreators_ ∧ config.find (F.typeId type) = some params := by
  simp [configured, (host.iteration_perm _).mem_iff]

lemma configured_sublist :
    ((configured F host helper config).map fun pair => F.typeId pair.1).Sublist
      ((host.iteration helper.pluginCreators_).map F.typeId) := by
  unfold configured
  induction host.iteration helper.pluginCreators_ with
  | nil => exact .slnil
  | cons type types ih =>
      rw [List.filterMap_cons, List.map_cons]
      cases config.find (F.typeId type) with
      | none => exact ih.cons _
      | some params => exact ih.cons_cons _

/-- One plugin for each of the configurations. -/
abbrev Made (F : Framework κ τ) : List (κ × Json) → List F.Instance → Prop :=
  List.Forall₂ fun pair obj => F.makeConfigured pair.1 pair.2 = some obj

lemma Made.map_typeId {pairs : List (κ × Json)} (h : Made F pairs plugins) :
    (plugins.map fun obj => F.typeId obj.1) = pairs.map fun pair => F.typeId pair.1 := by
  induction h with
  | nil => rfl
  | cons hmake _ ih => rw [List.map_cons, List.map_cons, ih, F.fst_makeConfigured hmake]

lemma Made.mem_iff {pairs : List (κ × Json)} (h : Made F pairs plugins) (obj : F.Instance) :
    obj ∈ plugins ↔ ∃ pair ∈ pairs, F.makeConfigured pair.1 pair.2 = some obj := by
  induction h with
  | nil => simp
  | cons hmake _ ih =>
      rw [List.mem_cons, List.exists_mem_cons_iff, ih, hmake, Option.some_inj, eq_comm]

lemma made_createPlugins (h : helper.createPlugins F host config = some plugins) :
    Made F (configured F host helper config) plugins := forall₂_of_mapM h

lemma mem_createPlugins (h : helper.createPlugins F host config = some plugins) (obj : F.Instance) :
    obj ∈ plugins ↔ obj.1 ∈ helper.pluginCreators_ ∧
      ∃ params, config.find (F.typeId obj.1) = some params ∧
        F.makeConfigured obj.1 params = some obj := by
  rw [(made_createPlugins h).mem_iff]
  constructor
  · rintro ⟨⟨type, params⟩, hpair, hmake⟩
    obtain ⟨htype, hfind⟩ := mem_configured.mp hpair
    obtain rfl := F.fst_makeConfigured hmake
    exact ⟨htype, params, hfind, hmake⟩
  · rintro ⟨htype, params, hfind, hmake⟩
    exact ⟨(obj.1, params), mem_configured.mpr ⟨htype, hfind⟩, hmake⟩

/-! ## The process -/

variable [DecidableEq κ] {defaults types : List (HelperType κ)} {heap : Heap F}
  {helper' : PluginHelper κ} {agg : Aggregation F}

/-- What `createAggregation` may do: nothing is loaded where the configuration names no libraries.
-/
lemma createAggregation_cases
    (h : heap.createAggregationWithPlugins host helper defaults types config =
      some (agg, helper')) :
    ∃ static, heap.createAggregationWithDefaults defaults types config = some static ∧
      ((pluginPaths config = none ∧ agg = static ∧ ∃ params, helper' = { helper with params }) ∨
        ∃ paths plugins, pluginPaths config = some paths ∧
          helper' = { helper with params := (paths, ()) }.loadPlugins F host ∧
          helper'.createPlugins F host config = some plugins ∧
          agg = plugins.foldl Aggregation.add static) := by
  obtain ⟨static, hstatic, h⟩ := Option.bind_eq_some_iff.mp h
  refine ⟨static, hstatic, ?_⟩
  cases hhelper : config.find "plugin_helper" with
  | none =>
      simp only [hhelper] at h
      obtain ⟨rfl, rfl⟩ := Prod.mk.inj (Option.some.inj h)
      exact Or.inl ⟨by simp [pluginPaths, hhelper], rfl, helper.params, rfl⟩
  | some it =>
      simp only [hhelper] at h
      obtain ⟨configured, hconfigure, h⟩ := Option.bind_eq_some_iff.mp h
      rw [configure_pluginHelperParams] at hconfigure
      have hpaths : pluginPaths config = match it.find "plugins" with
          | some (.array elements) =>
              elements.mapM fun element => (@JsonType.string true).get element
          | _ => none := by
        rw [pluginPaths, hhelper, Option.bind_some]
      split at hconfigure
      case h_1 elements hfind =>
        obtain ⟨paths, hread, rfl⟩ := Option.map_eq_some_iff.mp hconfigure
        simp only [if_true] at h
        obtain ⟨plugins, hcreated, h⟩ := Option.map_eq_some_iff.mp h
        obtain ⟨rfl, rfl⟩ := Prod.mk.inj h
        refine Or.inr ⟨paths, plugins, ?_, rfl, hcreated, rfl⟩
        rw [hpaths, hfind]
        exact hread
      case h_2 hother =>
        obtain rfl := Option.some.inj hconfigure
        simp only [Bool.false_eq_true, if_false] at h
        obtain ⟨rfl, rfl⟩ := Prod.mk.inj (Option.some.inj h)
        refine Or.inl ⟨?_, rfl, _, rfl⟩
        rw [hpaths]
        split
        case h_1 elements hfind => exact absurd hfind (hother elements)
        case h_2 => rfl

inductive Action (κ : Type)
  | registerPlugin (type : κ)
  | createAggregation (defaults types : List (HelperType κ)) (config : Json)

/-- What can happen in a process; beside the helper all registrations, in their order. -/
inductive Step (F : Framework κ τ) (host : Host κ) :
    PluginHelper κ × List κ → Action κ → PluginHelper κ × List κ → Prop
  | registerPlugin {helper : PluginHelper κ} {history : List κ} {type : κ} :
      Step F host (helper, history) (.registerPlugin type)
        (helper.registerPlugin F type, history ++ [type])
  | createAggregation {helper helper' : PluginHelper κ} {history : List κ}
      {defaults types : List (HelperType κ)} {config : Json} {heap : Heap F}
      {agg : Aggregation F} :
      heap.createAggregationWithPlugins host helper defaults types config =
        some (agg, helper') →
      Step F host (helper, history) (.createAggregation defaults types config)
        (helper', history ++ registered host config)

lemma Registers.createAggregation (h : Registers F helper history)
    (hcreate : heap.createAggregationWithPlugins host helper defaults types config =
      some (agg, helper')) :
    Registers F helper' (history ++ registered host config) := by
  obtain ⟨static, -, ⟨hpaths, -, params, rfl⟩ | ⟨paths, plugins, hpaths, rfl, -⟩⟩ :=
    createAggregation_cases hcreate
  · rw [registered, hpaths, Option.getD_none, List.flatMap_nil, List.append_nil]
    exact h.setParams params
  · rw [registered, hpaths, Option.getD_some]
    exact (h.setParams (paths, ())).loadPlugins

lemma Registers.step {σ σ' : PluginHelper κ × List κ} {action : Action κ}
    (h : Registers F σ.1 σ.2) (hstep : Step F host σ action σ') : Registers F σ'.1 σ'.2 := by
  cases hstep with
  | registerPlugin => exact h.registerPlugin _
  | createAggregation hcreate => exact h.createAggregation hcreate

end PluginHelper

/-- **Plugins of an aggregation**, whatever has been registered, loaded and created in the process
before: one for each id that the configuration has and that is registered by then, made by the class
that was first registered under the id, and none if the configuration names no libraries. -/
theorem plugins_created [DecidableEq κ] {F : Framework κ τ} {host : PluginHelper.Host κ}
    {actions : List (PluginHelper.Action κ)} {helper helper' : PluginHelper κ} {history : List κ}
    (hrun : Transition.Run (PluginHelper.Step F host) ({}, []) actions (helper, history))
    {defaults types : List (HelperType κ)} {config : Json} {heap : Heap F} {agg : Aggregation F}
    (hcreate : heap.createAggregationWithPlugins host helper defaults types config =
      some (agg, helper')) :
    ∃ (static : Aggregation F) (plugins : List F.Instance),
      heap.createAggregationWithDefaults defaults types config = some static ∧
      agg = plugins.foldl Aggregation.add static ∧
      (plugins.map fun obj => F.typeId obj.1).Nodup ∧
      (∀ obj, obj ∈ plugins ↔ (pluginPaths config).isSome ∧
        First F (history ++ PluginHelper.registered host config) obj.1 ∧
        ∃ params, config.find (F.typeId obj.1) = some params ∧
          F.makeConfigured obj.1 params = some obj) ∧
      (F.plugins config = plugins.map some →
        heap.createAggregation defaults types config = some agg) := by
  have hregisters : PluginHelper.Registers F helper history :=
    hrun.invariant (I := fun σ => PluginHelper.Registers F σ.1 σ.2) PluginHelper.registers_initial
      fun _ _ _ h hstep => h.step hstep
  have hafter := hregisters.createAggregation hcreate
  obtain ⟨static, hstatic, ⟨hpaths, rfl, -⟩ | ⟨paths, plugins, hpaths, -, hcreated, rfl⟩⟩ :=
    PluginHelper.createAggregation_cases hcreate
  · refine ⟨agg, [], hstatic, rfl, List.nodup_nil, ?_, ?_⟩
    · simp [hpaths]
    · intro hplugins
      rw [Heap.createAggregation, hstatic, hplugins]
      cases config.find "plugin_helper" <;> rfl
  · refine ⟨static, plugins, hstatic, rfl, ?_, fun obj => ?_, ?_⟩
    · rw [(PluginHelper.made_createPlugins hcreated).map_typeId]
      have hperm := (host.iteration_perm helper'.pluginCreators_).map F.typeId
      exact (hperm.nodup_iff.mpr hafter.nodup).sublist PluginHelper.configured_sublist
    · rw [PluginHelper.mem_createPlugins hcreated, hafter.mem_iff]
      simp [hpaths]
    · intro hplugins
      obtain ⟨it, hit⟩ : ∃ it, config.find "plugin_helper" = some it := by
        cases hfind : config.find "plugin_helper" with
        | none => simp [pluginPaths, hfind] at hpaths
        | some it => exact ⟨it, rfl⟩
      rw [Heap.createAggregation, hstatic, hplugins, hit]
      exact congrArg some List.foldl_map

/-- Two classes with one id. -/
def radioFramework : Framework Bool Unit where
  typeId _ := "radio"
  deps _ := []
  isAggregatable _ := true
  isA _ _ := true
  isBaseOf _ _ := true
  isComplete _ := true
  isBaseOf_refl _ := rfl
  Params _ := Unit
  default _ := ()
  configure _ := none
  plugins _ := []

/-- A library with the second one. -/
def radioHost : PluginHelper.Host Bool where
  libraries path := if path = "radio.so" then some [false] else none
  iteration := id
  iteration_perm _ := .rfl

def radioConfig : Json :=
  .object [("plugin_helper", .object [("plugins", .array [.string "radio.so"])]),
    ("radio", .object [])]

/-- The first one is registered already when the library is loaded. -/
theorem plugins_created_radio : ∃ (agg : Aggregation radioFramework) (helper' : PluginHelper Bool)
    (plugins : List radioFramework.Instance),
    ({} : Heap radioFramework).createAggregationWithPlugins radioHost
      { pluginCreators_ := [true] } [] [] radioConfig = some (agg, helper') ∧
    agg.2 = [⟨0, true⟩] ∧ PluginHelper.registered radioHost radioConfig = [false] ∧
    ∀ obj, obj ∈ plugins ↔ (pluginPaths radioConfig).isSome ∧
      First radioFramework ([true] ++ PluginHelper.registered radioHost radioConfig) obj.1 ∧
      ∃ params, radioConfig.find (radioFramework.typeId obj.1) = some params ∧
        radioFramework.makeConfigured obj.1 params = some obj := by
  have hrun : Transition.Run (PluginHelper.Step radioFramework radioHost) ({}, [])
      [.registerPlugin true] ({ pluginCreators_ := [true] }, [true]) :=
    Transition.Run.single .registerPlugin
  have hcreate : ∃ agg helper', ({} : Heap radioFramework).createAggregationWithPlugins radioHost
      { pluginCreators_ := [true] } [] [] radioConfig = some (agg, helper') ∧
      agg.2 = [⟨0, true⟩] := ⟨_, _, rfl, rfl⟩
  obtain ⟨agg, helper', hcreate, hagg⟩ := hcreate
  obtain ⟨-, plugins, -, -, -, hplugins, -⟩ := plugins_created hrun hcreate
  exact ⟨agg, helper', plugins, hcreate, hagg, rfl, hplugins⟩

end CpsCore

import Mathlib
import CpsCore.Configuration.MergePatch
import CpsCore.Configuration.Populated
import CpsCore.Framework.Defaults

/-!
# Configuration templates

`JsonPopulator::populateContainer` writes a configuration in which every type of a helper has its
default parameters, for a user to start from.  The helper creates the default objects from it.

* `Written`: what a class writes.
* `JsonPopulator.find_populateContainer`: what is in the template under a type.
* `Aggregation.Holds`: the aggregator has default objects of these classes, in this order.

The helper in front is merged into the template, and the merge takes a type out that writes
nothing.  Such a class is created without a configuration then; a factory would be left without a
class.
-/

namespace CpsCore

variable {κ τ : Type}

/-! ## What is written -/

/-- What `params.configure` writes for a new object of a class, and `configureParams` where the
class has one. -/
structure Written where
  params : Json
  configureParams : Option Json := none

/-- `ConfigurableObject::parse`. -/
def Written.parse (written : Written) (config : Json) : Json := config.mergePatch written.params

/-- An object of a class with this parameter set, and without `configureParams`. -/
def ParameterSet.written {ids : List String} {α : Type} (set : ParameterSet true ids α) : Written :=
  { params := set.populate set.default .null }

/-- A new object is configured with what it has written, if that has no nulls. -/
lemma ParameterSet.configure_parse {ids : List String} {α : Type} (set : ParameterSet true ids α)
    (hclean : set.written.params.Clean) (hrecovers : set.Recovers set.default set.default) :
    ∃ returned, ConfigurableObject.configure set (set.written.parse .null) set.default =
      some (set.default, returned) := by
  have hholds := set.populate_holds set.default (Or.inl rfl)
  obtain ⟨failed, hconfigure, -⟩ := (set.configure_holds set.default set.default hholds).1 hrecovers
  have hparse : set.written.parse .null = set.populate set.default .null := hclean.mergePatch_null
  exact ⟨!failed, by rw [ConfigurableObject.configure, hparse, hconfigure, Option.map_some]⟩

namespace JsonPopulator

section

variable (F : Framework κ τ) (writes : κ → Written)

/-- The `config` that `populateOne` writes for a class. -/
def populateObject (cls : κ) : Json :=
  match F.configure cls with
  | some _ =>
      let config := (writes cls).parse .null
      match (writes cls).configureParams with
      | some json => config.mergePatch json
      | none => config
  | none => .object []

/-- `populateContainer`, of a factory. -/
def populateFactory (classes : List κ) : Json :=
  classes.foldl (fun json cls => json.set (F.typeId cls) (populateObject F writes cls)) .null

def populateType : HelperType κ → Json
  | .object cls => populateObject F writes cls
  | .factory _ _ first others => populateFactory F writes (first :: others)

/-- `populateOne`, of a type. -/
def populateOne (json : Json) (type : HelperType κ) : Json :=
  json.set (F.helperTypeId type) (populateType F writes type)

/-- `populateContainer`, of a helper that begins with the helper over `defaults`. -/
def populateContainer (defaults types : List (HelperType κ)) : Json :=
  types.foldl (populateOne F writes)
    (Json.null.mergePatch (defaults.foldl (populateOne F writes) .null))

end

end JsonPopulator

/-! ## Fields of their own -/

namespace Json

lemma lookup_of_mem {fields : List (String × Json)} {key : String} {value : Json}
    (hnodup : (fields.map Prod.fst).Nodup) (hmem : (key, value) ∈ fields) :
    fields.lookup key = some value := by
  cases hfound : fields.lookup key with
  | none =>
      rw [List.lookup_eq_none_iff] at hfound
      exact absurd (hfound _ hmem) (by simp)
  | some other =>
      have hsame := List.inj_on_of_nodup_map hnodup (mem_of_lookup hfound) hmem rfl
      rw [(Prod.mk.inj hsame).2]

/-- Keys that are new, and differ from each other. -/
lemma foldl_set_object {α : Type} {key : α → String} (value : α → Json) {l : List α}
    {old : List (String × Json)} (hnodup : (old.map Prod.fst ++ l.map key).Nodup) :
    l.foldl (fun json a => json.set (key a) (value a)) (object old) =
      object (old ++ l.map fun a => (key a, value a)) := by
  induction l generalizing old with
  | nil => simp
  | cons a l ih =>
      have hnew : key a ∉ old.map Prod.fst := fun hold =>
        (List.nodup_append.mp hnodup).2.2 (key a) hold (key a) (by simp) rfl
      rw [List.foldl_cons, set, setField_of_notMem hnew, ih]
      · simp
      · simpa using hnodup

/-- The first of them makes the object. -/
lemma foldl_set_null {α : Type} {key : α → String} (value : α → Json) {a : α} {l : List α}
    (hnodup : ((a :: l).map key).Nodup) :
    (a :: l).foldl (fun json a => json.set (key a) (value a)) null =
      object ((a :: l).map fun a => (key a, value a)) :=
  @foldl_set_object _ _ value (a :: l) [] hnodup

end Json

namespace JsonPopulator

variable {F : Framework κ τ} {writes : κ → Written}

lemma clean_populateObject (cls : κ) : (populateObject F writes cls).Clean := by
  have hparse : ((writes cls).parse .null).Clean := Json.Clean.mergePatch (.ofPlain rfl) _
  unfold populateObject
  split
  · split
    · exact hparse.mergePatch _
    · exact hparse
  · exact Json.clean_empty

lemma populateFactory_eq {first : κ} {others : List κ}
    (hnodup : ((first :: others).map F.typeId).Nodup) :
    populateFactory F writes (first :: others) =
      .object ((first :: others).map fun cls => (F.typeId cls, populateObject F writes cls)) :=
  Json.foldl_set_null (populateObject F writes) hnodup

/-- What must not be lost in the merge: classes of factories that write something. -/
def Kept (F : Framework κ τ) (writes : κ → Written) : HelperType κ → Prop
  | .object _ => True
  | .factory _ _ first others =>
      ∀ cls ∈ first :: others, (populateObject F writes cls).isNull = false

lemma clean_populateType {type : HelperType κ} (hnodup : (type.classes.map F.typeId).Nodup)
    (hkept : Kept F writes type) : (populateType F writes type).Clean := by
  cases type with
  | object cls => exact clean_populateObject cls
  | factory typeId supportsMulti first others =>
      rw [populateType, populateFactory_eq hnodup]
      refine .ofFields ?_ ?_ ?_
      · rw [List.map_map]
        exact hnodup
      · rw [List.forall_mem_map]
        exact hkept
      · rw [List.forall_mem_map]
        exact fun cls _ => clean_populateObject cls

/-- The field of a type. -/
def field (F : Framework κ τ) (writes : κ → Written) (type : HelperType κ) : String × Json :=
  (F.helperTypeId type, populateType F writes type)

/-- The fields of the template. -/
def fields (F : Framework κ τ) (writes : κ → Written) (defaults types : List (HelperType κ)) :
    List (String × Json) :=
  ((defaults.map (field F writes)).filter fun field => !field.2.isNull) ++
    types.map (field F writes)

lemma map_fst_field (types : List (HelperType κ)) :
    (types.map (field F writes)).map Prod.fst = types.map F.helperTypeId := by
  rw [List.map_map]
  rfl

lemma fields_sublist (defaults types : List (HelperType κ)) :
    ((fields F writes defaults types).map Prod.fst).Sublist
      ((defaults ++ types).map F.helperTypeId) := by
  have hdefaults := @map_fst_field _ _ F writes defaults
  rw [fields, List.map_append, List.map_append, map_fst_field, ← hdefaults]
  exact (List.filter_sublist.map _).append (List.Sublist.refl _)

/-- **The template**: its fields are those of the types, without what the merge has taken out. -/
lemma find_populateContainer {defaults types : List (HelperType κ)}
    (hids : ((defaults ++ types).map F.helperTypeId).Nodup)
    (hclasses : ∀ type ∈ defaults, (type.classes.map F.typeId).Nodup)
    (hkept : ∀ type ∈ defaults, Kept F writes type) (key : String) :
    (populateContainer F writes defaults types).find key =
      (fields F writes defaults types).lookup key := by
  have hnodup : ((fields F writes defaults types).map Prod.fst).Nodup :=
    hids.sublist (fields_sublist defaults types)
  cases defaults with
  | nil =>
      cases types with
      | nil => simp [populateContainer, Json.mergePatch, Json.find, fields]
      | cons type types =>
          have htypes : ((type :: types).map F.helperTypeId).Nodup := hids
          have hset := Json.foldl_set_null (populateType F writes) htypes
          rw [populateContainer, List.foldl_nil, Json.mergePatch]
          · exact (congrArg (Json.find · key) hset).trans rfl
          · simp
  | cons type defaults =>
      have hdefaults : ((type :: defaults).map F.helperTypeId).Nodup :=
        (List.nodup_append.mp (List.map_append ▸ hids)).1
      have hset : (type :: defaults).foldl (populateOne F writes) .null =
          .object ((type :: defaults).map (field F writes)) :=
        Json.foldl_set_null (populateType F writes) hdefaults
      have hmerged : Json.null.mergePatch (.object ((type :: defaults).map (field F writes))) =
          .object (((type :: defaults).map (field F writes)).filter fun field =>
            !field.2.isNull) := by
        rw [Json.mergePatch, if_neg (by simp [Json.isObject]), Json.mergeFields_eq,
          List.nil_append]
        · rw [List.nil_append, map_fst_field]
          exact hdefaults
        · rw [List.forall_mem_map]
          intro other hother _
          exact (clean_populateType (hclasses other hother) (hkept other hother)).mergePatch_null
      have hrest := @Json.foldl_set_object _ F.helperTypeId (populateType F writes) types
        (((type :: defaults).map (field F writes)).filter fun field => !field.2.isNull) <| by
          rw [fields, List.map_append, map_fst_field types] at hnodup
          exact hnodup
      rw [populateContainer, hset, hmerged]
      exact (congrArg (Json.find · key) hrest).trans rfl

end JsonPopulator

/-! ## The objects of a type -/

/-- The classes of which a template has the helper create an object: a factory for one object
does not take the template of several classes. -/
def HelperType.created : HelperType κ → List κ
  | .object cls => [cls]
  | .factory _ supportsMulti first others =>
      if !supportsMulti && !others.isEmpty then [] else first :: others

/-- A class that does not mind being configured with what it has written. -/
def Framework.Restores (F : Framework κ τ) (writes : κ → Written) (cls : κ) : Prop :=
  F.makeConfigured cls (JsonPopulator.populateObject F writes cls) = some ⟨cls, F.default cls⟩

section

variable {F : Framework κ τ} {writes : κ → Written}

lemma Framework.find?_typeId {classes : List κ} (hnodup : (classes.map F.typeId).Nodup) {cls : κ}
    (hmem : cls ∈ classes) :
    classes.find? (fun other => F.typeId other = F.typeId cls) = some cls := by
  cases hfound : classes.find? fun other => F.typeId other = F.typeId cls with
  | none => exact absurd (List.find?_eq_none.mp hfound cls hmem) (by simp)
  | some other =>
      have hid : F.typeId other = F.typeId cls := by simpa using List.find?_some hfound
      rw [List.inj_on_of_nodup_map hnodup (List.mem_of_find?_eq_some hfound) hmem hid]

lemma Framework.createSpecific_restores {classes : List κ}
    (hnodup : (classes.map F.typeId).Nodup) {cls : κ} (hmem : cls ∈ classes)
    (hrestores : F.Restores writes cls) :
    F.createSpecific (F.typeId cls) (JsonPopulator.populateObject F writes cls) classes =
      some (some ⟨cls, F.default cls⟩) := by
  rw [F.createSpecific_of_find _ (F.find?_typeId hnodup hmem), hrestores, Option.map_some]

/-- The objects of the factory, in the order of its classes. -/
lemma Framework.mapM_createSpecific {classes : List κ} (hnodup : (classes.map F.typeId).Nodup)
    {made : List κ} (hmem : ∀ cls ∈ made, cls ∈ classes ∧ F.Restores writes cls) :
    ((made.map fun cls => (F.typeId cls, JsonPopulator.populateObject F writes cls)).mapM
      fun item => F.createSpecific item.1 item.2 classes) =
        some (made.map fun cls => some ⟨cls, F.default cls⟩) := by
  induction made with
  | nil => rfl
  | cons cls others ih =>
      rw [List.forall_mem_cons] at hmem
      rw [List.map_cons, List.mapM_cons,
        Framework.createSpecific_restores hnodup hmem.1.1 hmem.1.2, ih hmem.2]
      rfl

/-- **The objects of a type**, from its part of the template. -/
lemma Framework.createObject_populateType {type : HelperType κ}
    (hnodup : (type.classes.map F.typeId).Nodup)
    (hrestores : ∀ cls ∈ type.classes, F.Restores writes cls) :
    F.createObject (JsonPopulator.populateType F writes type) type =
      some (type.created.map fun cls => ⟨cls, F.default cls⟩) := by
  cases type with
  | object cls =>
      have hcls : F.makeConfigured cls (JsonPopulator.populateObject F writes cls) =
        some ⟨cls, F.default cls⟩ := hrestores cls (List.mem_singleton_self cls)
      rw [createObject, JsonPopulator.populateType, hcls]
      rfl
  | factory typeId supportsMulti first others =>
      have hclasses : ((first :: others).map F.typeId).Nodup := hnodup
      have hwritten := @JsonPopulator.populateFactory_eq _ _ F writes _ _ hclasses
      rw [createObject, JsonPopulator.populateType, hwritten]
      cases supportsMulti with
      | true =>
          have hall := Framework.mapM_createSpecific hclasses fun cls hcls =>
            ⟨hcls, hrestores cls hcls⟩
          rw [create, if_neg (by simp [Json.empty]), if_neg (by simp), if_pos rfl, Json.items, hall]
          simp [HelperType.created]
      | false =>
          cases others with
          | nil =>
              have hfirst := Framework.createSpecific_restores hclasses List.mem_cons_self
                (hrestores first List.mem_cons_self)
              rw [create, if_neg (by simp [Json.empty]), if_neg (by simp [Json.size])]
              simp [Json.items, HelperType.created, hfirst]
          | cons second others => simp [create, Json.empty, Json.size, HelperType.created]

/-! ## The template of a helper -/

/-- What the types of a helper have to be like for their template. -/
structure Framework.Templated (F : Framework κ τ) (writes : κ → Written)
    (defaults types : List (HelperType κ)) : Prop where
  ids : ((defaults ++ types).map F.helperTypeId).Nodup
  classes : ∀ type ∈ defaults ++ types, (type.classes.map F.typeId).Nodup
  no_plugins : "plugin_helper" ∉ (defaults ++ types).map F.helperTypeId
  restores : ∀ type ∈ defaults ++ types, ∀ cls ∈ type.classes, F.Restores writes cls
  kept : ∀ type ∈ defaults, JsonPopulator.Kept F writes type

namespace Framework.Templated

variable {defaults types : List (HelperType κ)}

lemma find (h : F.Templated writes defaults types) (key : String) :
    (JsonPopulator.populateContainer F writes defaults types).find key =
      (JsonPopulator.fields F writes defaults types).lookup key :=
  JsonPopulator.find_populateContainer h.ids
    (fun type htype => h.classes type (List.mem_append_left _ htype)) h.kept key

lemma find_of_mem (h : F.Templated writes defaults types) {type : HelperType κ}
    (hmem : JsonPopulator.field F writes type ∈ JsonPopulator.fields F writes defaults types) :
    (JsonPopulator.populateContainer F writes defaults types).find (F.helperTypeId type) =
      some (JsonPopulator.populateType F writes type) := by
  rw [h.find]
  exact Json.lookup_of_mem (h.ids.sublist (JsonPopulator.fields_sublist defaults types)) hmem

/-- A type finds its own part. -/
lemma eq_populateType (h : F.Templated writes defaults types) {type : HelperType κ}
    (htype : type ∈ defaults ++ types) {params : Json}
    (hfind : (JsonPopulator.populateContainer F writes defaults types).find
      (F.helperTypeId type) = some params) : params = JsonPopulator.populateType F writes type := by
  have hmem : (F.helperTypeId type, params) ∈
      (defaults ++ types).map (JsonPopulator.field F writes) := by
    rw [h.find] at hfind
    have hfields := Json.mem_of_lookup hfind
    rw [List.map_append]
    exact (List.filter_sublist.append (List.Sublist.refl _)).subset hfields
  obtain ⟨other, hother, hfield⟩ := List.mem_map.mp hmem
  obtain ⟨hid, rfl⟩ := Prod.mk.inj hfield
  rw [List.inj_on_of_nodup_map h.ids hother htype hid]

lemma inConfig (h : F.Templated writes defaults types) {type : HelperType κ}
    (htype : type ∈ types) :
    F.inConfig (JsonPopulator.populateContainer F writes defaults types) type = true := by
  rw [Framework.inConfig, h.find_of_mem (List.mem_append_right _ (List.mem_map_of_mem htype))]
  rfl

lemma find_plugin_helper (h : F.Templated writes defaults types) :
    (JsonPopulator.populateContainer F writes defaults types).find "plugin_helper" = none := by
  rw [h.find, List.lookup_eq_none_iff]
  intro field hfield
  rw [bne_iff_ne]
  intro heq
  refine h.no_plugins ((@JsonPopulator.fields_sublist _ _ F writes defaults types).subset ?_)
  exact heq ▸ List.mem_map_of_mem hfield

/-- What is taken out is no factory. -/
lemma object_of_find (h : F.Templated writes defaults types) {type : HelperType κ}
    (htype : type ∈ defaults)
    (hfind : (JsonPopulator.populateContainer F writes defaults types).find
      (F.helperTypeId type) = none) : ∃ cls, type = .object cls := by
  cases type with
  | object cls => exact ⟨cls, rfl⟩
  | factory typeId supportsMulti first others =>
      have hwritten := @JsonPopulator.populateFactory_eq _ _ F writes _ _
        (h.classes _ (List.mem_append_left _ htype))
      have hnull : (JsonPopulator.populateFactory F writes (first :: others)).isNull = false := by
        rw [hwritten]
        rfl
      have hmem : JsonPopulator.field F writes (.factory typeId supportsMulti first others) ∈
          JsonPopulator.fields F writes defaults types :=
        List.mem_append_left _ (List.mem_filter.mpr ⟨List.mem_map_of_mem htype, by
          rw [JsonPopulator.field, JsonPopulator.populateType, hnull]
          rfl⟩)
      rw [h.find_of_mem hmem] at hfind
      exact absurd hfind (by simp)

end Framework.Templated

/-! ## The aggregator -/

/-- The aggregator has a default object of each of the classes, in this order, as far as they are
aggregatable. -/
def Aggregation.Holds (agg : Aggregation F) (classes : List κ) : Prop :=
  (agg.2.map fun obj => agg.1.objects[obj.address]?) =
    (classes.filter F.isAggregatable).map fun cls => some ⟨cls, F.default cls⟩

lemma Aggregation.holds_nil (heap : Heap F) : Aggregation.Holds (heap, []) [] := rfl

/-- More objects on the heap do not matter. -/
lemma Aggregation.Holds.mono {agg : Aggregation F} {heap : Heap F} {classes : List κ}
    (h : agg.Holds classes) (hmore : agg.1.objects <+: heap.objects) :
    Aggregation.Holds (heap, agg.2) classes := by
  unfold Holds at h ⊢
  rw [← h]
  refine List.map_congr_left fun obj hobj => ?_
  -- every pointer of the aggregator has an object
  have hsome : agg.1.objects[obj.address]? ∈ agg.2.map fun obj => agg.1.objects[obj.address]? :=
    List.mem_map.mpr ⟨obj, hobj, rfl⟩
  rw [h, List.mem_map] at hsome
  obtain ⟨cls, -, hcls⟩ := hsome
  obtain ⟨more, hmore⟩ := hmore
  rw [← hmore, List.getElem?_append_left (List.getElem?_eq_some_iff.mp hcls.symm).1]

/-- What was created before goes behind what was created after. -/
lemma Aggregation.Holds.append {agg : Aggregation F} {container : List (Object κ)}
    {classes others : List κ} (h : agg.Holds classes)
    (hcontainer : Aggregation.Holds (agg.1, container) others) (memory : Memory F.classes) :
    Aggregation.Holds (⟨agg.1.objects, memory⟩, agg.2 ++ container) (classes ++ others) := by
  unfold Holds at h hcontainer ⊢
  rw [List.map_append, List.filter_append, List.map_append, ← h, ← hcontainer]

variable [DecidableEq κ]

lemma Aggregation.Holds.add {agg : Aggregation F} {classes : List κ} (h : agg.Holds classes)
    (cls : κ) : (agg.add ⟨cls, F.default cls⟩).Holds (classes ++ [cls]) ∧
      agg.1.objects <+: (agg.add ⟨cls, F.default cls⟩).1.objects := by
  have hmore : agg.1.objects <+: agg.1.objects ++ [⟨cls, F.default cls⟩] := List.prefix_append _ _
  cases haggregatable : F.isAggregatable cls with
  | true =>
      have hnew : Aggregation.Holds (⟨agg.1.objects ++ [⟨cls, F.default cls⟩], agg.1.memory⟩,
          [⟨agg.1.objects.length, cls⟩]) [cls] := by
        simp [Holds, haggregatable]
      rw [agg.add_eq haggregatable]
      exact ⟨(h.mono hmore).append hnew _, hmore⟩
  | false =>
      have hold := h.mono (show agg.1.objects <+: (⟨_, agg.1.memory⟩ : Heap F).objects from hmore)
      rw [Aggregation.add, if_neg (by simp [haggregatable])]
      refine ⟨?_, hmore⟩
      unfold Holds at hold ⊢
      rw [hold, List.filter_append, List.filter_singleton, haggregatable]
      simp

lemma Aggregation.Holds.foldl_add {agg : Aggregation F} {classes : List κ}
    (h : agg.Holds classes) (created : List κ) :
    ((created.map fun cls => ⟨cls, F.default cls⟩).foldl Aggregation.add agg).Holds
        (classes ++ created) ∧
      agg.1.objects <+:
        ((created.map fun cls => ⟨cls, F.default cls⟩).foldl Aggregation.add agg).1.objects := by
  induction created generalizing agg classes with
  | nil => exact ⟨by simpa using h, List.prefix_rfl⟩
  | cons cls created ih =>
      obtain ⟨hadded, hmore⟩ := h.add cls
      obtain ⟨hall, hmore'⟩ := ih hadded
      rw [List.map_cons, List.foldl_cons]
      refine ⟨?_, hmore.trans hmore'⟩
      rw [List.append_assoc] at hall
      exact hall

/-- The types that are in the configuration. -/
lemma Aggregation.Holds.configured {config : Json} {agg : Aggregation F} {classes : List κ}
    (h : agg.Holds classes) {types : List (HelperType κ)}
    (hcreate : ∀ type ∈ types, ∀ params, config.find (F.helperTypeId type) = some params →
      F.createObject params type = some (type.created.map fun cls => ⟨cls, F.default cls⟩)) :
    ∃ agg', types.foldlM (Aggregation.addIfInConfig config) agg = some agg' ∧
      agg'.Holds (classes ++ (types.filter (F.inConfig config)).flatMap HelperType.created) ∧
      agg.1.objects <+: agg'.1.objects := by
  induction types generalizing agg classes with
  | nil => exact ⟨agg, rfl, by simpa using h, List.prefix_rfl⟩
  | cons type types ih =>
      rw [List.forall_mem_cons] at hcreate
      rw [List.foldlM_cons, List.filter_cons, Framework.inConfig]
      cases hfind : config.find (F.helperTypeId type) with
      | none =>
          obtain ⟨agg', hagg', hholds, hmore⟩ := ih h hcreate.2
          refine ⟨agg', ?_, hholds, hmore⟩
          rw [Aggregation.addIfInConfig, hfind]
          exact hagg'
      | some params =>
          obtain ⟨hadded, hmore⟩ := h.foldl_add type.created
          obtain ⟨agg', hagg', hholds, hmore'⟩ := ih hadded hcreate.2
          refine ⟨agg', ?_, ?_, hmore.trans hmore'⟩
          · rw [Aggregation.addIfInConfig, hfind]
            show ((F.createObject params type).map _).bind _ = _
            rw [hcreate.1 params hfind]
            exact hagg'
          · rw [List.append_assoc] at hholds
            exact hholds

/-- The types that are not. -/
lemma Aggregation.Holds.defaults {config : Json} {agg : Aggregation F} {classes : List κ}
    (h : agg.Holds classes) {types : List (HelperType κ)}
    (hobject : ∀ type ∈ types, config.find (F.helperTypeId type) = none →
      ∃ cls, type = .object cls) :
    (types.foldl (Aggregation.addIfNotInConfig config) agg).Holds
      (classes ++ (types.filter fun type => !F.inConfig config type).flatMap
        HelperType.created) := by
  induction types generalizing agg classes with
  | nil => simpa using h
  | cons type types ih =>
      rw [List.forall_mem_cons] at hobject
      rw [List.foldl_cons, List.filter_cons, Framework.inConfig]
      cases hfind : config.find (F.helperTypeId type) with
      | some params =>
          rw [Aggregation.addIfNotInConfig, hfind]
          exact ih h hobject.2
      | none =>
          obtain ⟨cls, rfl⟩ := hobject.1 hfind
          have hholds := ih (h.add cls).1 hobject.2
          rw [Aggregation.addIfNotInConfig, hfind]
          rw [List.append_assoc] at hholds
          exact hholds

/-- **A template creates the defaults**: from the configuration that `populateContainer` writes, a
helper creates a default object of every type, and of every class of a factory for several objects.
A factory for one object is left out if it has several classes. -/
theorem template_creates {defaults types : List (HelperType κ)}
    (h : F.Templated writes defaults types) (heap : Heap F) :
    ∃ agg, heap.createAggregation defaults types
        (JsonPopulator.populateContainer F writes defaults types) = some agg ∧
      (agg.2.map fun obj => agg.1.objects[obj.address]?).Perm
        ((((defaults ++ types).flatMap HelperType.created).filter F.isAggregatable).map
          fun cls => some ⟨cls, F.default cls⟩) := by
  set config := JsonPopulator.populateContainer F writes defaults types
  have hcreate : ∀ type ∈ defaults ++ types, ∀ params,
      config.find (F.helperTypeId type) = some params →
      F.createObject params type = some (type.created.map fun cls => ⟨cls, F.default cls⟩) := by
    intro type htype params hfind
    rw [h.eq_populateType htype hfind]
    exact Framework.createObject_populateType (h.classes type htype) (h.restores type htype)
  -- the defaults without a configuration, those with one, and the types of the helper itself
  have hdefault := (Aggregation.holds_nil heap).defaults fun _ htype =>
    h.object_of_find htype
  obtain ⟨agg, hagg, hholds, hmore⟩ := (Aggregation.holds_nil
    (heap.createDefaults defaults config).1).configured fun type htype =>
      hcreate type (List.mem_append_left _ htype)
  have hmerged := hholds.append (hdefault.mono hmore)
    (agg.1.memory.merge agg.2 (heap.createDefaults defaults config).2).1
  obtain ⟨agg', hagg', hholds', -⟩ := hmerged.configured fun type htype =>
    hcreate type (List.mem_append_right _ htype)
  refine ⟨agg', ?_, ?_⟩
  · rw [heap.createAggregation_eq h.find_plugin_helper, Heap.createAggregationWithDefaults,
      Heap.createAggregationImpl, hagg]
    exact hagg'
  · have htypes : types.filter (F.inConfig config) = types :=
      List.filter_eq_self.mpr fun type htype => h.inConfig htype
    rw [hholds', List.nil_append, List.nil_append, ← List.flatMap_append, htypes,
      ← List.flatMap_append]
    have hdefaults := List.filter_append_perm (F.inConfig config) defaults
    exact (((hdefaults.append_right types).flatMap_right _).filter _).map _

end

/-- A set with one parameter. -/
def rateSet : ParameterSet true ["rate"] (BitVec 64 × Unit) :=
  .param "rate" true (.pod .int64) 50 .nil (by simp)

/-- A class with this set, and one that is not configurable. -/
def sensorFramework : Framework Bool Unit where
  typeId sensor := if sensor then "sensor" else "clock"
  deps _ := []
  isAggregatable _ := true
  isA _ _ := true
  isBaseOf _ _ := true
  isComplete _ := true
  isBaseOf_refl _ := rfl
  Params _ := BitVec 64 × Unit
  default _ := rateSet.default
  configure sensor := if sensor then some (ConfigurableObject.configure rateSet) else none
  plugins _ := []

lemma sensorFramework_restores (sensor : Bool) :
    sensorFramework.Restores (fun _ => rateSet.written) sensor := by
  cases sensor with
  | false => rfl
  | true =>
      have hclean : rateSet.written.params.Clean := by
        refine .ofFields (by simp) ?_ ?_
        · simp [ParamType.write, JsonPod.write_ne_null]
        · simpa [ParamType.write] using .ofPlain rfl
      obtain ⟨returned, hconfigure⟩ := rateSet.configure_parse hclean ⟨trivial, trivial⟩
      have hmade : sensorFramework.makeConfigured true (rateSet.written.parse .null) =
          (ConfigurableObject.configure rateSet (rateSet.written.parse .null)
            rateSet.default).map fun r => ⟨true, r.1⟩ := rfl
      rw [hconfigure] at hmade
      exact hmade

/-- A clock in front, and a factory of sensors and clocks. -/
theorem template_creates_sensor : ∃ agg,
    ({} : Heap sensorFramework).createAggregation [.object false]
      [.factory "devices" true true [false]]
      (JsonPopulator.populateContainer sensorFramework (fun _ => rateSet.written) [.object false]
        [.factory "devices" true true [false]]) = some agg ∧
    (agg.2.map fun obj => agg.1.objects[obj.address]?).Perm
      [some ⟨false, (50, ())⟩, some ⟨true, (50, ())⟩, some ⟨false, (50, ())⟩] := by
  have htemplated : sensorFramework.Templated (fun _ => rateSet.written) [.object false]
      [.factory "devices" true true [false]] := by
    constructor
    case ids =>
      show ["clock", "devices"].Nodup
      decide
    case classes =>
      intro type htype
      rcases List.mem_pair.mp htype with rfl | rfl
      · exact List.nodup_singleton _
      · show ["sensor", "clock"].Nodup
        decide
    case no_plugins =>
      show "plugin_helper" ∉ ["clock", "devices"]
      decide
    case restores => exact fun _ _ sensor _ => sensorFramework_restores sensor
    case kept => simp [JsonPopulator.Kept]
  exact template_creates htemplated {}

end CpsCore

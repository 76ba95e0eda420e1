import Mathlib
import CpsCore.Configuration.Json

/-!
# Merging configurations

`merge_patch` of the JSON library: the fields of the patch go into the target one by one, and a
null takes its field out.

* `Json.Clean`: a document as it is after a merge, with no null in a field.
* `Json.mergeFields_eq`: a merge of new fields puts those that are not null behind the old ones.
-/

namespace CpsCore.Json

/-- `erase`, of an object. -/
def erase (json : Json) (key : String) : Json :=
  match json with
  | object fields => object (fields.filter fun field => field.1 ≠ key)
  | other => other

mutual

def mergePatch (target : Json) : Json → Json
  | object fields => mergeFields (if target.isObject then target else object []) fields
  | patch => patch

/-- The loop of `merge_patch`. -/
def mergeFields (target : Json) : List (String × Json) → Json
  | [] => target
  | (key, value) :: fields =>
      mergeFields
        (if value.isNull then target.erase key
          else target.set key (mergePatch ((target.find key).getD null) value)) fields

end

/-- No object has a field twice, or a null in a field.  Arrays are not looked into. -/
inductive Clean : Json → Prop
  | ofFields {fields : List (String × Json)} : (fields.map Prod.fst).Nodup →
      (∀ field ∈ fields, field.2.isNull = false) → (∀ field ∈ fields, Clean field.2) →
      Clean (Json.object fields)
  | ofPlain {json : Json} : json.isObject = false → Clean json

variable {target json value : Json} {key : String}

lemma clean_empty : (object []).Clean := .ofFields List.nodup_nil (by simp) (by simp)

lemma Clean.nodup {fields : List (String × Json)} (h : (Json.object fields).Clean) :
    (fields.map Prod.fst).Nodup := by
  cases h with
  | ofFields hnodup => exact hnodup
  | ofPlain hother => simp [isObject] at hother

lemma Clean.of_mem {fields : List (String × Json)} (h : (Json.object fields).Clean)
    {field : String × Json} (hmem : field ∈ fields) :
    field.2.isNull = false ∧ field.2.Clean := by
  cases h with
  | ofFields _ hset hclean => exact ⟨hset field hmem, hclean field hmem⟩
  | ofPlain hother => simp [isObject] at hother

lemma mem_of_lookup {fields : List (String × Json)} (h : fields.lookup key = some value) :
    (key, value) ∈ fields := by
  obtain ⟨before, after, rfl, -⟩ := List.lookup_eq_some_iff.mp h
  simp

lemma Clean.find (h : target.Clean) (key : String) : ((target.find key).getD null).Clean := by
  cases hfind : target.find key with
  | none => exact .ofPlain rfl
  | some value =>
      cases target with
      | object fields => exact (h.of_mem (mem_of_lookup hfind)).2
      | _ => simp [Json.find] at hfind

/-! ## A new field -/

lemma setField_of_notMem {fields : List (String × Json)} (h : key ∉ fields.map Prod.fst)
    (value : Json) : setField key value fields = fields ++ [(key, value)] := by
  induction fields with
  | nil => rfl
  | cons field fields ih =>
      rw [List.map_cons, List.mem_cons, not_or] at h
      rw [setField, if_neg (Ne.symm h.1), ih h.2, List.cons_append]

lemma map_fst_setField (key : String) (value : Json) (fields : List (String × Json)) :
    (setField key value fields).map Prod.fst =
      if key ∈ fields.map Prod.fst then fields.map Prod.fst else fields.map Prod.fst ++ [key] := by
  induction fields with
  | nil => simp [setField]
  | cons field fields ih =>
      by_cases hkey : field.1 = key
      · simp [setField, hkey]
      · simp only [setField, if_neg hkey, List.map_cons, ih, List.mem_cons, Ne.symm hkey, false_or]
        split <;> simp

lemma mem_setField {field : String × Json} {fields : List (String × Json)}
    (h : field ∈ setField key value fields) : field ∈ fields ∨ field = (key, value) := by
  induction fields with
  | nil => exact Or.inr (List.mem_singleton.mp h)
  | cons other fields ih =>
      simp only [setField] at h
      split at h
      · rcases List.mem_cons.mp h with rfl | h
        · exact Or.inr rfl
        · exact Or.inl (List.mem_cons_of_mem _ h)
      · rcases List.mem_cons.mp h with rfl | h
        · exact Or.inl List.mem_cons_self
        · exact (ih h).imp_left (List.mem_cons_of_mem _)

lemma Clean.setField {fields : List (String × Json)} (h : (Json.object fields).Clean)
    (key : String) (hset : value.isNull = false) (hvalue : value.Clean) :
    (Json.object (Json.setField key value fields)).Clean := by
  refine .ofFields ?_ ?_ ?_
  · rw [map_fst_setField]
    split
    case isTrue => exact h.nodup
    case isFalse hnew =>
      refine List.Nodup.append h.nodup (List.nodup_singleton key) ?_
      rw [List.disjoint_singleton]
      exact hnew
  · intro field hfield
    rcases mem_setField hfield with hold | rfl
    · exact (h.of_mem hold).1
    · exact hset
  · intro field hfield
    rcases mem_setField hfield with hold | rfl
    · exact (h.of_mem hold).2
    · exact hvalue

lemma Clean.erase {fields : List (String × Json)} (h : (Json.object fields).Clean) (key : String) :
    ((Json.object fields).erase key).Clean := by
  refine .ofFields (h.nodup.sublist (List.filter_sublist.map _)) ?_ ?_
  · exact fun field hfield => (h.of_mem (List.mem_of_mem_filter hfield)).1
  · exact fun field hfield => (h.of_mem (List.mem_of_mem_filter hfield)).2

/-! ## The result of a merge -/

/-- An object stays one. -/
lemma isObject_mergeFields (fields : List (String × Json)) (h : target.isObject = true) :
    (target.mergeFields fields).isObject = true := by
  induction fields generalizing target with
  | nil => rw [mergeFields, h]
  | cons field fields ih =>
      obtain ⟨key, value⟩ := field
      cases target with
      | object old =>
          rw [mergeFields]
          refine ih ?_
          split <;> rfl
      | _ => simp [isObject] at h

lemma isNull_mergePatch (target : Json) (h : json.isNull = false) :
    (target.mergePatch json).isNull = false := by
  have hobject : ∀ json : Json, json.isObject = true → json.isNull = false := by
    intro json h
    cases json <;> simp_all [isObject, isNull]
  cases json with
  | object fields =>
      rw [mergePatch]
      refine hobject _ (isObject_mergeFields fields ?_)
      split
      case isTrue htarget => exact htarget
      case isFalse => rfl
  | null => simp [isNull] at h
  | _ => rw [mergePatch] <;> simp [isNull]

mutual

/-- **A merge leaves no nulls** in what had none, whatever is in the patch. -/
theorem Clean.mergePatch : {target : Json} → target.Clean → (patch : Json) →
    (target.mergePatch patch).Clean
  | target, h, .object fields => by
      rw [Json.mergePatch]
      split
      case isTrue hobject =>
        cases target with
        | object => exact Clean.mergeFields h fields
        | _ => simp [isObject] at hobject
      case isFalse => exact Clean.mergeFields clean_empty fields
  | _, _, .null => .ofPlain rfl
  | _, _, .boolean _ => .ofPlain rfl
  | _, _, .number _ => .ofPlain rfl
  | _, _, .float _ => .ofPlain rfl
  | _, _, .string _ => .ofPlain rfl
  | _, _, .array _ => .ofPlain rfl

theorem Clean.mergeFields : {old : List (String × Json)} → (Json.object old).Clean →
    (fields : List (String × Json)) → ((Json.object old).mergeFields fields).Clean
  | _, h, [] => h
  | old, h, (key, value) :: fields => by
      rw [Json.mergeFields]
      split
      case isTrue => exact Clean.mergeFields (h.erase key) fields
      case isFalse hset =>
        have hmerged := Clean.mergePatch (h.find key) value
        exact Clean.mergeFields
          (h.setField key (isNull_mergePatch _ (Bool.eq_false_iff.mpr hset)) hmerged) fields

end

/-! ## New fields -/

lemma filter_ne_of_notMem {fields : List (String × Json)} (h : key ∉ fields.map Prod.fst) :
    (fields.filter fun field => field.1 ≠ key) = fields := by
  refine List.filter_eq_self.mpr fun field hfield => ?_
  simpa using fun heq : field.1 = key => h (heq ▸ List.mem_map_of_mem hfield)

lemma find_of_notMem {fields : List (String × Json)} (h : key ∉ fields.map Prod.fst) :
    (object fields).find key = none := by
  rw [Json.find, List.lookup_eq_none_iff]
  intro field hfield
  simpa using fun heq : key = field.1 => h (heq ▸ List.mem_map_of_mem hfield)

/-- Fields that merge as they are go behind the old ones, those with a null left out. -/
lemma mergeFields_eq {old fields : List (String × Json)}
    (hnodup : ((old ++ fields).map Prod.fst).Nodup)
    (hvalue : ∀ field ∈ fields, field.2.isNull = false → null.mergePatch field.2 = field.2) :
    (object old).mergeFields fields =
      object (old ++ fields.filter fun field => !field.2.isNull) := by
  induction fields generalizing old with
  | nil => rw [mergeFields, List.filter_nil, List.append_nil]
  | cons field fields ih =>
      obtain ⟨key, value⟩ := field
      have hnew : key ∉ old.map Prod.fst := by
        rw [List.map_append, List.nodup_append] at hnodup
        exact fun hold => hnodup.2.2 key hold key (by simp) rfl
      have hrest : ∀ field ∈ fields, field.2.isNull = false →
          null.mergePatch field.2 = field.2 :=
        fun field hfield => hvalue field (List.mem_cons_of_mem _ hfield)
      rw [mergeFields]
      cases hnull : value.isNull with
      | true =>
          rw [if_pos rfl, erase, filter_ne_of_notMem hnew, ih ?_ hrest]
          · simp [hnull]
          · refine hnodup.sublist (List.Sublist.map _ ?_)
            exact (List.Sublist.refl old).append (List.sublist_cons_self _ _)
      | false =>
          rw [if_neg Bool.false_ne_true, find_of_notMem hnew, Option.getD_none,
            hvalue _ List.mem_cons_self hnull, set, setField_of_notMem hnew, ih ?_ hrest]
          · simp [hnull]
          · simpa using hnodup

/-- **A clean document merges as it is** into a new one. -/
theorem Clean.mergePatch_null (h : json.Clean) : null.mergePatch json = json := by
  induction h with
  | @ofFields fields hnodup hset _ ih =>
      have hfilter : (fields.filter fun field => !field.2.isNull) = fields :=
        List.filter_eq_self.mpr fun field hfield => by simp [hset field hfield]
      rw [Json.mergePatch, if_neg (by simp [isObject]),
        mergeFields_eq (by simpa using hnodup) fun field hfield _ => ih field hfield, hfilter,
        List.nil_append]
  | @ofPlain json hother =>
      cases json with
      | object => simp [isObject] at hother
      | _ => rw [Json.mergePatch]; simp

end CpsCore.Json

import Mathlib
import CpsCore.DataPresentation.IndexRange

/-!
# Compressed doubles

With `compressDouble` a double is written as a float, by `operator<<(const double&)` for a double
on its own and by the Eigen overload, through a matrix of floats, for those of a matrix.  Reading
widens it again.

* `Compressible` — the types with doubles in them, none in the key of a map.
* `compressed` — the value with every such double narrowed and widened.
* `readBack_eq_compressed`, `enc_compressed` — that is what comes back, and it is written as the
  value was.
* `compression_projects` — both on the archive, within the range of its index.
-/

namespace CpsCore.dp

open StateExcept

variable (fl : FloatCast)

/-- Built from plain old data, doubles, strings, containers, pairs and matrices.  The flag allows
doubles that are compressed; keys of maps have none. -/
inductive Compressible : Bool → {o : Bool} → {α : Type} → Ty o α → Prop
  | pod (d : Bool) {α : Type} (p : Pod α) : Compressible d (.pod p)
  | double : Compressible true .double
  | string (d : Bool) : Compressible d .string
  | vector {d o : Bool} {α : Type} {t : Ty o α} : Compressible d t → Compressible d (.vector t)
  | optional {d o : Bool} {α : Type} {t : Ty o α} : Compressible d t → Compressible d (.optional t)
  | array {d o : Bool} {α : Type} {t : Ty o α} (n : ℕ) :
      Compressible d t → Compressible d (.array n t)
  | map {d o : Bool} {κ α : Type} [LinearOrder κ] {k : Ty true κ} {t : Ty o α} :
      Compressible false k → Compressible d t → Compressible d (.map k t)
  | pair {d o₁ o₂ : Bool} {α β : Type} {s : Ty o₁ α} {t : Ty o₂ β} :
      Compressible d s → Compressible d t → Compressible d (.pair s t)
  | eigen (rows cols : Extent) (s : Scalar) (h : Allocatable s rows.initial cols.initial) :
      Compressible true (.eigen rows cols s h)

/-- The value with every double that is written through the archive's own overloads replaced by
what is left of it. -/
def compressed : {o : Bool} → {α : Type} → Ty o α → α → α
  | _, _, .double, val => fl.widen (fl.narrow val)
  | _, _, .vector t, val => val.map fun it => compressed t it
  | _, _, .optional t, val => val.map fun it => compressed t it
  | _, _, .array _ t, val => val.map fun it => compressed t it
  | _, _, @Ty.map _ _ _ _ _ t, val => val.mapValues fun it => compressed t it
  | _, _, .pair s t, val => (compressed s val.1, compressed t val.2)
  | _, _, .param _ t rest, val => (compressed t val.1, compressed rest val.2)
  | _, _, .eigen _ _ (.raw _) _, val => val
  | _, _, .eigen _ _ .double _, val =>
      { val with data := val.data.map fun d => fl.widen (fl.narrow d) }
  | _, _, .custom fields t, val => fields.symm (compressed t (fields val))
  | _, _, _, val => val

/-! ## What comes back -/

lemma Compressible.fresh_default {d o : Bool} {α : Type} {t : Ty o α} (h : Compressible d t) :
    Fresh t t.default := by
  induction h with
  | pod | double | string | eigen => trivial
  | vector | optional => rfl
  | array n _ ih =>
      intro it hit
      rw [List.eq_of_mem_replicate hit]
      exact ih
  | map => exact fun it hit => absurd hit (by simp [Ty.default, OrderedMap.empty])
  | pair _ _ ihs iht => exact ⟨ihs, iht⟩

lemma Compressible.compressed_eq {o : Bool} {α : Type} {t : Ty o α} (h : Compressible false t)
    (val : α) : compressed fl t val = val := by
  generalize hd : false = d at h
  induction h with
  | pod | string => rfl
  | double => cases hd
  | vector _ ih => exact map_eq_self_iff.mpr fun it _ => ih it hd
  | optional _ ih =>
      cases val with
      | none => rfl
      | some it => exact congrArg some (ih it hd)
  | array n _ ih => exact vector_map_eq_self_iff.mpr fun it _ => ih it hd
  | map _ _ _ ih =>
      refine OrderedMap.ext (map_eq_self_iff.mpr fun it _ => ?_)
      exact Prod.ext rfl (ih it.2 hd)
  | pair _ _ ihs iht => exact Prod.ext (ihs val.1 hd) (iht val.2 hd)
  | eigen => cases hd

/-- **What comes back** in a fresh target. -/
theorem readBack_eq_compressed {d o : Bool} {α : Type} {t : Ty o α} (h : Compressible d t) :
    ∀ {prior : α}, Fresh t prior → ∀ val, readBack fl true t prior val = compressed fl t val := by
  induction h with
  | pod | string =>
      intro _ _ val
      rfl
  | double =>
      intro _ _ val
      rfl
  | vector ht ih =>
      intro prior hprior val
      obtain rfl : prior = [] := hprior
      exact List.map_congr_left fun it _ => ih ht.fresh_default it
  | optional ht ih =>
      intro prior hprior val
      cases val with
      | none => exact hprior
      | some it => exact congrArg some (ih ht.fresh_default it)
  | array n ht ih =>
      intro _ _ val
      have hsame := funext (ih ht.fresh_default)
      rw [readBack, hsame]
      rfl
  | @map d o κ α _ k t hk ht ihk iht =>
      intro _ _ val
      have hentry : (fun it : κ × α =>
          (readBack fl true k k.default it.1, readBack fl true t t.default it.2)) =
          fun it => (it.1, compressed fl t it.2) := by
        funext it
        rw [ihk hk.fresh_default, hk.compressed_eq, iht ht.fresh_default]
      rw [readBack, hentry, OrderedMap.ofList_mapValues]
      rfl
  | pair hs ht ihs iht =>
      intro prior hprior val
      exact Prod.ext (ihs hprior.1 val.1) (iht hprior.2 val.2)
  | eigen rows cols s hs =>
      intro _ _ val
      cases s with
      | raw w => rfl
      | double => rfl

lemma flatMap_encDouble {n : ℕ} (v : List.Vector (BitVec 64) n) :
    (v.map fun d => fl.widen (fl.narrow d)).toList.flatMap (encDouble fl true) =
      v.toList.flatMap (encDouble fl true) := by
  have hsame : (fun d => encDouble fl true (fl.widen (fl.narrow d))) = encDouble fl true := by
    funext d
    exact congrArg IntWidth.w32.toBytes (fl.narrow_widen (fl.narrow d))
  rw [List.Vector.toList_map, List.flatMap_map, hsame]

/-- **What comes back is written as the value was**: the float narrows back to itself. -/
theorem enc_compressed : ∀ {o : Bool} {α : Type} (t : Ty o α) (val : α),
    enc fl true t (compressed fl t val) = enc fl true t val
  | _, _, .pod _, _ => rfl
  | _, _, .enum _, _ => rfl
  | _, _, .double, val => congrArg IntWidth.w32.toBytes (fl.narrow_widen (fl.narrow val))
  | _, _, .string, _ => rfl
  | _, _, .vector t, val => by
      have hsame : (fun it => enc fl true t (compressed fl t it)) = fun it => enc fl true t it :=
        funext (enc_compressed t)
      rw [compressed, enc, enc, List.length_map, List.flatMap_map, hsame]
  | _, _, .optional _, none => rfl
  | _, _, .optional t, some it => congrArg (_ ++ ·) (enc_compressed t it)
  | _, _, .array _ t, val => by
      have hsame : (fun it => enc fl true t (compressed fl t it)) = fun it => enc fl true t it :=
        funext (enc_compressed t)
      rw [compressed, enc, enc, List.Vector.toList_map, List.flatMap_map, hsame]
  | _, _, @Ty.map _ _ _ _ k t, val => by
      have hsize : (val.mapValues fun it => compressed fl t it).size = val.size :=
        List.length_map _
      rw [compressed, enc, enc, hsize, OrderedMap.mapValues, List.flatMap_map]
      simp only [enc_compressed t]
  | _, _, .pair s t, val => congrArg₂ (· ++ ·) (enc_compressed s val.1) (enc_compressed t val.2)
  | _, _, .noParams, _ => rfl
  | _, _, .param _ t rest, val =>
      congrArg₂ (· ++ ·) (enc_compressed t val.1) (enc_compressed rest val.2)
  | _, _, .eigen _ _ (.raw _) _, _ => rfl
  | _, _, .eigen rows cols .double _, val =>
      congrArg (fun b => encExtent rows val.rowCount ++ (encExtent cols val.colCount ++ b))
        (flatMap_encDouble fl val.data)
  | _, _, .custom fields t, val => by
      rw [compressed, enc, enc, Equiv.apply_symm_apply, enc_compressed t]
  | _, _, .timePoint, _ => rfl
  | _, _, .configuration _, _ => rfl

/-! ## On the archive -/

/-- Decoded into a fresh target, the encoding of the value gives the compressed value, and that
has the same encoding. -/
def Projects {o : Bool} {α : Type} (t : Ty o α) (opts : ArchiveOptions) (val : α) : Prop :=
  ∀ (target : α) (beyond : ℕ → UInt8), Fresh t target →
    ∃ back ar, decode fl t target opts beyond (serialize fl t val opts) = .ok back ar ∧
      back = compressed fl t val ∧ serialize fl t back opts = serialize fl t val opts

/-- **Compression is a projection**, of every value whose counts fit their fields and whose
encoding the index of the archive can count. -/
theorem compression_projects (fl : FloatCast) {o : Bool} {α : Type} {t : Ty o α}
    (ht : Compressible true t) (opts : ArchiveOptions) (hopts : opts.compressDouble = true)
    (val : α) (hcounts : CountsFit t val)
    (hlen : (serialize fl t val opts).buffer_.length < 2 ^ 32) : Projects fl t opts val := by
  intro target beyond hfresh
  have hbytes : (serialize fl t val opts).buffer_ =
      enc fl opts.compressDouble t val ++ [] := by rw [serialize_eq, List.append_nil]
  rw [serialize_eq] at hlen
  have hopen := follows_open (serialize fl t val opts).buffer_ opts beyond
  rw [hbytes] at hopen
  obtain ⟨ar, hrun, -⟩ := reads_enc_follows t target hcounts hopen (by rwa [Nat.zero_add])
  rw [hopts, readBack_eq_compressed fl ht hfresh] at hrun
  refine ⟨_, ar, ?_, rfl, ?_⟩
  · rw [decode, hbytes, hopts]
    exact hrun
  · have hsame : (serialize fl t (compressed fl t val) opts).buffer_ =
        (serialize fl t val opts).buffer_ := by
      rw [serialize_eq, serialize_eq, hopts, enc_compressed]
    exact congrArg Packet.mk hsame

/-- A list of doubles, and an optional double that is not set. -/
theorem compression_projects_doubles :
    Projects default (.pair (.vector .double) (.optional .double)) ⟨true⟩
      ([5#64, 1#64 <<< 40], none) :=
  compression_projects default (.pair (.vector .double) (.optional .double)) ⟨true⟩ rfl _
    ⟨⟨by decide, fun _ _ => trivial⟩, fun _ _ => trivial⟩ (by decide)

/-- Behind the strings `giant` and an empty string a byte is read from the start of the archive,
where the count of the strings is. -/
theorem compression_projects_fails :
    ¬Projects default (.pair (.vector .string) (.pair .string (.pod (.raw .w8)))) ⟨true⟩
      (giant, [], 1#8) := by
  intro h
  obtain ⟨back, ar, hdecode, hback, -⟩ := h ([], [], 0) (fun _ => 0) ⟨rfl, trivial, trivial⟩
  obtain ⟨ar₁, ar₂, hrun₁, hrun₂, hidx, -, hstr, -⟩ := @run_wrap default ⟨true⟩ (fun _ => 0) [1]
  have hbytes : (serialize default (.pair (.vector .string) (.pair .string (.pod (.raw .w8))))
      (giant, [], 1#8) ⟨true⟩).buffer_ =
        enc default true (.vector .string) giant ++ ([0, 0] ++ [1]) := by
    rw [serialize_eq]
    rfl
  have hbyte : (loadPod BinaryFromArchive.archive (.raw .w8)).run ar₂ =
      .ok (255#8) (ar₂.advance 1) := by
    obtain ⟨rest, hrest⟩ := @enc_giant_head default true
    have hfit : ar₂.idx_ + 1 ≤ ar₂.string_.length := by
      rw [hidx, hstr, hrest]
      simp
    have hblock : ar₂.block 1 = [255] := by
      rw [BinaryFromArchive.block_eq_slice hfit, hidx, hstr, hrest]
      rfl
    have hload := BinaryFromArchive.run_load_of_lt (show ar₂.idx_ < ar₂.string_.length by omega) 1
    rw [loadPod]
    refine (run_bind_ok hload _).trans ?_
    rw [hblock]
    rfl
  rw [decode, hbytes, load, run_bind_ok hrun₁, load, bind_assoc, run_bind_ok hrun₂] at hdecode
  rw [load, bind_assoc, run_bind_ok hbyte] at hdecode
  have hread : (giant, [], 255#8) = back := (EStateM.Result.ok.inj hdecode).1
  have hlast := congrArg (fun x => x.2.2) (hread.trans hback)
  exact absurd hlast (by decide)

end CpsCore.dp

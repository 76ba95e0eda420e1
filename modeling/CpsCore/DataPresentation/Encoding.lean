import Mathlib
import CpsCore.DataPresentation.BasicSerialization

/-!
# The encoding of a value

`store` appends, whatever the archive, one block of bytes that depends on the value and on the
`compressDouble` option alone: `enc`.  The other half is what `load` makes of such a block,
`readBack`; it is not always the value itself, because a target keeps what it held.

* `store_eq` — storing appends `enc`.
* `CountsFit` — every count fits its size field; `Fits` asks the same of enumerators.
* `Fresh` — the vectors of a target are empty and its optionals unset.
* `Survives` — the condition for `readBack` to return the value (`readBack_eq_self_iff`).
* `Settles` — what it says of the target, for values that fit and without compression
  (`readBack_eq_iff`): wherever an element is read into a temporary, the default of the element
  type must be as fresh as the element needs it to be.
-/

namespace CpsCore.dp

variable (fl : FloatCast) (c : Bool)

/-! ## What `store` appends -/

def encCount (w : IntWidth) (n : ℕ) : Bytes := w.toBytes (BitVec.ofNat w.bits n)

def encString (str : Bytes) : Bytes := encCount .w16 str.length ++ str

def encDouble (d : BitVec 64) : Bytes :=
  if c then IntWidth.w32.toBytes (fl.narrow d) else IntWidth.w64.toBytes d

def encCoefficients : (s : Scalar) → {n : ℕ} → List.Vector s.Value n → Bytes
  | .raw w, _, v => v.toList.flatMap w.toBytes
  | .double, _, v => v.toList.flatMap (encDouble fl c)

def encExtent : Extent → ℕ → Bytes
  | .dynamic, k => encCount .w64 k
  | .static _, _ => []

/-- The bytes of a value. -/
def enc : {o : Bool} → {α : Type} → Ty o α → α → Bytes
  | _, _, .pod p, val => p.toBytes val
  | _, _, .enum _, val => encCount .w8 val.toNat
  | _, _, .double, val => encDouble fl c val
  | _, _, .string, val => encString val
  | _, _, .vector t, val => encCount .w16 val.length ++ val.flatMap fun it => enc t it
  | _, _, .optional _, none => Pod.bool.toBytes false
  | _, _, .optional t, some it => Pod.bool.toBytes true ++ enc t it
  | _, _, .array _ t, val => val.toList.flatMap fun it => enc t it
  | _, _, @Ty.map _ _ _ _ k t, val =>
      encCount .w8 val.size ++ val.entries.flatMap fun it => enc k it.1 ++ enc t it.2
  | _, _, .pair s t, val => enc s val.1 ++ enc t val.2
  | _, _, .noParams, _ => []
  | _, _, .param _ t rest, val => enc t val.1 ++ enc rest val.2
  | _, _, .eigen rows cols s _, val =>
      encExtent rows val.rowCount ++ (encExtent cols val.colCount ++ encCoefficients fl c s val.data)
  | _, _, .custom fields t, val => enc t (fields val)
  | _, _, .timePoint, val => encCount .w8 0 ++ IntWidth.w64.toBytes val
  | _, _, .configuration lib, val => encString (lib.dump val)

/-- What the `store` templates rely on: blocks are appended one behind the other, and appending
does not touch the options. -/
structure ToArchive.Lawful {σ : Type} (A : ToArchive σ) : Prop where
  append_nil : ∀ ar, A.append [] ar = ar
  append_append : ∀ b b' ar, A.append b' (A.append b ar) = A.append (b ++ b') ar
  compressDouble_append : ∀ b ar, A.compressDouble (A.append b ar) = A.compressDouble ar

lemma BinaryToArchive.lawful : ToArchive.Lawful BinaryToArchive.archive where
  append_nil ar := by simp [BinaryToArchive.archive, BinaryToArchive.append]
  append_append b b' ar := by simp [BinaryToArchive.archive, BinaryToArchive.append]
  compressDouble_append _ _ := rfl

section Store

variable {σ : Type} {A : ToArchive σ}

lemma foldl_append_eq (hA : ToArchive.Lawful A) {β : Type*} {f : σ → β → σ} {g : Bool → β → Bytes}
    (hf : ∀ ar b, f ar b = A.append (g (A.compressDouble ar) b) ar) :
    ∀ (l : List β) (ar : σ), l.foldl f ar = A.append (l.flatMap (g (A.compressDouble ar))) ar
  | [], ar => by rw [List.foldl_nil, List.flatMap_nil, hA.append_nil]
  | b :: l, ar => by
      rw [List.foldl_cons, foldl_append_eq hA hf l, hf, hA.compressDouble_append,
        hA.append_append, List.flatMap_cons]

lemma storeExtent_eq (hA : ToArchive.Lawful A) : ∀ (e : Extent) (k : ℕ) (ar : σ),
    storeExtent A e k ar = A.append (encExtent e k) ar
  | .dynamic, _, _ => rfl
  | .static _, _, ar => (hA.append_nil ar).symm

lemma storeCoefficients_eq : ∀ (s : Scalar) {n : ℕ} (v : List.Vector s.Value n) (ar : σ),
    storeCoefficients fl A s v ar = A.append (encCoefficients fl (A.compressDouble ar) s v) ar
  | .raw _, _, _, _ => rfl
  | .double, _, v, ar => by
      rw [storeCoefficients, encCoefficients]
      cases A.compressDouble ar <;> rfl

/-- **Storing appends the encoding.**  The option is read again for every double, and no
operation changes it. -/
theorem store_eq (hA : ToArchive.Lawful A) : ∀ {o : Bool} {α : Type} (t : Ty o α) (val : α)
    (ar : σ), store fl A t val ar = A.append (enc fl (A.compressDouble ar) t val) ar
  | _, _, .pod p, val, ar => rfl
  | _, _, .enum _, val, ar => rfl
  | _, _, .double, val, ar => by
      rw [store, enc, encDouble]
      cases A.compressDouble ar <;> rfl
  | _, _, .string, val, ar => by
      rw [store, storeString, storeCount, hA.append_append]
      rfl
  | _, _, .vector t, val, ar => by
      have hitems := @foldl_append_eq _ _ hA _ _ (fun c it => enc fl c t it)
        (fun ar it => store_eq hA t it ar) val (storeCount A .w16 val.length ar)
      rw [store, hitems, storeCount, hA.compressDouble_append, hA.append_append]
      rfl
  | _, _, .optional _, none, ar => rfl
  | _, _, .optional t, some it, ar => by
      show store fl A t it (A.append (Pod.bool.toBytes true) ar) = _
      rw [store_eq hA t, hA.compressDouble_append, hA.append_append]
      rfl
  | _, _, .array _ t, val, ar => by
      rw [store, @foldl_append_eq _ _ hA _ _ (fun c it => enc fl c t it)
        fun ar it => store_eq hA t it ar]
      rfl
  | _, _, @Ty.map _ _ _ _ k t, val, ar => by
      have hentry : ∀ (ar : σ) (it : _ × _), store fl A t it.2 (store fl A k it.1 ar) =
          A.append (enc fl (A.compressDouble ar) k it.1 ++ enc fl (A.compressDouble ar) t it.2)
            ar := by
        intro ar it
        rw [store_eq hA k, store_eq hA t, hA.compressDouble_append, hA.append_append]
      have hitems := @foldl_append_eq _ _ hA _ _
        (fun c it => enc fl c k it.1 ++ enc fl c t it.2) hentry val.entries
        (storeCount A .w8 val.size ar)
      rw [store, hitems, storeCount, hA.compressDouble_append, hA.append_append]
      rfl
  | _, _, .pair s t, val, ar => by
      rw [store, store_eq hA s, store_eq hA t, hA.compressDouble_append, hA.append_append]
      rfl
  | _, _, .noParams, val, ar => (hA.append_nil ar).symm
  | _, _, .param _ t rest, val, ar => by
      rw [store, store_eq hA t, store_eq hA rest, hA.compressDouble_append, hA.append_append]
      rfl
  | _, _, .eigen rows cols s _, val, ar => by
      rw [store, storeCoefficients_eq, storeExtent_eq hA, storeExtent_eq hA,
        hA.compressDouble_append, hA.compressDouble_append, hA.append_append, hA.append_append]
      rfl
  | _, _, .custom fields t, val, ar => store_eq hA t (fields val) ar
  | _, _, .timePoint, val, ar => by
      rw [store, storeCount, hA.append_append]
      rfl
  | _, _, .configuration lib, val, ar => by
      rw [store, storeString, storeCount, hA.append_append]
      rfl

end Store

/-! ## What `load` makes of it -/

def backDouble (d : BitVec 64) : BitVec 64 := if c then fl.widen (fl.narrow d) else d

def backCoefficients : (s : Scalar) → {n : ℕ} → List.Vector s.Value n → List.Vector s.Value n
  | .raw _, _, v => v
  | .double, _, v => v.map (backDouble fl c)

/-- The object `prior` after the encoding of `val` was read into it. -/
def readBack : {o : Bool} → {α : Type} → Ty o α → α → α → α
  | _, _, .pod _, _, val => val
  | _, _, .enum w, _, val => BitVec.ofNat w.bits (val.toNat % 256)
  | _, _, .double, _, val => backDouble fl c val
  | _, _, .string, _, val => val
  | _, _, .vector t, prior, val => prior ++ val.map fun it => readBack t t.default it
  | _, _, .optional _, prior, none => prior
  | _, _, .optional t, _, some it => some (readBack t t.default it)
  | _, _, .array _ t, _, val => val.map fun it => readBack t t.default it
  | _, _, @Ty.map _ _ _ _ k t, _, val =>
      OrderedMap.ofList (val.entries.map fun it =>
        (readBack k k.default it.1, readBack t t.default it.2))
  | _, _, .pair s t, prior, val => (readBack s prior.1 val.1, readBack t prior.2 val.2)
  | _, _, .noParams, _, _ => ()
  | _, _, .param _ t rest, prior, val => (readBack t prior.1 val.1, readBack rest prior.2 val.2)
  | _, _, .eigen _ _ s _, _, val => { val with data := backCoefficients fl c s val.data }
  | _, _, .custom fields t, prior, val => fields.symm (readBack t (fields prior) (fields val))
  | _, _, .timePoint, _, val => val
  | _, _, .configuration lib, _, val => lib.reread val

/-- Every count fits its size field, every enumerator its byte, and every configuration has a
text of its own. -/
def Fits : {o : Bool} → {α : Type} → Ty o α → α → Prop
  | _, _, .enum _, val => val.toNat < 2 ^ 8
  | _, _, .string, val => val.length < 2 ^ 16
  | _, _, .vector t, val => val.length < 2 ^ 16 ∧ ∀ it ∈ val, Fits t it
  | _, _, .optional t, val => ∀ it ∈ val, Fits t it
  | _, _, .array _ t, val => ∀ it ∈ val.toList, Fits t it
  | _, _, @Ty.map _ _ _ _ k t, val =>
      val.size < 2 ^ 8 ∧ ∀ it ∈ val.entries, Fits k it.1 ∧ Fits t it.2
  | _, _, .pair s t, val => Fits s val.1 ∧ Fits t val.2
  | _, _, .param _ t rest, val => Fits t val.1 ∧ Fits rest val.2
  | _, _, .custom fields t, val => Fits t (fields val)
  | _, _, .configuration lib, val => (lib.dump val).length < 2 ^ 16 ∧ lib.reread val = val
  | _, _, _, _ => True

/-- Every count fits its size field. -/
def CountsFit : {o : Bool} → {α : Type} → Ty o α → α → Prop
  | _, _, .string, val => val.length < 2 ^ 16
  | _, _, .vector t, val => val.length < 2 ^ 16 ∧ ∀ it ∈ val, CountsFit t it
  | _, _, .optional t, val => ∀ it ∈ val, CountsFit t it
  | _, _, .array _ t, val => ∀ it ∈ val.toList, CountsFit t it
  | _, _, @Ty.map _ _ _ _ k t, val =>
      val.size < 2 ^ 8 ∧ ∀ it ∈ val.entries, CountsFit k it.1 ∧ CountsFit t it.2
  | _, _, .pair s t, val => CountsFit s val.1 ∧ CountsFit t val.2
  | _, _, .param _ t rest, val => CountsFit t val.1 ∧ CountsFit rest val.2
  | _, _, .custom fields t, val => CountsFit t (fields val)
  | _, _, .configuration lib, val => (lib.dump val).length < 2 ^ 16
  | _, _, _, _ => True

lemma Fits.countsFit : ∀ {o : Bool} {α : Type} (t : Ty o α) {val : α}, Fits t val → CountsFit t val
  | _, _, .pod _, _, _ => trivial
  | _, _, .enum _, _, _ => trivial
  | _, _, .double, _, _ => trivial
  | _, _, .string, _, h => h
  | _, _, .vector t, _, h => ⟨h.1, fun it hit => Fits.countsFit t (h.2 it hit)⟩
  | _, _, .optional t, _, h => fun it hit => Fits.countsFit t (h it hit)
  | _, _, .array _ t, _, h => fun it hit => Fits.countsFit t (h it hit)
  | _, _, @Ty.map _ _ _ _ k t, _, h =>
      ⟨h.1, fun it hit => ⟨Fits.countsFit k (h.2 it hit).1, Fits.countsFit t (h.2 it hit).2⟩⟩
  | _, _, .pair s t, _, h => ⟨Fits.countsFit s h.1, Fits.countsFit t h.2⟩
  | _, _, .noParams, _, _ => trivial
  | _, _, .param _ t rest, _, h => ⟨Fits.countsFit t h.1, Fits.countsFit rest h.2⟩
  | _, _, .eigen _ _ _ _, _, _ => trivial
  | _, _, .custom _ t, _, h => Fits.countsFit t h
  | _, _, .timePoint, _, _ => trivial
  | _, _, .configuration _, _, h => h.1

/-- Every vector in the object is empty and every optional unset. -/
def Fresh : {o : Bool} → {α : Type} → Ty o α → α → Prop
  | _, _, .vector _, val => val = []
  | _, _, .optional _, val => val = none
  | _, _, .array _ t, val => ∀ it ∈ val.toList, Fresh t it
  | _, _, @Ty.map _ _ _ _ _ t, val => ∀ it ∈ val.entries, Fresh t it.2
  | _, _, .pair s t, val => Fresh s val.1 ∧ Fresh t val.2
  | _, _, .param _ t rest, val => Fresh t val.1 ∧ Fresh rest val.2
  | _, _, .custom fields t, val => Fresh t (fields val)
  | _, _, _, _ => True

/-- `val` comes back unchanged when read into `prior`: a vector finds an empty vector, an unset
optional an unset optional.  Elements of containers are read into the default of their type. -/
def Settles : {o : Bool} → {α : Type} → Ty o α → α → α → Prop
  | _, _, .vector t, prior, val => prior = [] ∧ ∀ it ∈ val, Settles t t.default it
  | _, _, .optional _, prior, none => prior = none
  | _, _, .optional t, _, some it => Settles t t.default it
  | _, _, .array _ t, _, val => ∀ it ∈ val.toList, Settles t t.default it
  | _, _, @Ty.map _ _ _ _ _ t, _, val => ∀ it ∈ val.entries, Settles t t.default it.2
  | _, _, .pair s t, prior, val => Settles s prior.1 val.1 ∧ Settles t prior.2 val.2
  | _, _, .param _ t rest, prior, val => Settles t prior.1 val.1 ∧ Settles rest prior.2 val.2
  | _, _, .custom fields t, prior, val => Settles t (fields prior) (fields val)
  | _, _, _, _, _ => True

/-- What becomes of coefficients that go through a `float`. -/
def SurvivesNarrowing : (s : Scalar) → List s.Value → Prop
  | .raw _, _ => True
  | .double, v => ∀ d ∈ v, c = true → fl.widen (fl.narrow d) = d

/-- `val` comes back unchanged when read into `prior`, whatever it is: besides `Settles`,
enumerators fit their byte, compressed doubles are floats, and configurations are what their text
says.  Only the size fields are left out. -/
def Survives : {o : Bool} → {α : Type} → Ty o α → α → α → Prop
  | _, _, .enum _, _, val => val.toNat < 2 ^ 8
  | _, _, .double, _, val => c = true → fl.widen (fl.narrow val) = val
  | _, _, .vector t, prior, val => prior = [] ∧ ∀ it ∈ val, Survives t t.default it
  | _, _, .optional _, prior, none => prior = none
  | _, _, .optional t, _, some it => Survives t t.default it
  | _, _, .array _ t, _, val => ∀ it ∈ val.toList, Survives t t.default it
  | _, _, @Ty.map _ _ _ _ k t, _, val =>
      ∀ it ∈ val.entries, Survives k k.default it.1 ∧ Survives t t.default it.2
  | _, _, .pair s t, prior, val => Survives s prior.1 val.1 ∧ Survives t prior.2 val.2
  | _, _, .param _ t rest, prior, val => Survives t prior.1 val.1 ∧ Survives rest prior.2 val.2
  | _, _, .eigen _ _ s _, _, val => SurvivesNarrowing fl c s val.data.toList
  | _, _, .custom fields t, prior, val => Survives t (fields prior) (fields val)
  | _, _, .configuration lib, _, val => lib.reread val = val
  | _, _, _, _, _ => True

/-- The elements inside `val` settle in the defaults of their types. -/
def ElementsSettle : {o : Bool} → {α : Type} → Ty o α → α → Prop
  | _, _, .vector t, val => ∀ it ∈ val, Settles t t.default it
  | _, _, .optional t, val => ∀ it ∈ val, Settles t t.default it
  | _, _, .array _ t, val => ∀ it ∈ val.toList, Settles t t.default it
  | _, _, @Ty.map _ _ _ _ _ t, val => ∀ it ∈ val.entries, Settles t t.default it.2
  | _, _, .pair s t, val => ElementsSettle s val.1 ∧ ElementsSettle t val.2
  | _, _, .param _ t rest, val => ElementsSettle t val.1 ∧ ElementsSettle rest val.2
  | _, _, .custom fields t, val => ElementsSettle t (fields val)
  | _, _, _, _ => True

/-- In a fresh target only the elements matter. -/
lemma settles_iff_of_fresh : ∀ {o : Bool} {α : Type} (t : Ty o α) {prior : α} (val : α),
    Fresh t prior → (Settles t prior val ↔ ElementsSettle t val)
  | _, _, .pod _, _, _, _ => Iff.rfl
  | _, _, .enum _, _, _, _ => Iff.rfl
  | _, _, .double, _, _, _ => Iff.rfl
  | _, _, .string, _, _, _ => Iff.rfl
  | _, _, .vector t, prior, val, h => and_iff_right h
  | _, _, .optional t, prior, none, h => by
      rw [Settles, ElementsSettle]
      exact ⟨fun _ it hit => absurd hit (by simp), fun _ => h⟩
  | _, _, .optional t, prior, some it, _ => by
      rw [Settles, ElementsSettle]
      simp only [Option.mem_def, Option.some.injEq, forall_eq']
  | _, _, .array _ t, _, _, _ => Iff.rfl
  | _, _, @Ty.map _ _ _ _ _ t, _, _, _ => Iff.rfl
  | _, _, .pair s t, prior, val, h =>
      and_congr (settles_iff_of_fresh s val.1 h.1) (settles_iff_of_fresh t val.2 h.2)
  | _, _, .noParams, _, _, _ => Iff.rfl
  | _, _, .param _ t rest, prior, val, h =>
      and_congr (settles_iff_of_fresh t val.1 h.1) (settles_iff_of_fresh rest val.2 h.2)
  | _, _, .eigen _ _ _ _, _, _, _ => Iff.rfl
  | _, _, .custom fields t, prior, val, h => settles_iff_of_fresh t (fields val) h
  | _, _, .timePoint, _, _, _ => Iff.rfl
  | _, _, .configuration _, _, _, _ => Iff.rfl

lemma append_map_eq_self_iff {β : Type} {f : β → β} {l l' : List β} :
    l' ++ l.map f = l ↔ l' = [] ∧ ∀ b ∈ l, f b = b := by
  constructor
  · intro h
    have hlen := congrArg List.length h
    rw [List.length_append, List.length_map] at hlen
    obtain rfl : l' = [] := List.eq_nil_of_length_eq_zero (by omega)
    exact ⟨rfl, map_eq_self_iff.mp h⟩
  · rintro ⟨rfl, h⟩
    exact map_eq_self_iff.mpr h

lemma backDouble_eq_self_iff {d : BitVec 64} :
    backDouble fl c d = d ↔ (c = true → fl.widen (fl.narrow d) = d) := by
  cases c <;> simp [backDouble]

lemma backCoefficients_eq_self_iff : ∀ (s : Scalar) {n : ℕ} (v : List.Vector s.Value n),
    backCoefficients fl c s v = v ↔ SurvivesNarrowing fl c s v.toList
  | .raw _, _, _ => by simp only [backCoefficients, SurvivesNarrowing]
  | .double, _, v =>
      vector_map_eq_self_iff.trans (forall₂_congr fun _ _ => backDouble_eq_self_iff fl c)

lemma backCoefficients_off : ∀ (s : Scalar) {n : ℕ} (v : List.Vector s.Value n),
    backCoefficients fl false s v = v
  | .raw _, _, _ => rfl
  | .double, _, _ => vector_map_eq_self_iff.mpr fun _ _ => rfl

lemma ofNat_mod_eq_self_iff {w : IntWidth} {val : BitVec w.bits} :
    BitVec.ofNat w.bits (val.toNat % 256) = val ↔ val.toNat < 2 ^ 8 := by
  have hbits : val.toNat % 256 < 2 ^ w.bits := by
    have h₁ : val.toNat % 256 < 2 ^ 8 := Nat.mod_lt _ (by decide)
    have h₂ : 2 ^ 8 ≤ 2 ^ w.bits := Nat.pow_le_pow_right (by decide) (by
      have h := w.bytes_pos
      show 8 ≤ 8 * w.bytes
      omega)
    omega
  rw [← BitVec.toNat_inj, BitVec.toNat_ofNat, Nat.mod_eq_of_lt hbits]
  omega

/-- A type with an `operator<` contains no parameter set, so its default is fresh throughout:
what was read into it once is read again as it is. -/
lemma readBack_readBack : ∀ {o : Bool} {α : Type} (t : Ty o α) (_ : o = true) (val : α),
    readBack fl c t t.default (readBack fl c t t.default val) = readBack fl c t t.default val
  | _, _, .pod _, _, _ => rfl
  | _, _, .enum w, _, val => by
      have hlt : (BitVec.ofNat w.bits (val.toNat % 256)).toNat < 2 ^ 8 :=
        lt_of_le_of_lt (Nat.mod_le _ _) (Nat.mod_lt _ (by decide))
      exact ofNat_mod_eq_self_iff.mpr hlt
  | _, _, .double, _, val => by
      show backDouble fl c (backDouble fl c val) = backDouble fl c val
      cases c <;> simp [backDouble, fl.narrow_widen]
  | _, _, .string, _, _ => rfl
  | _, _, .vector t, ho, val => by
      show ([] ++ List.map _ ([] ++ List.map _ val)) = [] ++ List.map _ val
      rw [List.nil_append, List.nil_append, List.map_map]
      exact List.map_congr_left fun it _ => readBack_readBack t ho it
  | _, _, .optional _, _, none => rfl
  | _, _, .optional t, ho, some it => congrArg some (readBack_readBack t ho it)
  | _, _, .array _ t, ho, val => by
      show (val.map _).map _ = val.map _
      refine vector_map_eq_self_iff.mpr fun it hit => ?_
      rw [List.Vector.toList_map, List.mem_map] at hit
      obtain ⟨it, -, rfl⟩ := hit
      exact readBack_readBack t ho it
  | _, _, @Ty.map _ _ _ _ k t, ho, val => by
      -- the entries of the map that was read come from the list, and each is read as it is
      rw [readBack, map_eq_self_iff.mpr, OrderedMap.ofList_entries]
      intro it hit
      obtain ⟨it, -, rfl⟩ := List.mem_map.mp (OrderedMap.mem_of_mem_ofList hit)
      exact Prod.ext (readBack_readBack k rfl it.1) (readBack_readBack t ho it.2)
  | _, _, .pair s t, ho, val =>
      have ho := Bool.and_eq_true_iff.mp ho
      Prod.ext (readBack_readBack s ho.1 val.1) (readBack_readBack t ho.2 val.2)
  | _, _, .custom fields t, ho, val => by
      simp only [readBack, Ty.default, Equiv.apply_symm_apply, readBack_readBack t ho]
  | _, _, .timePoint, _, _ => rfl

/-- **When the value comes back.** -/
theorem readBack_eq_self_iff : ∀ {o : Bool} {α : Type} (t : Ty o α) (prior val : α),
    readBack fl c t prior val = val ↔ Survives fl c t prior val
  | _, _, .pod _, _, _ => by simp only [readBack, Survives]
  | _, _, .enum _, _, _ => ofNat_mod_eq_self_iff
  | _, _, .double, _, _ => backDouble_eq_self_iff fl c
  | _, _, .string, _, _ => by simp only [readBack, Survives]
  | _, _, .vector t, prior, val => by
      rw [readBack, append_map_eq_self_iff, Survives]
      exact and_congr_right fun _ => forall₂_congr fun it _ =>
        readBack_eq_self_iff t t.default it
  | _, _, .optional _, prior, none => by simp only [readBack, Survives]
  | _, _, .optional t, prior, some it => by
      rw [readBack, Option.some_inj, Survives]
      exact readBack_eq_self_iff t t.default it
  | _, _, .array _ t, prior, val => by
      rw [readBack, vector_map_eq_self_iff, Survives]
      exact forall₂_congr fun it _ => readBack_eq_self_iff t t.default it
  | _, _, @Ty.map _ _ _ _ k t, prior, val => by
      have hentry : ∀ it : _ × _, (readBack fl c k k.default it.1,
          readBack fl c t t.default it.2) = it ↔
          Survives fl c k k.default it.1 ∧ Survives fl c t t.default it.2 := fun it => by
        rw [Prod.ext_iff, ← readBack_eq_self_iff k, ← readBack_eq_self_iff t]
      rw [readBack, Survives]
      refine Iff.trans ⟨fun h => ?_, fun h => ?_⟩ (forall₂_congr fun it _ => hentry it)
      · -- every key of the map was read once, so the entries arrive in the order of the map
        have hkey : ∀ it ∈ val.entries, readBack fl c k k.default it.1 = it.1 := by
          intro it hit
          rw [← h] at hit
          obtain ⟨it, -, rfl⟩ := List.mem_map.mp (OrderedMap.mem_of_mem_ofList hit)
          exact readBack_readBack fl c k rfl it.1
        refine map_eq_self_iff.mp ((OrderedMap.ofList_of_sorted ?_).symm.trans (congrArg _ h))
        have hkeys : (val.entries.map fun it => readBack fl c k k.default it.1) =
            val.entries.map Prod.fst := List.map_congr_left hkey
        rw [List.map_map]
        exact hkeys ▸ val.sorted
      · rw [map_eq_self_iff.mpr h, OrderedMap.ofList_entries]
  | _, _, .pair s t, prior, val => by
      rw [readBack, Prod.ext_iff, Survives]
      exact and_congr (readBack_eq_self_iff s _ _) (readBack_eq_self_iff t _ _)
  | _, _, .noParams, _, _ => by simp only [readBack, Survives]
  | _, _, .param _ t rest, prior, val => by
      rw [readBack, Prod.ext_iff, Survives]
      exact and_congr (readBack_eq_self_iff t _ _) (readBack_eq_self_iff rest _ _)
  | _, _, .eigen _ _ s _, _, val => by
      rw [readBack, Survives, ← backCoefficients_eq_self_iff]
      cases val
      simp only [EigenMatrix.mk.injEq, heq_eq_eq, true_and]
  | _, _, .custom fields t, prior, val => by
      rw [readBack, Equiv.symm_apply_eq, Survives]
      exact readBack_eq_self_iff t _ _
  | _, _, .timePoint, _, _ => by simp only [readBack, Survives]
  | _, _, .configuration _, _, _ => Iff.rfl

/-- A type with an `operator<` contains no parameter set, so its default is fresh throughout. -/
lemma settles_of_ordered : ∀ {o : Bool} {α : Type} (t : Ty o α) (_ : o = true) (val : α),
    Settles t t.default val
  | _, _, .pod _, _, _ => trivial
  | _, _, .enum _, _, _ => trivial
  | _, _, .double, _, _ => trivial
  | _, _, .string, _, _ => trivial
  | _, _, .vector t, ho, _ => ⟨rfl, fun it _ => settles_of_ordered t ho it⟩
  | _, _, .optional _, _, none => rfl
  | _, _, .optional t, ho, some it => settles_of_ordered t ho it
  | _, _, .array _ t, ho, _ => fun it _ => settles_of_ordered t ho it
  | _, _, @Ty.map _ _ _ _ _ t, ho, _ => fun it _ => settles_of_ordered t ho it.2
  | _, _, .pair s t, ho, _ =>
      have ho := Bool.and_eq_true_iff.mp ho
      ⟨settles_of_ordered s ho.1 _, settles_of_ordered t ho.2 _⟩
  | _, _, .custom fields t, ho, val => by
      rw [Settles, Ty.default, Equiv.apply_symm_apply]
      exact settles_of_ordered t ho (fields val)
  | _, _, .timePoint, _, _ => trivial

/-- What fits survives, without compression, where it settles. -/
lemma survives_iff_settles : ∀ {o : Bool} {α : Type} (t : Ty o α) (prior val : α), Fits t val →
    (Survives fl false t prior val ↔ Settles t prior val)
  | _, _, .pod _, _, _, _ => Iff.rfl
  | _, _, .enum _, _, _, h => iff_true_intro h
  | _, _, .double, _, _, _ => iff_true_intro nofun
  | _, _, .string, _, _, _ => Iff.rfl
  | _, _, .vector t, _, _, h => and_congr_right fun _ => forall₂_congr fun it hit =>
      survives_iff_settles t t.default it (h.2 it hit)
  | _, _, .optional _, _, none, _ => Iff.rfl
  | _, _, .optional t, _, some it, h => survives_iff_settles t t.default it (h it rfl)
  | _, _, .array _ t, _, _, h => forall₂_congr fun it hit =>
      survives_iff_settles t t.default it (h it hit)
  | _, _, @Ty.map _ _ _ _ k t, _, _, h => by
      refine forall₂_congr fun it hit => ?_
      rw [survives_iff_settles k k.default it.1 (h.2 it hit).1,
        survives_iff_settles t t.default it.2 (h.2 it hit).2]
      exact and_iff_right (settles_of_ordered k rfl it.1)
  | _, _, .pair s t, _, _, h =>
      and_congr (survives_iff_settles s _ _ h.1) (survives_iff_settles t _ _ h.2)
  | _, _, .noParams, _, _, _ => Iff.rfl
  | _, _, .param _ t rest, _, _, h =>
      and_congr (survives_iff_settles t _ _ h.1) (survives_iff_settles rest _ _ h.2)
  | _, _, .eigen _ _ (.raw _) _, _, _, _ => Iff.rfl
  | _, _, .eigen _ _ .double _, _, _, _ => iff_true_intro fun _ _ => nofun
  | _, _, .custom fields t, _, _, h => survives_iff_settles t _ _ h
  | _, _, .timePoint, _, _, _ => Iff.rfl
  | _, _, .configuration _, _, _, h => iff_true_intro h.2

/-- When the value comes back, for what fits and without compression. -/
theorem readBack_eq_iff {o : Bool} {α : Type} (t : Ty o α) (prior val : α) (h : Fits t val) :
    readBack fl false t prior val = val ↔ Settles t prior val :=
  (readBack_eq_self_iff fl false t prior val).trans (survives_iff_settles fl t prior val h)

end CpsCore.dp

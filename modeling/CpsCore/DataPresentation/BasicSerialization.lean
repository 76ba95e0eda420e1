import Mathlib
import CpsCore.DataPresentation.Archive

/-!
# `dp::store` and `dp::load`

The overloads of `BasicSerializationImpl.hpp`, one case for each type of the grammar, generic
in the archive as the templates are.  `load` takes the object it reads into: vectors push onto
what they hold, an unset optional leaves what it holds, pairs, parameter sets and custom
structs are read in place, everything else is overwritten.

A count is written through a `static_cast` to its field, sixteen bits for strings and vectors
and eight bits for maps, so a longer container is written with the low bits of its size.
`std::vector<bool>` is no type of the grammar for the code (its `store` does not compile); the
recursion treats it like any other vector.
-/

namespace CpsCore.dp

open StateExcept

variable {σ : Type} (fl : FloatCast)

/-! ## Storing -/

section Store

variable (A : ToArchive σ)

/-- `ar << static_cast<T>(n)` for an unsigned `T`. -/
def storeCount (w : IntWidth) (n : ℕ) : σ → σ := A.append (w.toBytes (BitVec.ofNat w.bits n))

def storeString (str : Bytes) (ar : σ) : σ :=
  A.append str (storeCount A .w16 str.length ar)

/-- A coefficient block, as floats when doubles are compressed. -/
def storeCoefficients : (s : Scalar) → {n : ℕ} → List.Vector s.Value n → σ → σ
  | .raw w, _, v, ar => A.append (v.toList.flatMap w.toBytes) ar
  | .double, _, v, ar =>
      if A.compressDouble ar then
        A.append (v.toList.flatMap fun d => IntWidth.w32.toBytes (fl.narrow d)) ar
      else
        A.append (v.toList.flatMap IntWidth.w64.toBytes) ar

/-- `rows` or `cols` is only written when the type does not fix it. -/
def storeExtent : Extent → ℕ → σ → σ
  | .dynamic, k, ar => storeCount A .w64 k ar
  | .static _, _, ar => ar

/-- `ar << val`. -/
def store : {o : Bool} → {α : Type} → Ty o α → α → σ → σ
  | _, _, .pod p, val, ar => A.append (p.toBytes val) ar
  | _, _, .enum _, val, ar => storeCount A .w8 val.toNat ar
  | _, _, .double, val, ar =>
      if A.compressDouble ar then A.append (IntWidth.w32.toBytes (fl.narrow val)) ar
      else A.append (IntWidth.w64.toBytes val) ar
  | _, _, .string, val, ar => storeString A val ar
  | _, _, .vector t, val, ar =>
      val.foldl (fun ar it => store t it ar) (storeCount A .w16 val.length ar)
  | _, _, .optional t, val, ar =>
      let ar := A.append (Pod.bool.toBytes val.isSome) ar
      match val with
      | none => ar
      | some it => store t it ar
  | _, _, .array _ t, val, ar => val.toList.foldl (fun ar it => store t it ar) ar
  | _, _, @Ty.map _ _ _ _ k t, val, ar =>
      val.entries.foldl (fun ar it => store t it.2 (store k it.1 ar))
        (storeCount A .w8 val.size ar)
  | _, _, .pair s t, val, ar => store t val.2 (store s val.1 ar)
  | _, _, .noParams, _, ar => ar
  | _, _, .param _ t rest, val, ar => store rest val.2 (store t val.1 ar)
  | _, _, .eigen rows cols s _, val, ar =>
      storeCoefficients fl A s val.data
        (storeExtent A cols val.colCount (storeExtent A rows val.rowCount ar))
  | _, _, .custom fields t, val, ar => store t (fields val) ar
  | _, _, .timePoint, val, ar =>
      -- `Clock::duration` counts nanoseconds, whose `TimeUnit` is 0
      A.append (IntWidth.w64.toBytes val) (storeCount A .w8 0 ar)
  | _, _, .configuration lib, val, ar => storeString A (lib.dump val) ar

end Store

/-! ## Loading -/

section Load

variable (A : FromArchive σ)

/-- `load(ar, reinterpret_cast<char*>(&val), sizeof(PODType))`. -/
def loadPod {α : Type} (p : Pod α) : EStateM Exn σ α := do
  let bytes ← A.load p.size
  pure (p.ofBytes bytes)

def loadString : EStateM Exn σ Bytes := do
  let size ← loadPod A (.raw .w16)
  A.read size.toNat

/-- An extent as an `Eigen::Index`: from the archive, or from the type. -/
def loadExtent : Extent → EStateM Exn σ ℤ
  | .dynamic => do
      let index ← loadPod A (.raw .w64)
      pure index.toInt
  | .static n => pure n

/-- `val.resize(rows, cols)`: refused for negative extents and for more coefficients than the
address space holds. -/
def resize (rows cols : Extent) (s : Scalar) (r c : ℤ) :
    Option {p : ℕ × ℕ // rows.Admits p.1 ∧ cols.Admits p.2 ∧ Allocatable s p.1 p.2} :=
  if h : (0 ≤ r ∧ 0 ≤ c) ∧
      rows.Admits r.toNat ∧ cols.Admits c.toNat ∧ Allocatable s r.toNat c.toNat then
    some ⟨(r.toNat, c.toNat), h.2⟩
  else none

def loadCoefficients : (s : Scalar) → (n : ℕ) → EStateM Exn σ (List.Vector s.Value n)
  | .raw w, n => do
      let bytes ← A.read (n * w.bytes)
      pure (chunks w.bytes w.ofBytes n bytes)
  | .double, n => do
      let ar ← get
      if A.compressDouble ar then
        let bytes ← A.read (n * 4)
        pure (chunks 4 (fun b => fl.widen (IntWidth.w32.ofBytes b)) n bytes)
      else
        let bytes ← A.read (n * 8)
        pure (chunks 8 IntWidth.w64.ofBytes n bytes)

def loadEigen (rows cols : Extent) (s : Scalar) : EStateM Exn σ (EigenMatrix rows cols s) := do
  let r ← loadExtent A rows
  let c ← loadExtent A cols
  match resize rows cols s r c with
  | none => throw .badAlloc
  | some ⟨(rowCount, colCount), h⟩ =>
      let data ← loadCoefficients fl A s (rowCount * colCount)
      pure ⟨rowCount, colCount, data, h.1, h.2.1, h.2.2⟩

/-- Nanoseconds in one tick of a `TimeUnit`. -/
def nanosecondsPer : ℕ → Option ℕ
  | 0 => some 1
  | 1 => some 1000
  | 2 => some 1000000
  | 3 => some 1000000000
  | 4 => some 60000000000
  | 5 => some 3600000000000
  | _ => none

/-- `ar >> val`, given what `val` holds before. -/
def load : {o : Bool} → {α : Type} → Ty o α → α → EStateM Exn σ α
  | _, _, .pod p, _ => loadPod A p
  | _, _, .enum w, _ => do
      let e ← loadPod A (.raw .w8)
      pure (BitVec.ofNat w.bits e.toNat)
  | _, _, .double, _ => do
      let ar ← get
      if A.compressDouble ar then
        let flo ← loadPod A (.raw .w32)
        pure (fl.widen flo)
      else loadPod A (.raw .w64)
  | _, _, .string, _ => loadString A
  | _, _, .vector t, val => do
      let size ← loadPod A (.raw .w16)
      iterate size.toNat (fun val => do
        let tmp ← load t t.default
        pure (val ++ [tmp])) val
  | _, _, .optional t, val => do
      let init ← loadPod A .bool
      if init then
        let temp ← load t t.default
        pure (some temp)
      else pure val
  | _, _, .array n t, _ => collect (load t t.default) (n + 1)
  | _, _, @Ty.map _ _ _ _ k t, _ => do
      let size ← loadPod A (.raw .w8)
      iterate size.toNat (fun val => do
        let keyTmp ← load k k.default
        let valTmp ← load t t.default
        pure (val.insert keyTmp valTmp)) OrderedMap.empty
  | _, _, .pair s t, val => do
      let first ← load s val.1
      let second ← load t val.2
      pure (first, second)
  | _, _, .noParams, _ => pure ()
  | _, _, .param _ t rest, val => do
      let value ← load t val.1
      let others ← load rest val.2
      pure (value, others)
  | _, _, .eigen rows cols s _, _ => loadEigen fl A rows cols s
  | _, _, .custom fields t, val => do
      let content ← load t (fields val)
      pure (fields.symm content)
  | _, _, .timePoint, val => do
      let unit ← loadPod A (.raw .w8)
      match nanosecondsPer unit.toNat with
      | some scale =>
          let rep ← loadPod A (.raw .w64)
          pure (rep * BitVec.ofNat IntWidth.w64.bits scale : BitVec IntWidth.w64.bits)
      | none => pure val
  | _, _, .configuration lib, _ => do
      let data ← loadString A
      -- `parseConfigString` leaves an empty text a null configuration
      if data = [] then pure lib.null
      else
        match lib.parse data with
        | some c => pure c
        | none => throw .parseError

end Load

end CpsCore.dp

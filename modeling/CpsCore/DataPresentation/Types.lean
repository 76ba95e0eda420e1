import Mathlib
import CpsCore.Lib.LittleEndian
import CpsCore.Lib.OrderedMap

/-!
# The types the archives support

`BasicSerialization.h` picks a `load`/`store` pair by the C++ type of the value.  The grammar of
types it accepts is the family `Ty`, indexed by the Lean type of the values, so `store` and
`load` (`BasicSerialization.lean`) are recursions over the type the overload resolution sees.

* `Pod` — objects copied as raw bytes: integers of either sign, `bool`, `float`, arrays of
  these, and the one byte of an empty struct (`std::array<T, 0>`).
* `EigenMatrix` — matrices with static or dynamic extents, stored in column order.
* `Ty` — everything else.  The Boolean index says whether the C++ type has an `operator<`;
  only such a type can be the key of a `std::map`.

Invariants are fields: a map is sorted, a matrix has as many coefficients as its extents say
and fits the address space.
-/

namespace CpsCore

abbrev Bytes := List UInt8

/-! ## Fixed-width numbers -/

/-- The widths of the fixed-width integers. -/
inductive IntWidth
  | w8 | w16 | w32 | w64
  deriving DecidableEq, Repr

namespace IntWidth

/-- `sizeof` of the integer. -/
def bytes : IntWidth → ℕ
  | w8 => 1
  | w16 => 2
  | w32 => 4
  | w64 => 8

abbrev bits (w : IntWidth) : ℕ := 8 * w.bytes

/-- The object representation, on the little-endian hosts the library is built for. -/
def toBytes (w : IntWidth) (v : BitVec w.bits) : Bytes := LittleEndian.ofNat w.bytes v.toNat

def ofBytes (w : IntWidth) (bs : Bytes) : BitVec w.bits :=
  BitVec.ofNat w.bits (LittleEndian.toNat bs)

@[simp] lemma length_toBytes (w : IntWidth) (v : BitVec w.bits) :
    (w.toBytes v).length = w.bytes := LittleEndian.length_ofNat _ _

@[simp] lemma ofBytes_toBytes (w : IntWidth) (v : BitVec w.bits) :
    w.ofBytes (w.toBytes v) = v := by
  have hv : v.toNat < 256 ^ w.bytes := by
    have h := v.isLt
    rwa [pow_mul] at h
  rw [ofBytes, toBytes, LittleEndian.toNat_ofNat_of_lt hv, BitVec.ofNat_toNat]
  simp

/-- Every block of the width is what its number is written as. -/
lemma toBytes_ofBytes {w : IntWidth} {bs : Bytes} (h : bs.length = w.bytes) :
    w.toBytes (w.ofBytes bs) = bs := by
  have hlt : LittleEndian.toNat bs < 2 ^ w.bits := by
    have hbs := LittleEndian.toNat_lt bs
    rwa [h, show (256 : ℕ) = 2 ^ 8 from rfl, ← pow_mul] at hbs
  rw [ofBytes, toBytes, BitVec.toNat_ofNat, Nat.mod_eq_of_lt hlt, ← h, LittleEndian.ofNat_toNat]

lemma bytes_pos (w : IntWidth) : 0 < w.bytes := by cases w <;> decide

end IntWidth

/-! ## Plain old data -/

/-- Types the archives copy with one `memcpy` of `sizeof` bytes. -/
inductive Pod : Type → Type 1
  /-- An integer of either sign, a `float`, or (inside an array) a `double` or an enumerator:
  objects whose bytes are the little-endian bytes of their value. -/
  | raw (w : IntWidth) : Pod (BitVec w.bits)
  | bool : Pod Bool
  /-- An empty struct such as `std::array<T, 0>`: one byte that holds no value. -/
  | empty : Pod Unit
  | array {α : Type} (n : ℕ) (p : Pod α) : Pod (List.Vector α (n + 1))

/-- Cuts `n` blocks of `size` bytes and reads each. -/
def chunks {α : Type} (size : ℕ) (f : Bytes → α) : (n : ℕ) → Bytes → List.Vector α n
  | 0, _ => List.Vector.nil
  | n + 1, bs => f (bs.take size) ::ᵥ chunks size f n (bs.drop size)

lemma chunks_flatMap {α β : Type} {size : ℕ} {f : Bytes → β} {g : α → Bytes}
    (hlen : ∀ a, (g a).length = size) :
    ∀ {n : ℕ} (v : List.Vector α n), chunks size f n (v.toList.flatMap g) = v.map fun a => f (g a)
  | 0, v => by rw [List.Vector.eq_nil v]; rfl
  | n + 1, v => by
      obtain ⟨a, v', rfl⟩ := v.exists_eq_cons
      have htake : ((a ::ᵥ v').toList.flatMap g).take size = g a := by
        rw [List.Vector.toList_cons, List.flatMap_cons, ← hlen a, List.take_left]
      have hdrop : ((a ::ᵥ v').toList.flatMap g).drop size = v'.toList.flatMap g := by
        rw [List.Vector.toList_cons, List.flatMap_cons, ← hlen a, List.drop_left]
      rw [chunks, htake, hdrop, chunks_flatMap hlen v', List.Vector.map_cons]

lemma map_eq_self_iff {α : Type} {f : α → α} {l : List α} : l.map f = l ↔ ∀ a ∈ l, f a = a := by
  have h := @List.map_inj_left _ _ l f id
  rwa [List.map_id] at h

lemma vector_map_eq_self_iff {α : Type} {n : ℕ} {f : α → α} {v : List.Vector α n} :
    v.map f = v ↔ ∀ a ∈ v.toList, f a = a := by
  have hlist : v.map f = v ↔ v.toList.map f = v.toList := by
    rw [← List.Vector.toList_map]
    exact ⟨congrArg _, fun h => List.Vector.toList_injective h⟩
  rw [hlist, map_eq_self_iff]

lemma length_flatMap_const {α : Type} {g : α → Bytes} {size : ℕ}
    (hlen : ∀ a, (g a).length = size) (l : List α) :
    (l.flatMap g).length = l.length * size := by
  induction l with
  | nil => simp
  | cons a l ih => rw [List.flatMap_cons, List.length_append, hlen, ih, List.length_cons]; ring

namespace Pod

/-- `sizeof`. -/
def size : {α : Type} → Pod α → ℕ
  | _, raw w => w.bytes
  | _, bool => 1
  | _, empty => 1
  | _, array n p => (n + 1) * p.size

def toBytes : {α : Type} → Pod α → α → Bytes
  | _, raw w, v => w.toBytes v
  | _, bool, b => [if b then 1 else 0]
  | _, empty, _ => [0]
  | _, array _ p, v => v.toList.flatMap p.toBytes

/-- The object whose representation is `bs`.  Any non-zero byte is a set `bool`. -/
def ofBytes : {α : Type} → Pod α → Bytes → α
  | _, raw w, bs => w.ofBytes bs
  | _, bool, bs => bs.head? != some 0
  | _, empty, _ => ()
  | _, array n p, bs => chunks p.size p.ofBytes (n + 1) bs

/-- A default-initialised object; the code overwrites it before it is read. -/
def default : {α : Type} → Pod α → α
  | _, raw w => (0 : BitVec w.bits)
  | _, bool => false
  | _, empty => ()
  | _, array n p => List.Vector.replicate (n + 1) p.default

@[simp] lemma length_toBytes : ∀ {α : Type} (p : Pod α) (v : α), (p.toBytes v).length = p.size
  | _, raw w, v => w.length_toBytes v
  | _, bool, _ => rfl
  | _, empty, _ => rfl
  | _, array n p, v => by
      rw [toBytes, length_flatMap_const (length_toBytes p), List.Vector.toList_length, size]

@[simp] lemma ofBytes_toBytes : ∀ {α : Type} (p : Pod α) (v : α), p.ofBytes (p.toBytes v) = v
  | _, raw w, v => w.ofBytes_toBytes v
  | _, bool, b => by cases b <;> rfl
  | _, empty, _ => rfl
  | _, array _ p, v =>
      (chunks_flatMap (length_toBytes p) v).trans
        (vector_map_eq_self_iff.mpr fun a _ => ofBytes_toBytes p a)

lemma size_pos : ∀ {α : Type} (p : Pod α), 0 < p.size
  | _, raw w => w.bytes_pos
  | _, bool => Nat.one_pos
  | _, empty => Nat.one_pos
  | _, array n p => Nat.mul_pos n.succ_pos p.size_pos

end Pod

/-! ## Floating point and archive options -/

/-- The two conversions between `double` and `float`, on bit patterns.  All the library relies
on is that a widened `float` narrows back to itself. -/
structure FloatCast where
  narrow : BitVec 64 → BitVec 32
  widen : BitVec 32 → BitVec 64
  narrow_widen : ∀ f, narrow (widen f) = f

/-- Some pair of conversions with that law, for evaluations in which no `double` occurs. -/
instance : Inhabited FloatCast where
  default :=
    { narrow := fun d => d.setWidth 32
      widen := fun f => f.setWidth 64
      narrow_widen := fun f => by simp [BitVec.setWidth_setWidth_of_le] }

/-- `ArchiveOptions`: doubles are written as floats unless switched off. -/
structure ArchiveOptions where
  compressDouble : Bool := true
  deriving DecidableEq, Repr

/-! ## Matrices -/

/-- A compile-time extent, or `Eigen::Dynamic`. -/
inductive Extent
  | dynamic
  | static (n : ℕ)
  deriving DecidableEq, Repr

/-- The coefficient type of a matrix; only `double` is affected by compression. -/
inductive Scalar
  | raw (w : IntWidth)
  | double
  deriving DecidableEq, Repr

namespace Scalar

def width : Scalar → IntWidth
  | raw w => w
  | double => .w64

abbrev Value (s : Scalar) : Type := BitVec s.width.bits

end Scalar

namespace Extent

/-- The run-time extent `k` is possible for the extent in the type. -/
def Admits : Extent → ℕ → Prop
  | dynamic, _ => True
  | static n, k => k = n

instance : ∀ (e : Extent) (k : ℕ), Decidable (e.Admits k)
  | dynamic, _ => .isTrue trivial
  | static n, k => inferInstanceAs (Decidable (k = n))

/-- The extent of a default-constructed matrix. -/
def initial : Extent → ℕ
  | dynamic => 0
  | static n => n

lemma admits_initial : ∀ e : Extent, e.Admits e.initial
  | dynamic => trivial
  | static _ => rfl

end Extent

/-- `resize` accepts the extents: they are `Eigen::Index` values and the coefficients fit the
address space.  Past that Eigen throws `std::bad_alloc`. -/
def Allocatable (s : Scalar) (r c : ℕ) : Prop :=
  r < 2 ^ 63 ∧ c < 2 ^ 63 ∧ r * c * s.width.bytes < 2 ^ 63

instance (s : Scalar) (r c : ℕ) : Decidable (Allocatable s r c) :=
  inferInstanceAs (Decidable (_ ∧ _ ∧ _))

/-- A matrix with its coefficients in storage order. -/
structure EigenMatrix (rows cols : Extent) (s : Scalar) where
  rowCount : ℕ
  colCount : ℕ
  data : List.Vector s.Value (rowCount * colCount)
  rows_admits : rows.Admits rowCount
  cols_admits : cols.Admits colCount
  allocatable : Allocatable s rowCount colCount

/-- A default-constructed matrix: dynamic extents are zero. -/
def EigenMatrix.default (rows cols : Extent) (s : Scalar)
    (h : Allocatable s rows.initial cols.initial) : EigenMatrix rows cols s where
  rowCount := rows.initial
  colCount := cols.initial
  data := List.Vector.replicate _ 0
  rows_admits := rows.admits_initial
  cols_admits := cols.admits_initial
  allocatable := h

/-! ## The type grammar -/

/-- What the codec uses of the JSON library, for the documents that `dump` accepts.  A dumped
document is never the empty string and is parsed again, as the document `reread`: the document
itself, unless it holds something JSON has no text for (NaN and the infinities are dumped as
null). -/
structure JsonText (J : Type) where
  null : J
  dump : J → Bytes
  parse : Bytes → Option J
  reread : J → J
  dump_ne_nil : ∀ j, dump j ≠ []
  parse_dump : ∀ j, parse (dump j) = some (reread j)

/-- The C++ types an archive can stream, indexed by whether they have an `operator<` and by
the Lean type of their values. -/
inductive Ty : Bool → Type → Type 1
  | pod {α : Type} (p : Pod α) : Ty true α
  /-- An enumeration, by its underlying integer. -/
  | enum (w : IntWidth) : Ty true (BitVec w.bits)
  /-- A `double` on its own, which goes through `operator<<(const double&)`. -/
  | double : Ty true (BitVec 64)
  | string : Ty true Bytes
  | vector {o : Bool} {α : Type} (t : Ty o α) : Ty o (List α)
  | optional {o : Bool} {α : Type} (t : Ty o α) : Ty o (Option α)
  /-- `std::array` of a type that is not plain old data. -/
  | array {o : Bool} {α : Type} (n : ℕ) (t : Ty o α) : Ty o (List.Vector α (n + 1))
  | map {o : Bool} {κ α : Type} [LinearOrder κ] (k : Ty true κ) (t : Ty o α) :
      Ty o (OrderedMap κ α)
  | pair {o₁ o₂ : Bool} {α β : Type} (s : Ty o₁ α) (t : Ty o₂ β) : Ty (o₁ && o₂) (α × β)
  /-- A parameter set that has no further parameter. -/
  | noParams : Ty false Unit
  /-- A parameter set: a `Parameter` with its default value, then the other parameters. -/
  | param {o o' : Bool} {α β : Type} (value : α) (t : Ty o α) (rest : Ty o' β) :
      Ty false (α × β)
  /-- A matrix type; static extents are small enough for an object to exist. -/
  | eigen (rows cols : Extent) (s : Scalar) (h : Allocatable s rows.initial cols.initial) :
      Ty false (EigenMatrix rows cols s)
  /-- A type whose own `dp::serialize` streams its fields one after the other, as
  `NetworkHeader`, `Hash`, `Packet` and `Angle` do. -/
  | custom {o : Bool} {α β : Type} (fields : α ≃ β) (t : Ty o β) : Ty o α
  /-- A `TimePoint`, as nanoseconds since the epoch. -/
  | timePoint : Ty true (BitVec 64)
  | configuration {J : Type} (lib : JsonText J) : Ty false J

/-- `typename Type::value_type tmp;`, the object a container decodes an element into. -/
def Ty.default : {o : Bool} → {α : Type} → Ty o α → α
  | _, _, .pod p => p.default
  | _, _, .enum w => (0 : BitVec w.bits)
  | _, _, .double => (0 : BitVec 64)
  | _, _, .string => []
  | _, _, .vector _ => []
  | _, _, .optional _ => none
  | _, _, .array n t => List.Vector.replicate (n + 1) t.default
  | _, _, @Ty.map _ _ _ _ _ _ => OrderedMap.empty
  | _, _, .pair s t => (s.default, t.default)
  | _, _, .noParams => ()
  | _, _, .param value _ rest => (value, rest.default)
  | _, _, .eigen rows cols s h => EigenMatrix.default rows cols s h
  | _, _, .custom fields t => fields.symm t.default
  | _, _, .timePoint => (0 : BitVec 64)
  | _, _, .configuration lib => lib.null

end CpsCore

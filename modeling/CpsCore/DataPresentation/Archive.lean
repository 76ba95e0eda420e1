import Mathlib
import CpsCore.DataPresentation.Types
import CpsCore.Lib.StateExcept

/-!
# Archives

The serialization templates are generic in the archive.  What they use of one is collected in
two records, `ToArchive` and `FromArchive`, over the archive object's own state; the binary
archives are the instances this file supplies.

`BinaryFromArchive` has two ways to take bytes out of its string, and they check differently:

* `dp::load` goes through `begin`, which only looks at the first byte of the block;
* `read` does not look at all.

Both then `memcpy` and `consume`.  A block that sticks out of the string therefore reads what
follows the string in memory, which is the field `beyond`.  `idx_` is an `unsigned int`, so
`consume` counts modulo `2 ^ 32`.
-/

namespace CpsCore

/-- What a decoding function can throw: `ArchiveError`, the `std::bad_alloc` of an impossible
matrix, the parse error of the JSON library. -/
inductive Exn
  | archiveError (what : String)
  | badAlloc
  | parseError
  deriving DecidableEq, Repr

/-- What the `store` templates use of an archive. -/
structure ToArchive (σ : Type) where
  append : Bytes → σ → σ
  compressDouble : σ → Bool

/-- What the `load` templates use of an archive: `dp::load(ar, char*, bytes)`, `ar.read(char*,
bytes)` and `ar.compressDouble()`. -/
structure FromArchive (σ : Type) where
  load : ℕ → EStateM Exn σ Bytes
  read : ℕ → EStateM Exn σ Bytes
  compressDouble : σ → Bool

/-! ## BinaryToArchive -/

/-- An archive that appends to the string it wraps. -/
structure BinaryToArchive where
  options_ : ArchiveOptions
  string_ : Bytes
  deriving DecidableEq, Repr

namespace BinaryToArchive

def append (c : Bytes) (ar : BinaryToArchive) : BinaryToArchive :=
  { ar with string_ := ar.string_ ++ c }

def compressDouble (ar : BinaryToArchive) : Bool := ar.options_.compressDouble

/-- `BinaryToArchive` as the templates see it. -/
def archive : ToArchive BinaryToArchive := ⟨append, compressDouble⟩

end BinaryToArchive

/-! ## BinaryFromArchive -/

/-- An archive that reads from the string it wraps.  `beyond` is the memory after the string's
characters; `blocks` records the blocks copied so far and is not part of the source. -/
structure BinaryFromArchive where
  options_ : ArchiveOptions
  string_ : Bytes
  beyond : ℕ → UInt8
  idx_ : ℕ
  blocks : List (ℕ × ℕ)

namespace BinaryFromArchive

/-- The constructor: reading starts at the first character. -/
def open_ (str : Bytes) (opts : ArchiveOptions) (beyond : ℕ → UInt8) : BinaryFromArchive :=
  ⟨opts, str, beyond, 0, []⟩

/-- The byte at offset `i` from the start of the string, inside it or behind it. -/
def byteAt (ar : BinaryFromArchive) (i : ℕ) : UInt8 :=
  if h : i < ar.string_.length then ar.string_[i] else ar.beyond (i - ar.string_.length)

/-- `begin`: throws unless the next byte is a character of the string. -/
def begin : EStateM Exn BinaryFromArchive Unit := do
  let ar ← get
  if ar.string_.length ≤ ar.idx_ then
    throw (.archiveError "Archive idx too large.")

/-- `memcpy(val, &string_[idx_], bytes)`. -/
def memcpy (bytes : ℕ) : EStateM Exn BinaryFromArchive Bytes := do
  let ar ← get
  set { ar with blocks := ar.blocks ++ [(ar.idx_, bytes)] }
  pure ((List.range bytes).map fun i => ar.byteAt (ar.idx_ + i))

/-- `idx_ += bytes` on an `unsigned int`. -/
def consume (bytes : ℕ) : EStateM Exn BinaryFromArchive Unit :=
  modify fun ar => { ar with idx_ := (ar.idx_ + bytes) % 2 ^ 32 }

/-- `dp::load(BinaryFromArchive&, char*, unsigned long)`. -/
def load (bytes : ℕ) : EStateM Exn BinaryFromArchive Bytes := do
  begin
  let val ← memcpy bytes
  consume bytes
  pure val

/-- `BinaryFromArchive::read`. -/
def read (bytes : ℕ) : EStateM Exn BinaryFromArchive Bytes := do
  let val ← memcpy bytes
  consume bytes
  pure val

def getConsumed (ar : BinaryFromArchive) : ℕ := ar.idx_

def compressDouble (ar : BinaryFromArchive) : Bool := ar.options_.compressDouble

/-- `BinaryFromArchive` as the templates see it. -/
def archive : FromArchive BinaryFromArchive := ⟨load, read, compressDouble⟩

/-- The archive after one block was copied. -/
def advance (ar : BinaryFromArchive) (bytes : ℕ) : BinaryFromArchive :=
  { ar with blocks := ar.blocks ++ [(ar.idx_, bytes)], idx_ := (ar.idx_ + bytes) % 2 ^ 32 }

/-- The bytes of the next block. -/
def block (ar : BinaryFromArchive) (bytes : ℕ) : Bytes :=
  (List.range bytes).map fun i => ar.byteAt (ar.idx_ + i)

/-! ### What the two primitives do -/

lemma run_read (ar : BinaryFromArchive) (bytes : ℕ) :
    (read bytes).run ar = .ok (ar.block bytes) (ar.advance bytes) := rfl

lemma run_load_of_lt {ar : BinaryFromArchive} (h : ar.idx_ < ar.string_.length) (bytes : ℕ) :
    (load bytes).run ar = .ok (ar.block bytes) (ar.advance bytes) := by
  have hbegin : begin.run ar = .ok () ar := by
    show (if ar.string_.length ≤ ar.idx_ then _ else _ : EStateM Exn BinaryFromArchive Unit).run ar
      = _
    rw [if_neg (Nat.not_le.mpr h)]
    rfl
  rw [load, StateExcept.run_bind_ok hbegin]
  rfl

lemma run_load_of_le {ar : BinaryFromArchive} (h : ar.string_.length ≤ ar.idx_) (bytes : ℕ) :
    (load bytes).run ar = .error (.archiveError "Archive idx too large.") ar := by
  have hbegin : begin.run ar = .error (.archiveError "Archive idx too large.") ar := by
    show (if ar.string_.length ≤ ar.idx_ then _ else _ : EStateM Exn BinaryFromArchive Unit).run ar
      = _
    rw [if_pos h]
    rfl
  rw [load, StateExcept.run_bind_error hbegin]

/-- A block inside the string is the corresponding slice of the string. -/
lemma block_eq_slice {ar : BinaryFromArchive} {bytes : ℕ}
    (h : ar.idx_ + bytes ≤ ar.string_.length) :
    ar.block bytes = (ar.string_.drop ar.idx_).take bytes := by
  refine List.ext_getElem (by simp [block]; omega) fun i h₁ h₂ => ?_
  have hi : i < bytes := by simpa [block] using h₁
  simp only [block, List.getElem_map, List.getElem_range, byteAt, List.getElem_take,
    List.getElem_drop]
  rw [dif_pos (by omega)]

end BinaryFromArchive

end CpsCore

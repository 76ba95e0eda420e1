import Mathlib
import CpsCore.DataPresentation.Types
import CpsCore.Lib.XorMultiply

/-!
# `Hash`

The FNV-1a hashes of a string, over 32 and 64 bits, and the type `Hash` whose value stands for a
string in a header.

* `hash_32_fnv1a`, `hash_64_fnv1a` — the loops are the library's `hash`.
* `fnv1a_distinguishes` — strings of one length that differ in at most two neighbouring bytes have
  different hashes, and what is behind a difference cannot undo it.
-/

namespace CpsCore

def hash_32_fnv1a (str : Bytes) : BitVec 32 :=
  str.foldl (fun hash value => (hash ^^^ value.toBitVec.setWidth 32) * 0x1000193#32) 0x811c9dc5#32

def hash_64_fnv1a (str : Bytes) : BitVec 64 :=
  str.foldl (fun hash value => (hash ^^^ value.toBitVec.setWidth 64) * 0x100000001b3#64)
    0xcbf29ce484222325#64

structure Hash where
  hashValue : BitVec 32 := 0
  deriving DecidableEq, Repr

namespace Hash

/-- `Hash(const std::string&)`. -/
def ofString (string : Bytes) : Hash := ⟨hash_32_fnv1a string⟩

end Hash

/-- The values of the published test vectors, for the empty string and `"a"`. -/
example : hash_32_fnv1a [] = 0x811c9dc5#32 ∧ hash_32_fnv1a [97] = 0xe40c292c#32 ∧
    hash_64_fnv1a [97] = 0xaf63dc4c8601ec8c#64 := by decide

open XorMultiply

lemma spreads_32 : Spreads 0x1000193#32 := ⟨by decide, by decide, by decide⟩

lemma spreads_64 : Spreads 0x100000001b3#64 := ⟨by decide, by decide, by decide⟩

lemma hash_32_eq (str : Bytes) :
    hash_32_fnv1a str = hash 0x1000193#32 0x811c9dc5#32 str := rfl

lemma hash_64_eq (str : Bytes) :
    hash_64_fnv1a str = hash 0x100000001b3#64 0xcbf29ce484222325#64 str := rfl

/-- **What the hashes tell apart.**  Two strings `u ++ m ++ v` and `u ++ m' ++ v`, with `m` and
`m'` of one length and at most two bytes long, have the same hash only if they are the same
string.  And a common end never changes whether two strings collide. -/
theorem fnv1a_distinguishes (u v : Bytes) :
    (∀ m m' : Bytes, m'.length = m.length → m.length ≤ 2 →
      (Hash.ofString (u ++ m ++ v) = Hash.ofString (u ++ m' ++ v) ↔ m = m') ∧
      (hash_64_fnv1a (u ++ m ++ v) = hash_64_fnv1a (u ++ m' ++ v) ↔ m = m')) ∧
    ∀ s s' : Bytes,
      (Hash.ofString (s ++ v) = Hash.ofString (s' ++ v) ↔ Hash.ofString s = Hash.ofString s') ∧
      (hash_64_fnv1a (s ++ v) = hash_64_fnv1a (s' ++ v) ↔ hash_64_fnv1a s = hash_64_fnv1a s') := by
  constructor
  · intro m m' hlen hshort
    constructor
    · constructor
      · intro heq
        exact hash_window_injective spreads_32 _ u v hlen hshort (congrArg Hash.hashValue heq)
      · rintro rfl
        rfl
    · constructor
      · exact hash_window_injective spreads_64 _ u v hlen hshort
      · rintro rfl
        rfl
  · intro s s'
    constructor
    · constructor
      · intro heq
        have hvalue := congrArg Hash.hashValue heq
        simp only [Hash.ofString, hash_32_eq, hash_append] at hvalue
        exact congrArg Hash.mk (hash_cancel spreads_32.odd hvalue)
      · intro heq
        have hvalue := congrArg Hash.hashValue heq
        simp only [Hash.ofString, hash_32_eq] at hvalue
        simp only [Hash.ofString, hash_32_eq, hash_append, hvalue]
    · rw [hash_64_eq, hash_64_eq, hash_append, hash_append]
      constructor
      · exact hash_cancel spreads_64.odd
      · intro heq
        rw [← hash_64_eq, ← hash_64_eq, heq]

/-- Two names that differ in one letter. -/
theorem fnv1a_distinguishes_letters :
    Hash.ofString [0x63, 0x70, 0x73] ≠ Hash.ofString [0x63, 0x70, 0x74] :=
  fun heq => absurd (((fnv1a_distinguishes [0x63, 0x70] []).1 [0x73] [0x74] rfl
    (by decide)).1.mp heq) (by decide)

end CpsCore

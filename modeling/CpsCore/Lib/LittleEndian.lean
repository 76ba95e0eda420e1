import Mathlib

/-!
# Little-endian numbers

`ofNat n x` is the `n` low bytes of `x`, lowest first, and `toNat` reads such a block back.
The two facts every fixed-width field rests on are the two round trips:

* `toNat_ofNat` — writing keeps exactly `x % 256 ^ n`;
* `ofNat_toNat` — every block of bytes is what its number writes, so no two blocks of one
  width stand for the same number.
-/

namespace LittleEndian

/-- The `n` low bytes of `x`, lowest byte first. -/
def ofNat : ℕ → ℕ → List UInt8
  | 0, _ => []
  | n + 1, x => UInt8.ofNat (x % 256) :: ofNat n (x / 256)

/-- The number a block of bytes stands for, lowest byte first. -/
def toNat : List UInt8 → ℕ
  | [] => 0
  | b :: bs => b.toNat + 256 * toNat bs

@[simp] lemma length_ofNat : ∀ n x : ℕ, (ofNat n x).length = n
  | 0, _ => rfl
  | n + 1, x => by simp [ofNat, length_ofNat n]

lemma byte_toNat (x : ℕ) : (UInt8.ofNat (x % 256)).toNat = x % 256 := by
  simp [UInt8.toNat_ofNat']

/-- **Writing keeps the value modulo the width.** -/
theorem toNat_ofNat : ∀ n x : ℕ, toNat (ofNat n x) = x % 256 ^ n
  | 0, x => by simp [ofNat, toNat, Nat.mod_one]
  | n + 1, x => by
      rw [ofNat, toNat, byte_toNat, toNat_ofNat n, pow_succ', Nat.mod_mul]

/-- A block of `n` bytes stands for a number below `256 ^ n`. -/
theorem toNat_lt : ∀ bs : List UInt8, toNat bs < 256 ^ bs.length
  | [] => by simp [toNat]
  | b :: bs => by
      have hb : b.toNat < 256 := b.toNat_lt
      have ih := toNat_lt bs
      rw [toNat, List.length_cons, pow_succ']
      omega

/-- **Every block is what its number writes.** -/
theorem ofNat_toNat : ∀ bs : List UInt8, ofNat bs.length (toNat bs) = bs
  | [] => rfl
  | b :: bs => by
      have hb : b.toNat < 256 := b.toNat_lt
      have hmod : (b.toNat + 256 * toNat bs) % 256 = b.toNat := by omega
      have hdiv : (b.toNat + 256 * toNat bs) / 256 = toNat bs := by omega
      rw [toNat, List.length_cons, ofNat, hmod, hdiv, ofNat_toNat bs, UInt8.ofNat_toNat]

lemma toNat_ofNat_of_lt {n x : ℕ} (h : x < 256 ^ n) : toNat (ofNat n x) = x := by
  rw [toNat_ofNat, Nat.mod_eq_of_lt h]

end LittleEndian

import Mathlib

/-!
# Hashes that multiply

`hash p h bytes` takes in one byte after the other: exclusive or, then multiplication by `p`.
For an odd `p` no step loses anything, so what is hashed behind a difference cannot hide it.

* `hash_cancel` — two strings with the same end collide only if they collide before it.
* `step_step_injective` — two bytes in a row are never lost either, if `p` spreads a byte over the
  register without wrapping around (`Spreads`).
* `hash_window_injective` — strings that differ in two neighbouring bytes at most.
-/

namespace XorMultiply

variable {w : ℕ} {p : BitVec w}

def step (p h : BitVec w) (b : UInt8) : BitVec w := (h ^^^ b.toBitVec.setWidth w) * p

def hash (p h : BitVec w) (bytes : List UInt8) : BitVec w := bytes.foldl (step p) h

/-- Odd, and no multiple of `p` by a byte comes within a byte of zero. -/
structure Spreads (p : BitVec w) : Prop where
  odd : p.toNat % 2 = 1
  lower : 256 ≤ p.toNat
  upper : 255 * p.toNat + 256 ≤ 2 ^ w

lemma Spreads.width (hp : Spreads p) : 8 ≤ w := by
  by_contra hlt
  have hpow : 2 ^ w ≤ 2 ^ 8 := Nat.pow_le_pow_right (by decide) (by omega)
  have hlower := hp.lower
  have hupper := hp.upper
  omega

/-- An odd factor can be cancelled. -/
lemma mul_cancel (hp : p.toNat % 2 = 1) {x y : BitVec w} (h : x * p = y * p) : x = y := by
  have hmod : x.toNat * p.toNat ≡ y.toNat * p.toNat [MOD 2 ^ w] := by
    have hnat := congrArg BitVec.toNat h
    rwa [BitVec.toNat_mul, BitVec.toNat_mul] at hnat
  have hcoprime : Nat.gcd (2 ^ w) p.toNat = 1 :=
    Nat.Coprime.pow_left w (Nat.coprime_two_left.mpr (Nat.odd_iff.mpr hp))
  have hcancel := Nat.ModEq.cancel_right_of_coprime hcoprime hmod
  refine BitVec.eq_of_toNat_eq ?_
  rwa [Nat.ModEq, Nat.mod_eq_of_lt x.isLt, Nat.mod_eq_of_lt y.isLt] at hcancel

lemma xor_cancel {x y z : BitVec w} (h : x ^^^ z = y ^^^ z) : x = y := by
  have hback := congrArg (· ^^^ z) h
  simpa only [BitVec.xor_assoc, BitVec.xor_self, BitVec.xor_zero] using hback

lemma step_cancel (hp : p.toNat % 2 = 1) {h h' : BitVec w} {b : UInt8}
    (heq : step p h b = step p h' b) : h = h' :=
  xor_cancel (mul_cancel hp heq)

/-- **What follows does not hide a difference.** -/
theorem hash_cancel (hp : p.toNat % 2 = 1) {h h' : BitVec w} {bytes : List UInt8}
    (heq : hash p h bytes = hash p h' bytes) : h = h' := by
  induction bytes generalizing h h' with
  | nil => exact heq
  | cons b bytes ih => exact step_cancel hp (ih heq)

lemma hash_append (h : BitVec w) (u v : List UInt8) :
    hash p h (u ++ v) = hash p (hash p h u) v := List.foldl_append

/-- A byte leaves what is above it alone. -/
lemma toNat_xor_div (hw : 8 ≤ w) (x : BitVec w) (b : UInt8) :
    (x ^^^ b.toBitVec.setWidth w).toNat / 256 = x.toNat / 256 := by
  have hzero : (b.toBitVec.setWidth w) >>> 8 = 0#w := by
    refine BitVec.eq_of_toNat_eq ?_
    have hlt : b.toBitVec.toNat < 256 := b.toBitVec.isLt
    have hpow : 2 ^ 8 ≤ 2 ^ w := Nat.pow_le_pow_right (by decide) hw
    rw [BitVec.toNat_ushiftRight, BitVec.toNat_setWidth, Nat.mod_eq_of_lt (by omega),
      Nat.shiftRight_eq_div_pow, BitVec.toNat_zero]
    exact Nat.div_eq_of_lt hlt
  have hshift : (x ^^^ b.toBitVec.setWidth w) >>> 8 = x >>> 8 := by
    rw [BitVec.ushiftRight_xor_distrib, hzero, BitVec.xor_zero]
  have hnat := congrArg BitVec.toNat hshift
  rwa [BitVec.toNat_ushiftRight, BitVec.toNat_ushiftRight, Nat.shiftRight_eq_div_pow,
    Nat.shiftRight_eq_div_pow] at hnat

lemma byte_injective (hw : 8 ≤ w) {b b' : UInt8}
    (h : b.toBitVec.setWidth w = b'.toBitVec.setWidth w) : b = b' := by
  have hnat := congrArg BitVec.toNat h
  have hpow : 2 ^ 8 ≤ 2 ^ w := Nat.pow_le_pow_right (by decide) hw
  have hlt : b.toBitVec.toNat < 256 := b.toBitVec.isLt
  have hlt' : b'.toBitVec.toNat < 256 := b'.toBitVec.isLt
  rw [BitVec.toNat_setWidth, BitVec.toNat_setWidth, Nat.mod_eq_of_lt (by omega),
    Nat.mod_eq_of_lt (by omega)] at hnat
  exact UInt8.toBitVec_inj.mp (BitVec.eq_of_toNat_eq hnat)

lemma step_injective (hp : Spreads p) {h : BitVec w} {b b' : UInt8}
    (heq : step p h b = step p h b') : b = b' := by
  have hxor := mul_cancel hp.odd heq
  rw [BitVec.xor_comm h, BitVec.xor_comm h] at hxor
  exact byte_injective hp.width (xor_cancel hxor)

/-- Registers that differ in their lowest byte are far apart after a multiplication. -/
lemma mul_far (hp : Spreads p) {x y : BitVec w} (hhigh : x.toNat / 256 = y.toNat / 256)
    (hlt : y.toNat < x.toNat) : (x * p).toNat / 256 ≠ (y * p).toNat / 256 := by
  obtain ⟨d, hd⟩ : ∃ d, x.toNat = y.toNat + d := ⟨x.toNat - y.toNat, by omega⟩
  have hpos : 1 ≤ d := by omega
  have hsmall : d ≤ 255 := by omega
  have hlower : 256 ≤ d * p.toNat := by nlinarith [hp.lower]
  have hupper : d * p.toNat + 256 ≤ 2 ^ w := by nlinarith [hp.upper]
  have hprod : (x * p).toNat = ((y * p).toNat + d * p.toNat) % 2 ^ w := by
    rw [BitVec.toNat_mul, BitVec.toNat_mul, hd, Nat.add_mul, Nat.mod_add_mod]
  have hbound := (y * p).isLt
  generalize (y * p).toNat = v at hprod hbound ⊢
  generalize d * p.toNat = e at hlower hupper hprod
  generalize (2 : ℕ) ^ w = m at hupper hprod hbound
  rw [hprod]
  -- either the sum stays below `m`, or it wraps around once
  rcases Nat.lt_or_ge (v + e) m with hfits | hwraps
  · rw [Nat.mod_eq_of_lt hfits]
    omega
  · have hmod : (v + e) % m = v + e - m := by
      rw [Nat.mod_eq_sub_mod hwraps, Nat.mod_eq_of_lt (by omega)]
    rw [hmod]
    omega

/-- **Two bytes in a row.** -/
theorem step_step_injective (hp : Spreads p) {h : BitVec w} {a b a' b' : UInt8}
    (heq : step p (step p h a) b = step p (step p h a') b') : a = a' ∧ b = b' := by
  have hxor := mul_cancel hp.odd heq
  have hsame : (step p h a).toNat / 256 = (step p h a').toNat / 256 := by
    rw [← toNat_xor_div hp.width (step p h a) b, hxor, toNat_xor_div hp.width]
  have hhigh : (h ^^^ a.toBitVec.setWidth w).toNat / 256 =
      (h ^^^ a'.toBitVec.setWidth w).toNat / 256 := by
    rw [toNat_xor_div hp.width, toNat_xor_div hp.width]
  have hreg : h ^^^ a.toBitVec.setWidth w = h ^^^ a'.toBitVec.setWidth w := by
    refine BitVec.eq_of_toNat_eq ?_
    rcases Nat.lt_trichotomy (h ^^^ a.toBitVec.setWidth w).toNat
      (h ^^^ a'.toBitVec.setWidth w).toNat with hlt | hsame' | hgt
    · exact absurd hsame.symm (mul_far hp hhigh.symm hlt)
    · exact hsame'
    · exact absurd hsame (mul_far hp hhigh hgt)
  have ha : a = a' := by
    rw [BitVec.xor_comm h, BitVec.xor_comm h] at hreg
    exact byte_injective hp.width (xor_cancel hreg)
  subst ha
  exact ⟨rfl, step_injective hp heq⟩

/-- **Strings that differ in two neighbouring bytes at most** do not collide. -/
theorem hash_window_injective (hp : Spreads p) (h : BitVec w) (u v : List UInt8) :
    ∀ {m m' : List UInt8}, m'.length = m.length → m.length ≤ 2 →
      hash p h (u ++ m ++ v) = hash p h (u ++ m' ++ v) → m = m' := by
  intro m m' hlen hshort heq
  rw [hash_append, hash_append, hash_append, hash_append] at heq
  have hmid := hash_cancel hp.odd heq
  generalize hash p h u = g at hmid
  match m, m', hlen with
  | [], [], _ => rfl
  | [a], [a'], _ =>
      have hbyte : a = a' := step_injective hp hmid
      rw [hbyte]
  | [a, b], [a', b'], _ =>
      obtain ⟨ha, hb⟩ := step_step_injective hp hmid
      rw [ha, hb]
  | _ :: _ :: _ :: _, _, _ =>
      simp only [List.length_cons] at hshort
      omega

end XorMultiply

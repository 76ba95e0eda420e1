import Mathlib

/-!
# Cyclic redundancy codes

A list of bits is a polynomial over two elements, lowest power first.  `remainder g e` is what is
left of it after division by `x^w + g`, in a register of `w` bits.

* `next g` — multiplication by `x`: linear, and injective if `g` has a constant term.
* `foldl_eq` — a register that takes in a message word by word holds the remainder of the message.
* What is no multiple of the polynomial: an odd number of bits (`not_multiple_of_odd`), two bits
  that are closer than the order of `x` (`not_multiple_of_two`), and whatever is confined to `w`
  bits in a row (`eq_false_of_burst`).
-/

namespace CyclicCode

variable {w : ℕ} (g : BitVec w)

/-- Multiplication by `x`. -/
def next (c : BitVec w) : BitVec w := if c.msb then (c <<< 1) ^^^ g else c <<< 1

def bit (w : ℕ) (b : Bool) : BitVec w := if b then 1#w else 0#w

def remainder : List Bool → BitVec w
  | [] => 0#w
  | b :: e => bit w b ^^^ next g (remainder e)

variable {g}

/-! ## Multiplication by `x` -/

lemma xor_xor_xor_comm (a b c d : BitVec w) : a ^^^ b ^^^ (c ^^^ d) = a ^^^ c ^^^ (b ^^^ d) := by
  ac_rfl

lemma xor_eq_zero_iff {x y : BitVec w} : x ^^^ y = 0#w ↔ x = y := by
  constructor
  · intro h
    calc x = x ^^^ y ^^^ y := by rw [BitVec.xor_assoc, BitVec.xor_self, BitVec.xor_zero]
      _ = y := by rw [h, BitVec.zero_xor]
  · rintro rfl
    exact BitVec.xor_self

lemma next_zero : next g 0#w = 0#w := by simp [next]

lemma next_xor (x y : BitVec w) : next g (x ^^^ y) = next g x ^^^ next g y := by
  have hcancel : ∀ a b : BitVec w, a ^^^ b = a ^^^ g ^^^ (b ^^^ g) := by
    intro a b
    rw [xor_xor_xor_comm, BitVec.xor_self, BitVec.xor_zero]
  simp only [next, BitVec.msb_xor, BitVec.shiftLeft_xor_distrib]
  cases x.msb <;> cases y.msb
  · rfl
  · exact BitVec.xor_assoc _ _ _
  · simp only [Bool.xor_false, if_true, Bool.false_eq_true, if_false]
    ac_rfl
  · exact hcancel _ _

lemma iterate_next_zero (n : ℕ) : (next g)^[n] 0#w = 0#w :=
  Function.iterate_fixed next_zero n

lemma iterate_next_xor (n : ℕ) (x y : BitVec w) :
    (next g)^[n] (x ^^^ y) = (next g)^[n] x ^^^ (next g)^[n] y := by
  induction n generalizing x y with
  | zero => rfl
  | succ n ih => rw [Function.iterate_succ_apply, next_xor, ih]; rfl

/-- Only zero is sent to zero: what is shifted out comes back as the constant term. -/
lemma eq_zero_of_next (hg : g.getLsbD 0 = true) {x : BitVec w} (hx : next g x = 0#w) : x = 0#w := by
  have hmsb : x.msb = false := by
    by_contra htrue
    rw [Bool.not_eq_false] at htrue
    rw [next, if_pos htrue, xor_eq_zero_iff] at hx
    rw [← hx] at hg
    simp at hg
  rw [next, hmsb, if_neg Bool.false_ne_true] at hx
  refine BitVec.eq_of_getLsbD_eq fun i hi => ?_
  rw [BitVec.getLsbD_zero]
  by_cases hlast : i + 1 < w
  · have hbit : (x <<< 1).getLsbD (i + 1) = (0#w).getLsbD (i + 1) := by rw [hx]
    have hin : (decide (i + 1 < w) && !decide (i + 1 < 1)) = true := by simp [hlast]
    rw [BitVec.getLsbD_shiftLeft, BitVec.getLsbD_zero, Nat.add_sub_cancel, hin] at hbit
    exact hbit
  · have hi' : i = w - 1 := by omega
    rw [hi', ← BitVec.msb_eq_getLsbD_last, hmsb]

lemma next_injective (hg : g.getLsbD 0 = true) : Function.Injective (next g) := by
  intro x y hxy
  refine xor_eq_zero_iff.mp (eq_zero_of_next hg ?_)
  rw [next_xor, hxy, BitVec.xor_self]

/-! ## Remainders -/

lemma remainder_append (u v : List Bool) :
    remainder g (u ++ v) = remainder g u ^^^ (next g)^[u.length] (remainder g v) := by
  induction u with
  | nil => exact BitVec.zero_xor.symm
  | cons b u ih =>
      rw [List.cons_append, remainder, ih, next_xor, remainder, List.length_cons,
        Function.iterate_succ_apply', BitVec.xor_assoc]

lemma remainder_zipWith : ∀ {u v : List Bool}, u.length = v.length →
    remainder g (List.zipWith Bool.xor u v) = remainder g u ^^^ remainder g v
  | [], [], _ => BitVec.xor_zero.symm
  | b :: u, c :: v, h => by
      have hbit : bit w (b ^^ c) = bit w b ^^^ bit w c := by
        cases b <;> cases c <;> simp [bit]
      rw [List.zipWith_cons_cons, remainder, remainder_zipWith (Nat.succ.inj h), next_xor,
        remainder, remainder, xor_xor_xor_comm, hbit]

lemma remainder_of_false {e : List Bool} (he : ∀ b ∈ e, b = false) : remainder g e = 0#w := by
  induction e with
  | nil => rfl
  | cons b e ih =>
      rw [remainder, he b (by simp), ih fun c hc => he c (List.mem_cons_of_mem _ hc), next_zero]
      exact BitVec.xor_zero

/-- Few bits are their own remainder. -/
lemma getLsbD_remainder {u : List Bool} (hu : u.length ≤ w) (i : ℕ) :
    (remainder g u).getLsbD i = u.getD i false := by
  induction u generalizing i with
  | nil => simp [remainder]
  | cons b u ih =>
      have hlt : u.length < w := hu
      have ih := ih hlt.le
      have hmsb : (remainder g u).msb = false := by
        rw [BitVec.msb_eq_getLsbD_last, ih, List.getD_eq_default _ _ (by omega)]
      rw [remainder, next, hmsb, if_neg Bool.false_ne_true, BitVec.getLsbD_xor]
      cases i with
      | zero => cases b <;> simp [bit, Nat.zero_lt_of_lt hlt]
      | succ i =>
          have hbit : (bit w b).getLsbD (i + 1) = false := by cases b <;> simp [bit]
          rw [hbit, Bool.false_xor, BitVec.getLsbD_shiftLeft, List.getD_cons_succ,
            Nat.add_sub_cancel, ih]
          by_cases hi : i + 1 < w
          · simp [hi]
          · have hout : u.getD i false = false := List.getD_eq_default _ _ (by omega)
            rw [hout, Bool.and_false]

/-- The bits of a word, lowest first. -/
def bits {n : ℕ} (x : BitVec n) : List Bool := (List.range n).map x.getLsbD

@[simp] lemma length_bits {n : ℕ} (x : BitVec n) : (bits x).length = n := by simp [bits]

lemma remainder_bits {n : ℕ} (hn : n ≤ w) (x : BitVec n) :
    remainder g (bits x) = x.setWidth w := by
  refine BitVec.eq_of_getLsbD_eq fun i hi => ?_
  rw [getLsbD_remainder ((length_bits x).trans_le hn), BitVec.getLsbD_setWidth]
  by_cases hin : i < n
  · simp [bits, hin, hi]
  · rw [List.getD_eq_default _ _ (by rw [length_bits]; omega),
      BitVec.getLsbD_of_ge _ _ (Nat.not_lt.mp hin), Bool.and_false]

/-! ## Powers of `x` -/

variable (g) in
/-- The multiple of `y` by a polynomial. -/
def times (y : BitVec w) : List Bool → BitVec w
  | [] => 0#w
  | b :: e => (if b then y else 0#w) ^^^ next g (times y e)

variable (g) in
/-- Square and multiply, the exponent in binary with the highest bit first. -/
def power (exponent : List Bool) : BitVec w :=
  exponent.foldl
    (fun y b => if b then next g (times g y (bits y)) else times g y (bits y)) 1#w

lemma times_iterate (n : ℕ) (e : List Bool) :
    times g ((next g)^[n] 1#w) e = (next g)^[n] (remainder g e) := by
  induction e with
  | nil => exact (iterate_next_zero n).symm
  | cons b e ih =>
      have hbit : (if b then (next g)^[n] 1#w else 0#w) = (next g)^[n] (bit w b) := by
        cases b
        · exact (iterate_next_zero n).symm
        · rfl
      rw [times, ih, hbit, remainder, iterate_next_xor, ← Function.iterate_succ_apply,
        Function.iterate_succ_apply']

theorem power_eq (exponent : List Bool) :
    power g exponent = (next g)^[exponent.foldl (fun n b => 2 * n + b.toNat) 0] 1#w := by
  induction exponent using List.reverseRecOn with
  | nil => rfl
  | append_singleton exponent b ih =>
      rw [power, List.foldl_append, ← power, ih, List.foldl_append]
      generalize exponent.foldl (fun n b => 2 * n + b.toNat) 0 = n
      have hsquare : times g ((next g)^[n] 1#w) (bits ((next g)^[n] 1#w)) =
          (next g)^[2 * n] 1#w := by
        rw [times_iterate, remainder_bits le_rfl, BitVec.setWidth_eq, ← Function.iterate_add_apply,
          Nat.two_mul]
      cases b
      · exact hsquare
      · rw [List.foldl_cons, List.foldl_nil, if_pos rfl, hsquare]
        exact (Function.iterate_succ_apply' (next g) (2 * n) 1#w).symm

/-! ## Registers -/

/-- **A register that takes in words of `k` bits.**  `hstep` says that a word is put in front of
what the register holds. -/
theorem foldl_eq {σ : Type*} {word : σ → List Bool} {k : ℕ} (hk : ∀ s, (word s).length = k)
    {step : BitVec w → σ → BitVec w}
    (hstep : ∀ c s, step c s = (next g)^[k] c ^^^ (next g)^[w] (remainder g (word s)))
    (c : BitVec w) (ss : List σ) :
    ss.foldl step c =
      (next g)^[k * ss.length] c ^^^ (next g)^[w] (remainder g (ss.reverse.flatMap word)) := by
  induction ss using List.reverseRecOn with
  | nil => simp [remainder, iterate_next_zero]
  | append_singleton ss s ih =>
      have hcomm : ∀ x : BitVec w, (next g)^[k] ((next g)^[w] x) = (next g)^[w] ((next g)^[k] x) :=
        fun x => by rw [← Function.iterate_add_apply, Nat.add_comm, Function.iterate_add_apply]
      have hlen : k * (ss ++ [s]).length = k + k * ss.length := by
        rw [List.length_append, List.length_singleton]
        ring
      rw [List.foldl_append, List.foldl_cons, List.foldl_nil, hstep, ih, iterate_next_xor, hcomm,
        hlen, Function.iterate_add_apply, List.reverse_append, List.reverse_singleton,
        List.singleton_append, List.flatMap_cons, remainder_append, hk, iterate_next_xor,
        BitVec.xor_assoc, BitVec.xor_comm ((next g)^[w] (remainder g (word s)))]

/-! ## Errors -/

/-- The parity of the bits that are set. -/
def parity (x : BitVec w) : ZMod 2 := ∑ i : Fin w, if x.getLsbD i then 1 else 0

lemma parity_xor (x y : BitVec w) : parity (x ^^^ y) = parity x + parity y := by
  rw [parity, parity, parity, ← Finset.sum_add_distrib]
  refine Finset.sum_congr rfl fun i _ => ?_
  rw [BitVec.getLsbD_xor]
  cases x.getLsbD i <;> cases y.getLsbD i <;> decide

lemma parity_shiftLeft (x : BitVec w) :
    parity x = parity (x <<< 1) + if x.msb then 1 else 0 := by
  cases w with
  | zero => simp [parity, BitVec.msb_eq_getLsbD_last]
  | succ n =>
      rw [parity, parity, Fin.sum_univ_castSucc, Fin.sum_univ_succ, BitVec.msb_eq_getLsbD_last]
      simp

/-- A polynomial with an even number of terms keeps the parity. -/
lemma parity_next (hodd : parity g = 1) (x : BitVec w) : parity (next g x) = parity x := by
  rw [next, parity_shiftLeft x]
  cases x.msb with
  | false => simp
  | true => simp [parity_xor, hodd]

lemma parity_remainder (hw : 0 < w) (hodd : parity g = 1) (e : List Bool) :
    parity (remainder g e) = (e.count true : ZMod 2) := by
  induction e with
  | nil => simp [remainder, parity]
  | cons b e ih =>
      have hbit : parity (bit w b) = if b then 1 else 0 := by
        obtain ⟨n, rfl⟩ := Nat.exists_eq_succ_of_ne_zero hw.ne'
        cases b
        · simp [bit, parity]
        · rw [parity, Fin.sum_univ_succ]
          simp [bit]
      rw [remainder, parity_xor, parity_next hodd, ih, hbit]
      cases b <;> simp [add_comm]

theorem not_multiple_of_odd (hw : 0 < w) (hodd : parity g = 1) {e : List Bool}
    (he : Odd (e.count true)) : remainder g e ≠ 0#w := by
  intro h0
  have hpar := parity_remainder hw hodd e
  rw [h0, (ZMod.natCast_eq_one_iff_odd).mpr he] at hpar
  simp [parity] at hpar

lemma remainder_of_one : ∀ {e : List Bool}, e.count true = 1 →
    ∃ i < e.length, remainder g e = (next g)^[i] 1#w
  | true :: e, h => by
      have hzero : ∀ b ∈ e, b = false := by
        have hcount : e.count true = 0 := by simpa using h
        intro b hb
        have hne : b ≠ true := fun heq => List.count_eq_zero.mp hcount (heq ▸ hb)
        simpa using hne
      refine ⟨0, Nat.succ_pos _, ?_⟩
      rw [remainder, remainder_of_false hzero, next_zero]
      exact BitVec.xor_zero
  | false :: e, h => by
      obtain ⟨i, hi, heq⟩ := @remainder_of_one e (by simpa using h)
      refine ⟨i + 1, Nat.succ_lt_succ hi, ?_⟩
      rw [remainder, heq, Function.iterate_succ_apply']
      exact BitVec.zero_xor

lemma remainder_of_two : ∀ {e : List Bool}, e.count true = 2 →
    ∃ i j, i < j ∧ j < e.length ∧ remainder g e = (next g)^[i] 1#w ^^^ (next g)^[j] 1#w
  | true :: e, h => by
      obtain ⟨j, hj, heq⟩ := @remainder_of_one w g e (by simpa using h)
      refine ⟨0, j + 1, Nat.succ_pos _, Nat.succ_lt_succ hj, ?_⟩
      rw [remainder, heq, Function.iterate_succ_apply']
      rfl
  | false :: e, h => by
      obtain ⟨i, j, hij, hj, heq⟩ := @remainder_of_two e (by simpa using h)
      refine ⟨i + 1, j + 1, Nat.succ_lt_succ hij, Nat.succ_lt_succ hj, ?_⟩
      rw [remainder, heq, next_xor, Function.iterate_succ_apply', Function.iterate_succ_apply']
      exact BitVec.zero_xor

/-- `hN` says that the order of `x` is at least `N`. -/
theorem not_multiple_of_two (hg : g.getLsbD 0 = true) {N : ℕ}
    (hN : ∀ k, 0 < k → k < N → (next g)^[k] 1#w ≠ 1#w) {e : List Bool} (hlen : e.length ≤ N)
    (he : e.count true = 2) : remainder g e ≠ 0#w := by
  intro h0
  obtain ⟨i, j, hij, hj, heq⟩ := @remainder_of_two w g e he
  rw [heq, xor_eq_zero_iff] at h0
  have hsplit : (next g)^[j] 1#w = (next g)^[i] ((next g)^[j - i] 1#w) := by
    rw [← Function.iterate_add_apply, Nat.add_sub_cancel' hij.le]
  have hperiod := ((next_injective hg).iterate i (h0.trans hsplit)).symm
  exact hN (j - i) (by omega) (by omega) hperiod

/-- How the order is found: a period that no prime divides into a smaller one. -/
lemma iterate_ne_of_prime {α : Type*} {f : α → α} {x : α} {N : ℕ} (hN : f^[N] x = x)
    (hprime : ∀ p q, p.Prime → N = p * q → f^[q] x ≠ x) :
    ∀ k, 0 < k → k < N → f^[k] x ≠ x := by
  intro k hpos hlt hk
  have hle : Function.minimalPeriod f x ≤ k :=
    Nat.le_of_dvd hpos (Function.IsPeriodicPt.minimalPeriod_dvd hk)
  obtain ⟨c, hc⟩ : Function.minimalPeriod f x ∣ N := Function.IsPeriodicPt.minimalPeriod_dvd hN
  have hc1 : c ≠ 1 := by
    rintro rfl
    omega
  obtain ⟨p, hp, q, rfl⟩ := Nat.exists_prime_and_dvd hc1
  refine hprime p (Function.minimalPeriod f x * q) hp (by rw [hc]; ring) ?_
  exact (Function.isPeriodicPt_minimalPeriod f x).mul_const q

/-- **The distance of the code.**  Between two multiples that are not longer than the order of `x`
at least four bits differ. -/
theorem four_le_count (hw : 0 < w) (hg : g.getLsbD 0 = true) (hodd : parity g = 1) {N : ℕ}
    (hN : ∀ k, 0 < k → k < N → (next g)^[k] 1#w ≠ 1#w) {e : List Bool} (hlen : e.length ≤ N)
    (h0 : remainder g e = 0#w) (hne : e.count true ≠ 0) : 4 ≤ e.count true := by
  have heven : ¬Odd (e.count true) := fun h => not_multiple_of_odd hw hodd h h0
  have htwo : e.count true ≠ 2 := fun h => not_multiple_of_two hg hN hlen h h0
  rw [Nat.not_odd_iff_even] at heven
  obtain ⟨k, hk⟩ := heven
  omega

/-- **Bursts.**  A multiple whose bits lie in a window of `w` is zero. -/
theorem eq_false_of_burst (hg : g.getLsbD 0 = true) {p u q : List Bool}
    (hp : ∀ b ∈ p, b = false) (hq : ∀ b ∈ q, b = false) (hu : u.length ≤ w)
    (h0 : remainder g (p ++ u ++ q) = 0#w) : ∀ b ∈ u, b = false := by
  rw [List.append_assoc, remainder_append, remainder_append, remainder_of_false hp,
    remainder_of_false hq, iterate_next_zero, BitVec.xor_zero, BitVec.zero_xor] at h0
  have hzero : remainder g u = 0#w :=
    (next_injective hg).iterate p.length (h0.trans (iterate_next_zero _).symm)
  intro b hb
  obtain ⟨i, hi, rfl⟩ := List.mem_iff_getElem.mp hb
  have hbit := @getLsbD_remainder w g u hu i
  rw [hzero, BitVec.getLsbD_zero, List.getD_eq_getElem _ _ hi] at hbit
  exact hbit.symm

end CyclicCode

import Mathlib
import CpsCore.DataPresentation.Types

/-!
# `Hamming74`

A nibble becomes a codeword of seven bits in one byte, a string two codewords for each of its
bytes, the one of the lower nibble first.

* `decode_encode` — decoding an encoded string returns it and corrects nothing.
* `decode_flipped` — one flipped bit in each codeword does no harm, and is reported unless it is
  the unused eighth.
* `nibbles` — the nibbles of a string in the order they are sent; `encode` is the codeword of
  each (`encode_eq_map`), and codewords determine their nibbles (`codeword_injective`).
-/

namespace CpsCore.Hamming74

/-- Bit `i`, lowest first. -/
def getBit (val : UInt8) (i : ℕ) : Bool := (val >>> UInt8.ofNat i) &&& 1 == 1

def setBit (val : UInt8) (i : ℕ) (bit : Bool) : UInt8 :=
  (val &&& ~~~((1 : UInt8) <<< UInt8.ofNat i)) ||| (bit.toUInt8 <<< UInt8.ofNat i)

/-- `uint8_t encode(uint8_t data4)`. -/
def encodeNibble (data4 : UInt8) : UInt8 :=
  let d1 := getBit data4 0
  let d2 := getBit data4 1
  let d3 := getBit data4 2
  let d4 := getBit data4 3
  let p1 := d1 ^^ d2 ^^ d4
  let p2 := d1 ^^ d3 ^^ d4
  let p3 := d2 ^^ d3 ^^ d4
  let codeword := setBit 0 0 p1
  let codeword := setBit codeword 1 p2
  let codeword := setBit codeword 2 d1
  let codeword := setBit codeword 3 p3
  let codeword := setBit codeword 4 d2
  let codeword := setBit codeword 5 d3
  setBit codeword 6 d4

/-- `uint8_t decode(uint8_t codeword, bool& corrected)`. -/
def decodeCodeword (codeword : UInt8) : UInt8 × Bool :=
  let p1 := getBit codeword 0
  let p2 := getBit codeword 1
  let d1 := getBit codeword 2
  let p3 := getBit codeword 3
  let d2 := getBit codeword 4
  let d3 := getBit codeword 5
  let d4 := getBit codeword 6
  let s1 := p1 ^^ d1 ^^ d2 ^^ d4
  let s2 := p2 ^^ d1 ^^ d3 ^^ d4
  let s3 := p3 ^^ d2 ^^ d3 ^^ d4
  let syndrome := (s3.toUInt8 <<< 2) ||| (s2.toUInt8 <<< 1) ||| s1.toUInt8
  let corrected := syndrome != 0 && decide (syndrome ≤ 7)
  let codeword := if corrected then codeword ^^^ ((1 : UInt8) <<< (syndrome - 1)) else codeword
  let decoded := setBit 0 0 (getBit codeword 2)
  let decoded := setBit decoded 1 (getBit codeword 4)
  let decoded := setBit decoded 2 (getBit codeword 5)
  (setBit decoded 3 (getBit codeword 6), corrected)

/-- `std::string encode(const std::string& data)`. -/
def encode (data : Bytes) : Bytes :=
  data.flatMap fun byte => [encodeNibble (byte &&& 0x0F), encodeNibble (byte >>> 4)]

/-- The decoded nibbles put together two by two; a last nibble without a partner stays alone. -/
def merge : List UInt8 → Bytes
  | [] => []
  | [lsb] => [lsb &&& 0x0F]
  | lsb :: msb :: rest =>
      ((lsb &&& (0x0F : UInt8)) ||| ((msb &&& (0x0F : UInt8)) <<< 4)) :: merge rest

/-- `std::string decode(const std::string& codewords, std::vector<bool>& corrected)`. -/
def decode (codewords : Bytes) : Bytes × List Bool :=
  (merge (codewords.map fun codeword => (decodeCodeword codeword).1),
    codewords.map fun codeword => (decodeCodeword codeword).2)

/-! ## Round trip -/

/-- Facts about bytes that a table of the 256 bytes settles. -/
lemma forall_byte {P : UInt8 → Prop} (h : ∀ n : Fin 256, P (UInt8.ofNat n)) : ∀ b, P b := by
  intro b
  have hb := h ⟨b.toNat, b.toNat_lt⟩
  rwa [UInt8.ofNat_toNat] at hb

lemma decodeCodeword_encodeNibble : ∀ b : UInt8,
    decodeCodeword (encodeNibble b) = (b &&& 0x0F, false) :=
  forall_byte (by decide +kernel)

lemma merge_nibbles : ∀ b : UInt8,
    (((b &&& (0x0F : UInt8) &&& (0x0F : UInt8)) &&& (0x0F : UInt8)) |||
      ((b >>> 4 &&& (0x0F : UInt8) &&& (0x0F : UInt8)) <<< 4)) = b :=
  forall_byte (by decide +kernel)

/-- **Nothing is lost and nothing is corrected.** -/
theorem decode_encode (s : Bytes) :
    decode (encode s) = (s, List.replicate (encode s).length false) := by
  induction s with
  | nil => rfl
  | cons b s ih =>
      simp only [decode, encode, Prod.mk.injEq] at ih
      simp only [decode, encode, List.flatMap_cons, List.cons_append, List.nil_append,
        List.map_cons, merge, decodeCodeword_encodeNibble, merge_nibbles, ih, List.length_cons,
        List.replicate_succ]

lemma length_encode (s : Bytes) : (encode s).length = 2 * s.length := by
  induction s with
  | nil => rfl
  | cons b s ih =>
      rw [encode, List.flatMap_cons, List.length_append, ← encode, ih]
      simp only [List.length_cons, List.length_nil]
      omega

/-! ## Errors -/

/-- At most one bit of the byte is flipped. -/
def flipBit (error : Option (Fin 8)) (byte : UInt8) : UInt8 :=
  match error with
  | some bit => byte ^^^ ((1 : UInt8) <<< UInt8.ofNat bit)
  | none => byte

/-- Codeword `i` with the error `errors i`. -/
def flipped (errors : ℕ → Option (Fin 8)) (codewords : Bytes) : Bytes :=
  codewords.mapIdx fun i codeword => flipBit (errors i) codeword

/-- An error the code covers: a codeword has seven bits. -/
def hit (error : Option (Fin 8)) : Bool := error.any fun bit => bit < 7

/-- Facts about the lower nibbles of bytes. -/
lemma forall_nibble {P : UInt8 → Prop} (h : ∀ n : Fin 16, P (UInt8.ofNat n)) (b : UInt8) :
    P (b &&& 0x0F) := by
  have hlow : ∃ n : Fin 16, b &&& 0x0F = UInt8.ofNat n := by
    refine ⟨⟨(b &&& 0x0F).toNat, ?_⟩, by simp⟩
    rw [UInt8.toNat_and]
    exact Nat.lt_succ_of_le Nat.and_le_right
  obtain ⟨n, hn⟩ := hlow
  rw [hn]
  exact h n

/-- Only the lower nibble is encoded. -/
lemma encodeNibble_low : ∀ b : UInt8, encodeNibble (b &&& 0x0F) = encodeNibble b :=
  forall_byte (by decide +kernel)

lemma decodeCodeword_flipBit (error : Option (Fin 8)) (b : UInt8) :
    decodeCodeword (flipBit error (encodeNibble b)) = (b &&& 0x0F, hit error) := by
  cases error with
  | none => exact decodeCodeword_encodeNibble b
  | some bit =>
      have htable : ∀ bit : Fin 8, ∀ n : Fin 16,
          decodeCodeword (flipBit (some bit) (encodeNibble (UInt8.ofNat n))) =
            (UInt8.ofNat n, hit (some bit)) := by
        decide +kernel
      rw [← encodeNibble_low]
      exact @forall_nibble (fun b => decodeCodeword (flipBit (some bit) (encodeNibble b)) =
        (b, hit (some bit))) (htable bit) b

/-- Both results of decoding, with an error in every codeword. -/
lemma decode_flipped_eq (s : Bytes) (errors : ℕ → Option (Fin 8)) :
    decode (flipped errors (encode s)) =
      (s, (List.range (2 * s.length)).map fun i => hit (errors i)) := by
  induction s generalizing errors with
  | nil => rfl
  | cons b s ih =>
      have hrest := ih fun i => errors (i + 2)
      have hrange : List.range (2 * (b :: s).length) =
          0 :: 1 :: (List.range (2 * s.length)).map (· + 2) := by
        rw [List.length_cons, Nat.mul_succ, Nat.add_comm, List.range_add]
        simp [List.range_succ, Nat.add_comm]
      simp only [decode, Prod.mk.injEq] at hrest
      simp only [decode, flipped, encode, List.flatMap_cons, List.cons_append, List.nil_append,
        List.mapIdx_cons, List.map_cons, decodeCodeword_flipBit, merge, merge_nibbles, hrange,
        Prod.mk.injEq, List.cons.injEq, true_and, List.map_map]
      exact hrest

/-- **One error for each codeword is corrected.** -/
theorem decode_flipped (s : Bytes) (errors : ℕ → Option (Fin 8)) :
    (decode (flipped errors (encode s))).1 = s ∧
      (decode (flipped errors (encode s))).2.length = 2 * s.length ∧
      ∀ i (hi : i < (decode (flipped errors (encode s))).2.length),
        (decode (flipped errors (encode s))).2[i] = true ↔ ∃ bit, errors i = some bit ∧ bit < 7 := by
  rw [decode_flipped_eq]
  refine ⟨rfl, by simp, ?_⟩
  intro i hi
  simp [hit, Option.any_eq_true]

/-! ## Codewords -/

/-- The nibbles of a string as they are sent. -/
def nibbles (data : Bytes) : List UInt8 := data.flatMap fun byte => [byte &&& 0x0F, byte >>> 4]

lemma encode_eq_map (data : Bytes) : encode data = (nibbles data).map encodeNibble := by
  rw [nibbles, List.map_flatMap]
  rfl

lemma nibbles_lt (data : Bytes) : ∀ d ∈ nibbles data, d < 16 := by
  intro d hd
  obtain ⟨b, -, hb⟩ := List.mem_flatMap.mp hd
  have hboth : ∀ b : UInt8, b &&& 0x0F < 16 ∧ b >>> 4 < 16 := forall_byte (by decide +kernel)
  rcases List.mem_pair.mp hb with rfl | rfl
  · exact (hboth b).1
  · exact (hboth b).2

/-- Different nibbles have different codewords. -/
lemma codeword_injective {d e : UInt8} (hd : d < 16) (he : e < 16)
    (h : encodeNibble d = encodeNibble e) : d = e := by
  have hmask : ∀ x : UInt8, x < 16 → x &&& 0x0F = x := forall_byte (by decide +kernel)
  have hdec := congrArg decodeCodeword h
  rw [decodeCodeword_encodeNibble, decodeCodeword_encodeNibble, hmask d hd, hmask e he] at hdec
  exact congrArg Prod.fst hdec

end CpsCore.Hamming74

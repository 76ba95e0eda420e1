import Mathlib
import CpsCore.IDC.CrcGate
import CpsCore.IDC.SerialLink
import CpsCore.Lib.CyclicCode

/-!
# What the checksum of the serial link detects

The frame body of a packet is a code word of the cyclic code with the polynomial
`x^16 + x^12 + x^5 + 1`, if its bytes are taken in the order header, last byte of the packet, …,
first byte.  So what the code cannot miss is counted as corrupted and never delivered.

* `crcCcitt_eq` — the checksum as a remainder.
* `damaged_frames_rejected` — an odd number of flipped bits anywhere in the frame, or up to three
  of them in a frame of at most 4095 bytes.
* `burst_rejected` — anything that happens to 16 bits of the packet in a row, or to the header.
-/

namespace CpsCore

open CyclicCode

/-! ## The checksum as a remainder -/

abbrev crcPoly : BitVec 16 := 0x1021#16

def byteBits (b : UInt8) : List Bool := bits b.toBitVec

@[simp] lemma length_byteBits (b : UInt8) : (byteBits b).length = 8 := length_bits _

lemma crcBit_eq : crcBit = next crcPoly := rfl

lemma crcPoly_constant : crcPoly.getLsbD 0 = true := rfl

lemma crcPoly_odd : parity crcPoly = 1 := by decide

lemma crcPoly_word : ∀ b : UInt8,
    (b.toBitVec.setWidth 16) <<< 8 = (next crcPoly)^[8] (b.toBitVec.setWidth 16) :=
  Hamming74.forall_byte (by decide +kernel)

lemma crcByte_eq (crc : BitVec 16) (b : UInt8) :
    crcByte crc b =
      (next crcPoly)^[8] crc ^^^ (next crcPoly)^[16] (remainder crcPoly (byteBits b)) := by
  rw [crcByte, crcBit_eq, iterate_next_xor, crcPoly_word, ← Function.iterate_add_apply, byteBits,
    remainder_bits (by decide)]

theorem crcCcitt_eq (bytes : Bytes) :
    crcCcitt bytes = (next crcPoly)^[8 * bytes.length] 0xFFFF#16 ^^^
      (next crcPoly)^[16] (remainder crcPoly (bytes.reverse.flatMap byteBits)) :=
  foldl_eq length_byteBits crcByte_eq _ bytes

/-- **The order of `x`** is `32767 = 7 * 31 * 151`, and none of the three largest divisors. -/
theorem crcPoly_order : ∀ k, 0 < k → k < 32767 → (next crcPoly)^[k] 1#16 ≠ 1#16 := by
  have hpower : (next crcPoly)^[32767] 1#16 = 1#16 :=
    (power_eq (List.replicate 15 true)).symm.trans (by decide +kernel)
  refine iterate_ne_of_prime hpower fun p q hp hq => ?_
  have hmem : p ∣ 7 * 31 * 151 := ⟨q, hq⟩
  have hcases : p = 7 ∨ p = 31 ∨ p = 151 := by
    rcases (Nat.Prime.dvd_mul hp).mp hmem with hmem | hmem
    · rcases (Nat.Prime.dvd_mul hp).mp hmem with hmem | hmem
      · exact Or.inl ((Nat.prime_dvd_prime_iff_eq hp (by norm_num)).mp hmem)
      · exact Or.inr (Or.inl ((Nat.prime_dvd_prime_iff_eq hp (by norm_num)).mp hmem))
    · exact Or.inr (Or.inr ((Nat.prime_dvd_prime_iff_eq hp (by norm_num)).mp hmem))
  have hne : ∀ exponent : List Bool, power crcPoly exponent ≠ 1#16 →
      (next crcPoly)^[exponent.foldl (fun n b => 2 * n + b.toNat) 0] 1#16 ≠ 1#16 := by
    intro exponent hpow
    rwa [← power_eq]
  rcases hcases with rfl | rfl | rfl
  · obtain rfl : q = 4681 := by omega
    exact hne [true, false, false, true, false, false, true, false, false, true, false, false, true]
      (by decide +kernel)
  · obtain rfl : q = 1057 := by omega
    exact hne [true, false, false, false, false, true, false, false, false, false, true]
      (by decide +kernel)
  · obtain rfl : q = 217 := by omega
    exact hne [true, true, false, true, true, false, false, true] (by decide +kernel)

namespace SerialHandler

open Transition

variable {fl : FloatCast} {h : SerialHandler}

/-! ## Frames as code words -/

/-- The bytes of a frame in the order of the code: the header, and the packet backwards. -/
def codeOrder (frame : Bytes) : Bytes := frame.take 2 ++ (frame.drop 2).reverse

def codeword (frame : Bytes) : List Bool := (codeOrder frame).flatMap byteBits

/-- Where two strings of one length differ. -/
def difference (sent received : Bytes) : List Bool :=
  (List.zip sent received).flatMap fun p =>
    List.zipWith Bool.xor (byteBits p.1) (byteBits p.2)

/-- The number of bits in which they differ. -/
def bitErrors (sent received : Bytes) : ℕ := (difference sent received).count true

lemma difference_eq : ∀ {sent received : Bytes}, received.length = sent.length →
    difference sent received =
      List.zipWith Bool.xor (sent.flatMap byteBits) (received.flatMap byteBits)
  | [], [], _ => rfl
  | b :: sent, c :: received, hlen => by
      rw [List.flatMap_cons, List.flatMap_cons, List.zipWith_append (by simp),
        ← difference_eq (Nat.succ.inj hlen)]
      rfl

lemma length_difference {sent received : Bytes} (hlen : received.length = sent.length) :
    (difference sent received).length = 8 * sent.length := by
  rw [difference_eq hlen]
  simp [List.length_flatMap, hlen, Nat.mul_comm]

@[simp] lemma length_codeOrder (frame : Bytes) : (codeOrder frame).length = frame.length := by
  simp [codeOrder]
  omega

/-- The order of the bytes does not change the number of errors. -/
lemma bitErrors_codeOrder {sent received : Bytes} (hlen : received.length = sent.length) :
    bitErrors (codeOrder sent) (codeOrder received) = bitErrors sent received := by
  have htake : (sent.take 2).length = (received.take 2).length := by simp [hlen]
  have hdrop : (sent.drop 2).length = (received.drop 2).length := by simp [hlen]
  have hzip : List.zip (codeOrder sent) (codeOrder received) =
      List.zip (sent.take 2) (received.take 2) ++
        (List.zip (sent.drop 2) (received.drop 2)).reverse := by
    rw [codeOrder, codeOrder, List.zip_append htake]
    exact congrArg _ (List.reverse_zipWith hdrop).symm
  have hback : List.zip sent received = List.zip (sent.take 2) (received.take 2) ++
      List.zip (sent.drop 2) (received.drop 2) := by
    rw [← List.zip_append htake, List.take_append_drop, List.take_append_drop]
  have hperm : (List.zip (codeOrder sent) (codeOrder received)).Perm (List.zip sent received) := by
    rw [hzip, hback]
    exact (List.reverse_perm _).append_left _
  exact (hperm.flatMap_right _).count_eq true

lemma byteBits_ofNat (n : ℕ) : byteBits (UInt8.ofNat n) = (List.range 8).map n.testBit := by
  refine List.map_congr_left fun i hi => ?_
  show (BitVec.ofNat 8 n).getLsbD i = n.testBit i
  rw [BitVec.getLsbD_ofNat, decide_eq_true (List.mem_range.mp hi), Bool.true_and]

/-- The two bytes of a header hold its bits. -/
lemma flatMap_header (crc : BitVec 16) :
    (LittleEndian.ofNat 2 crc.toNat).flatMap byteBits = bits crc := by
  have hlow : byteBits (UInt8.ofNat (crc.toNat % 256)) =
      (List.range 8).map crc.getLsbD := by
    rw [byteBits_ofNat]
    refine List.map_congr_left fun i hi => ?_
    rw [Nat.testBit_mod_two_pow crc.toNat 8 i, decide_eq_true (List.mem_range.mp hi)]
    exact Bool.true_and _
  have hhigh : byteBits (UInt8.ofNat (crc.toNat / 256 % 256)) =
      (List.range 8).map fun i => crc.getLsbD (8 + i) := by
    rw [byteBits_ofNat]
    refine List.map_congr_left fun i hi => ?_
    have hdiv : (crc.toNat / 2 ^ 8).testBit i = crc.toNat.testBit (8 + i) := by
      rw [Nat.testBit_div_two_pow, Nat.add_comm]
    rw [Nat.testBit_mod_two_pow (crc.toNat / 256) 8 i, decide_eq_true (List.mem_range.mp hi)]
    exact (Bool.true_and _).trans hdiv
  calc (LittleEndian.ofNat 2 crc.toNat).flatMap byteBits
      = byteBits (UInt8.ofNat (crc.toNat % 256)) ++
          byteBits (UInt8.ofNat (crc.toNat / 256 % 256)) := by
        simp [LittleEndian.ofNat]
    _ = bits crc := by
        have hrange : List.range 16 = List.range 8 ++ (List.range 8).map (8 + ·) := rfl
        rw [hlow, hhigh, bits, hrange, List.map_append, List.map_map]
        rfl

/-- **A frame that carries a packet is a code word**: its remainder is that of its length. -/
lemma remainder_codeword (hham : h.useHammingEC_ = false) {frame : Bytes} {packet : Packet}
    (hc : Carries h crcCcitt frame packet) :
    remainder crcPoly (codeword frame) = (next crcPoly)^[8 * (frame.length - 2)] 0xFFFF#16 := by
  have hframe : frame =
      LittleEndian.ofNat 2 (crcCcitt packet.buffer_).toNat ++ packet.buffer_ := by
    rwa [Carries, decoded, hham, if_neg Bool.false_ne_true] at hc
  have hlen := LittleEndian.length_ofNat 2 (crcCcitt packet.buffer_).toNat
  have hcode : codeword frame =
      bits (crcCcitt packet.buffer_) ++ packet.buffer_.reverse.flatMap byteBits := by
    rw [codeword, codeOrder, hframe, List.take_left' hlen, List.drop_left' hlen,
      List.flatMap_append, flatMap_header]
  have hsize : frame.length - 2 = packet.buffer_.length := by
    rw [hframe, List.length_append, hlen, Nat.add_sub_cancel_left]
  rw [hcode, remainder_append, length_bits, remainder_bits le_rfl, BitVec.setWidth_eq, hsize,
    crcCcitt_eq, BitVec.xor_assoc, BitVec.xor_self, BitVec.xor_zero]

/-- The difference of two frames that carry packets is a multiple of the polynomial. -/
lemma remainder_difference (hham : h.useHammingEC_ = false) {sent received : Bytes}
    (hlen : received.length = sent.length) {p q : Packet} (hp : Carries h crcCcitt sent p)
    (hq : Carries h crcCcitt received q) :
    remainder crcPoly (difference (codeOrder sent) (codeOrder received)) = 0#16 := by
  have hcode : (codeword sent).length = (codeword received).length := by
    simp [codeword, List.length_flatMap, hlen]
  rw [difference_eq (by simp [hlen]), ← codeword, ← codeword, remainder_zipWith hcode,
    remainder_codeword hham hp, remainder_codeword hham hq, hlen, BitVec.xor_self]

/-! ## Strings without a difference -/

lemma zipWith_xor_self (u : List Bool) : ∀ b ∈ List.zipWith Bool.xor u u, b = false := by
  intro b hb
  rw [List.zipWith_self, List.mem_map] at hb
  obtain ⟨c, -, rfl⟩ := hb
  exact Bool.xor_self c

lemma eq_of_zipWith_xor : ∀ {u v : List Bool}, v.length = u.length →
    (∀ b ∈ List.zipWith Bool.xor u v, b = false) → v = u
  | [], [], _, _ => rfl
  | c :: u, d :: v, hlen, hfalse => by
      rw [List.zipWith_cons_cons] at hfalse
      have hhead : (c ^^ d) = false := hfalse _ (by simp)
      have htail := eq_of_zipWith_xor (Nat.succ.inj hlen) fun b hb =>
        hfalse b (List.mem_cons_of_mem _ hb)
      have hbit : ∀ c d : Bool, (c ^^ d) = false → d = c := by decide
      rw [htail, hbit c d hhead]

lemma byteBits_injective : Function.Injective byteBits := by
  intro b c hbits
  refine UInt8.toBitVec_inj.mp (BitVec.eq_of_getLsbD_eq fun i hi => ?_)
  exact List.map_inj_left.mp hbits i (List.mem_range.mpr hi)

lemma eq_of_flatMap_byteBits : ∀ {sent received : Bytes}, received.length = sent.length →
    received.flatMap byteBits = sent.flatMap byteBits → received = sent
  | [], [], _, _ => rfl
  | b :: sent, c :: received, hlen, hbits => by
      rw [List.flatMap_cons, List.flatMap_cons] at hbits
      obtain ⟨hhead, htail⟩ := List.append_inj hbits (by simp)
      rw [byteBits_injective hhead, eq_of_flatMap_byteBits (Nat.succ.inj hlen) htail]

lemma eq_of_bitErrors {sent received : Bytes} (hlen : received.length = sent.length)
    (hzero : bitErrors sent received = 0) : received = sent := by
  refine eq_of_flatMap_byteBits hlen (eq_of_zipWith_xor (by simp [List.length_flatMap, hlen]) ?_)
  rw [← difference_eq hlen]
  intro b hb
  have hne : b ≠ true := fun htrue => List.count_eq_zero.mp hzero (htrue ▸ hb)
  simpa using hne

lemma eq_of_codeword {sent received : Bytes} (hlen : received.length = sent.length)
    (hcode : codeword received = codeword sent) : received = sent := by
  refine eq_of_bitErrors hlen ?_
  rw [← bitErrors_codeOrder hlen, eq_of_flatMap_byteBits (by simp [hlen]) hcode, bitErrors,
    difference_eq rfl]
  exact List.count_eq_zero.mpr fun hmem => absurd (zipWith_xor_self _ _ hmem) (by simp)

/-! ## Frames that carry nothing else -/

/-- **The distance of frames.** -/
lemma eq_of_few_errors (hham : h.useHammingEC_ = false) {sent received : Bytes}
    (hlen : received.length = sent.length) {p q : Packet} (hp : Carries h crcCcitt sent p)
    (hq : Carries h crcCcitt received q)
    (herrors : Odd (bitErrors sent received) ∨
      bitErrors sent received < 4 ∧ sent.length ≤ 4095) : received = sent := by
  have h0 := remainder_difference hham hlen hp hq
  rw [← bitErrors_codeOrder hlen] at herrors
  rcases herrors with hodd | ⟨hfew, hshort⟩
  · exact absurd h0 (not_multiple_of_odd (by decide) crcPoly_odd hodd)
  · by_contra hne
    have hsome : bitErrors (codeOrder sent) (codeOrder received) ≠ 0 := by
      rw [bitErrors_codeOrder hlen]
      exact fun hzero => hne (eq_of_bitErrors hlen hzero)
    have hfour := four_le_count (by decide) crcPoly_constant crcPoly_odd crcPoly_order
      (by rw [length_difference (by simp [hlen]), length_codeOrder]; omega) h0 hsome
    exact absurd hfew (Nat.not_lt.mpr hfour)

lemma eq_of_burst (hham : h.useHammingEC_ = false) {sent received : Bytes}
    (hlen : received.length = sent.length) {p q : Packet} (hp : Carries h crcCcitt sent p)
    (hq : Carries h crcCcitt received q) {a u u' b : List Bool}
    (hsent : codeword sent = a ++ u ++ b) (hreceived : codeword received = a ++ u' ++ b)
    (hsame : u'.length = u.length) (hu : u.length ≤ 16) : received = sent := by
  have h0 := remainder_difference hham hlen hp hq
  rw [difference_eq (by simp [hlen]), ← codeword, ← codeword, hsent, hreceived,
    List.zipWith_append (by simp [hsame]), List.zipWith_append rfl] at h0
  have hzero := eq_false_of_burst crcPoly_constant (zipWith_xor_self a) (zipWith_xor_self b)
    (by simpa [hsame] using hu) h0
  refine eq_of_codeword hlen ?_
  rw [hsent, hreceived, eq_of_zipWith_xor hsame hzero]

/-! ## Runs over a channel that damages frames -/

instance (frame : Bytes) (packet : Packet) : Decidable (Carries h crcCcitt frame packet) :=
  inferInstanceAs (Decidable (_ = _))

/-- The packets that came through a channel: of each packet sent, with the frame received. -/
def through (h : SerialHandler) (channel : List (Packet × Bytes)) : List Packet :=
  (channel.filter fun c => Carries h crcCcitt c.2 c.1).map Prod.fst

lemma through_eq {channel : List (Packet × Bytes)}
    (hchannel : ∀ c ∈ channel, Carries h crcCcitt c.2 c.1 ∨ ∀ q, ¬Carries h crcCcitt c.2 q) :
    ∀ {outcomes : List (Bytes × Option Packet)}, outcomes.map Prod.fst = channel.map Prod.snd →
      (∀ o ∈ outcomes, ∀ p, o.2 = some p ↔ Carries h crcCcitt o.1 p) →
      outcomes.filterMap Prod.snd = through h channel ∧
        outcomes.countP (fun o => o.2.isNone) + (through h channel).length = channel.length := by
  induction channel with
  | nil =>
      intro outcomes hmap _
      obtain rfl := List.map_eq_nil_iff.mp hmap
      exact ⟨rfl, rfl⟩
  | cons c channel ih =>
      intro outcomes hmap hgate
      cases outcomes with
      | nil => exact absurd hmap (by simp)
      | cons o outcomes =>
          rw [List.map_cons, List.map_cons, List.cons.injEq] at hmap
          obtain ⟨hpackets, hcount⟩ := ih (fun c hc => hchannel c (List.mem_cons_of_mem _ hc))
            hmap.2 fun o ho => hgate o (List.mem_cons_of_mem _ ho)
          have ho := hgate o (by simp)
          rw [hmap.1] at ho
          rw [List.length_cons]
          rcases hchannel c (by simp) with hgood | hbad
          · have hthrough : through h (c :: channel) = c.1 :: through h channel := by
              rw [through, List.filter_cons_of_pos (by simpa using hgood)]
              rfl
            have hsome := (ho c.1).mpr hgood
            rw [hthrough, List.filterMap_cons_some hsome, hpackets, List.countP_cons_of_neg
              (by simp [hsome]), List.length_cons]
            exact ⟨rfl, by omega⟩
          · have hthrough : through h (c :: channel) = through h channel := by
              rw [through, List.filter_cons_of_neg (by simpa using hbad c.1)]
              rfl
            have hnone : o.2 = none := by
              cases hv : o.2 with
              | none => rfl
              | some q => exact absurd ((ho q).mp hv) (hbad q)
            rw [hthrough, List.filterMap_cons_none hnone, List.countP_cons_of_pos (by simp [hnone])]
            exact ⟨hpackets, by omega⟩

/-- **A channel whose damage is detected.**  Each frame received carries the packet that was
sent, or none. -/
lemma channel_delivers (hcrc : h.useCRC_ = true) {s₀ s : SerialState} {es : List HandlerEvent}
    (hrun : Run (h.handling fl crcCcitt) s₀ es s) (hnul : ∀ e ∈ es, NulTerminated e)
    (hstats : s₀.stats_ = {}) {channel : List (Packet × Bytes)}
    (hframes : s.frames = s₀.frames ++ channel.map Prod.snd)
    (hchannel : ∀ c ∈ channel, Carries h crcCcitt c.2 c.1 ∨ ∀ q, ¬Carries h crcCcitt c.2 q) :
    s.onPacket_ = s₀.onPacket_ ++ through h channel ∧
      s.stats_.packetsReceived = (channel.length : BitVec 32) ∧
      s.stats_.packetsCorrupted + ((through h channel).length : BitVec 32) =
        (channel.length : BitVec 32) := by
  obtain ⟨outcomes, hinv⟩ := handling_balanced hcrc hrun hnul hstats
  have hmap : outcomes.map Prod.fst = channel.map Prod.snd :=
    List.append_cancel_left (hinv.frames.symm.trans hframes)
  obtain ⟨hpackets, hcount⟩ := through_eq hchannel hmap hinv.gate
  have hlen : outcomes.length = channel.length := by
    simpa using congrArg List.length hmap
  refine ⟨by rw [hinv.delivered, hpackets], by rw [hinv.received, hlen], ?_⟩
  rw [hinv.corrupted, ← hcount, Nat.cast_add]

lemma carries_body (hcrc : h.useCRC_ = true) (packet : Packet) :
    Carries h crcCcitt (h.body fl crcCcitt packet) packet :=
  (@verdict_eq_some_iff fl h hcrc (fun _ => 0) rfl _ _).mp (verdict_body _ packet)

/-- Without the Hamming code there is one frame for a packet. -/
lemma carries_iff (hcrc : h.useCRC_ = true) (hham : h.useHammingEC_ = false) (frame : Bytes)
    (packet : Packet) :
    Carries h crcCcitt frame packet ↔ frame = h.body fl crcCcitt packet := by
  constructor
  · intro hc
    have hbody := @carries_body fl h hcrc packet
    rw [Carries, decoded, hham, if_neg Bool.false_ne_true] at hc hbody
    exact hc.trans hbody.symm
  · rintro rfl
    exact carries_body hcrc packet

/-- The packets whose frames came through as they were sent. -/
def intact (fl : FloatCast) (h : SerialHandler) (channel : List (Packet × Bytes)) : List Packet :=
  (channel.filter fun c => c.2 = h.body fl crcCcitt c.1).map Prod.fst

lemma through_eq_intact (hcrc : h.useCRC_ = true) (hham : h.useHammingEC_ = false)
    (channel : List (Packet × Bytes)) : through h channel = intact fl h channel := by
  refine congrArg _ (List.filter_congr fun c _ => ?_)
  exact decide_eq_decide.mpr (carries_iff hcrc hham c.2 c.1)

/-- **Damaged frames are never delivered.**  In every run of a handler with the checksum and
without the Hamming code: if each frame received is as long as the one that was sent, and differs
from it in an odd number of bits, or in fewer than four and has at most 4095 bytes, then exactly
the packets whose frames are intact are delivered, in order, and the others counted as
corrupted. -/
theorem damaged_frames_rejected (fl : FloatCast) (h : SerialHandler) (hcrc : h.useCRC_ = true)
    (hham : h.useHammingEC_ = false) {s₀ s : SerialState} {es : List HandlerEvent}
    (hrun : Run (h.handling fl crcCcitt) s₀ es s) (hnul : ∀ e ∈ es, NulTerminated e)
    (hstats : s₀.stats_ = {}) {channel : List (Packet × Bytes)}
    (hframes : s.frames = s₀.frames ++ channel.map Prod.snd)
    (hdamage : ∀ c ∈ channel, c.2.length = (h.body fl crcCcitt c.1).length ∧
      (Odd (bitErrors (h.body fl crcCcitt c.1) c.2) ∨
        bitErrors (h.body fl crcCcitt c.1) c.2 < 4 ∧
          (h.body fl crcCcitt c.1).length ≤ 4095)) :
    s.onPacket_ = s₀.onPacket_ ++ intact fl h channel ∧
      s.stats_.packetsReceived = (channel.length : BitVec 32) ∧
      s.stats_.packetsCorrupted + ((intact fl h channel).length : BitVec 32) =
        (channel.length : BitVec 32) := by
  rw [← through_eq_intact hcrc hham]
  refine channel_delivers hcrc hrun hnul hstats hframes fun c hc => ?_
  obtain ⟨hlen, herrors⟩ := hdamage c hc
  rw [carries_iff hcrc hham]
  refine or_iff_not_imp_left.mpr fun hne q hq => hne ?_
  exact eq_of_few_errors hham hlen (carries_body hcrc c.1) hq herrors

/-- Taking a line from `inBuffer_` is a step of the handler. -/
lemma handling_receive (beyond : ℕ → UInt8) (line rest : Bytes) {s : SerialState}
    (hactive : s.handlerCanceled_ = false) (hline : h.delim_ ∉ line)
    (hin : s.inBuffer_ = line ++ h.delim_ :: rest) :
    h.handling fl crcCcitt s (.link (.receive beyond))
      (afterLine fl h crcCcitt beyond line rest s) :=
  ⟨by rw [hin]; simp, run_receive beyond hactive hline hin⟩

/-- The frame of `1, 2` with three bits flipped, and the frame of `7` as it was sent. -/
def sampleChannel : List (Packet × Bytes) :=
  [(⟨[1, 2]⟩, [125, 15, 1, 3]), (⟨[7]⟩, [23, 145, 7])]

theorem damaged_frames_rejected_sample : ∃ es s,
    Run (({} : SerialHandler).handling default crcCcitt) {} es s ∧ s.onPacket_ = [⟨[7]⟩] ∧
      s.stats_.packetsCorrupted + 1 = 2 := by
  have harrive : ({} : SerialHandler).handling default crcCcitt {}
      (.link (.arrive [125, 15, 1, 3, 42, 45, 42, 23, 145, 7, 42, 45, 42]))
      { inBuffer_ := [125, 15, 1, 3, 42, 45, 42, 23, 145, 7, 42, 45, 42] } := rfl
  have hrun := ((((Run.single harrive).snoc
    (handling_receive (fun _ => 0) [125, 15, 1, 3] [45, 42, 23, 145, 7, 42, 45, 42] rfl
      (by decide) rfl)).snoc
    (handling_receive (fun _ => 0) [45] [23, 145, 7, 42, 45, 42] (by simp) (by decide)
      (afterLine_inBuffer _ _ _ _))).snoc
    (handling_receive (fun _ => 0) [23, 145, 7] [45, 42] (by simp) (by decide)
      (afterLine_inBuffer _ _ _ _))).snoc
    (handling_receive (fun _ => 0) [45] [] (by simp) (by decide) (afterLine_inBuffer _ _ _ _))
  have hdamage : ∀ c ∈ sampleChannel,
      c.2.length = (({} : SerialHandler).body default crcCcitt c.1).length ∧
      (Odd (bitErrors (({} : SerialHandler).body default crcCcitt c.1) c.2) ∨
        bitErrors (({} : SerialHandler).body default crcCcitt c.1) c.2 < 4 ∧
          (({} : SerialHandler).body default crcCcitt c.1).length ≤ 4095) := by decide +kernel
  have hintact : intact default {} sampleChannel = [⟨[7]⟩] := by decide +kernel
  obtain ⟨hpackets, -, hcorrupted⟩ := damaged_frames_rejected default {} rfl rfl hrun
    (by simp [NulTerminated]) rfl (by simp only [afterLine_frames, afterLine_packetBuffer]; decide)
    hdamage
  rw [hintact] at hpackets hcorrupted
  exact ⟨_, _, hrun, hpackets, hcorrupted⟩

/-! ## Bursts -/

/-- The bits of a packet in the order in which the checksum takes them. -/
def packetBits (buffer : Bytes) : List Bool := buffer.flatMap fun b => (byteBits b).reverse

/-- Damage to the header alone, or to sixteen bits of the packet in a row. -/
inductive Burst : Bytes → Bytes → Prop
  | header (header header' payload : Bytes) :
      header.length = 2 → header'.length = 2 → Burst (header ++ payload) (header' ++ payload)
  | packet (header payload payload' : Bytes) (p u u' q : List Bool) : header.length = 2 →
      packetBits payload = p ++ u ++ q → packetBits payload' = p ++ u' ++ q →
      u'.length = u.length → u.length ≤ 16 → Burst (header ++ payload) (header ++ payload')

lemma length_packetBits (buffer : Bytes) : (packetBits buffer).length = 8 * buffer.length := by
  simp [packetBits, List.length_flatMap, Nat.mul_comm]

lemma reverse_packetBits (buffer : Bytes) :
    (packetBits buffer).reverse = buffer.reverse.flatMap byteBits := by
  rw [packetBits, List.reverse_flatMap]
  simp [Function.comp_def]

lemma codeword_append {header payload : Bytes} (hheader : header.length = 2) :
    codeword (header ++ payload) = header.flatMap byteBits ++ (packetBits payload).reverse := by
  rw [codeword, codeOrder, List.take_left' hheader, List.drop_left' hheader, List.flatMap_append,
    reverse_packetBits]

/-- A burst is a burst of the code word. -/
lemma Burst.codeword {sent received : Bytes} (hburst : Burst sent received) :
    received.length = sent.length ∧ ∃ a u u' b, codeword sent = a ++ u ++ b ∧
      codeword received = a ++ u' ++ b ∧ u'.length = u.length ∧ u.length ≤ 16 := by
  cases hburst with
  | header header header' payload hheader hheader' =>
      refine ⟨by simp [hheader, hheader'], [], header.flatMap byteBits, header'.flatMap byteBits,
        (packetBits payload).reverse, codeword_append hheader, codeword_append hheader', ?_, ?_⟩
      · simp [List.length_flatMap, hheader, hheader']
      · simp [List.length_flatMap, hheader]
  | packet header payload payload' p u u' q hheader hpayload hpayload' hsame hu =>
      have hlen := length_packetBits payload
      have hlen' := length_packetBits payload'
      rw [hpayload] at hlen
      rw [hpayload'] at hlen'
      simp only [List.length_append] at hlen hlen'
      refine ⟨?_, header.flatMap byteBits ++ q.reverse, u.reverse, u'.reverse, p.reverse, ?_, ?_,
        by simpa using hsame, by simpa using hu⟩
      · rw [List.length_append, List.length_append]
        omega
      · rw [codeword_append hheader, hpayload]
        simp
      · rw [codeword_append hheader, hpayload']
        simp

/-- Two bytes next to each other make a burst. -/
lemma Burst.pair {header : Bytes} (hheader : header.length = 2) (x y : Bytes) {a b : Bytes}
    (ha : a.length ≤ 2) (hb : b.length = a.length) :
    Burst (header ++ (x ++ a ++ y)) (header ++ (x ++ b ++ y)) := by
  have hbits : ∀ c : Bytes, packetBits (x ++ c ++ y) =
      packetBits x ++ packetBits c ++ packetBits y := by
    intro c
    simp [packetBits]
  refine Burst.packet header _ _ _ _ _ _ hheader (hbits a) (hbits b) ?_ ?_
  · rw [length_packetBits, length_packetBits, hb]
  · rw [length_packetBits]
    omega

/-- **Bursts are never delivered.**  In every run of a handler with the checksum and without the
Hamming code: if each frame received is the one that was sent, up to its header or up to sixteen
bits of the packet in a row, then exactly the packets whose frames are intact are delivered, in
order, and the others counted as corrupted. -/
theorem burst_rejected (fl : FloatCast) (h : SerialHandler) (hcrc : h.useCRC_ = true)
    (hham : h.useHammingEC_ = false) {s₀ s : SerialState} {es : List HandlerEvent}
    (hrun : Run (h.handling fl crcCcitt) s₀ es s) (hnul : ∀ e ∈ es, NulTerminated e)
    (hstats : s₀.stats_ = {}) {channel : List (Packet × Bytes)}
    (hframes : s.frames = s₀.frames ++ channel.map Prod.snd)
    (hdamage : ∀ c ∈ channel, Burst (h.body fl crcCcitt c.1) c.2) :
    s.onPacket_ = s₀.onPacket_ ++ intact fl h channel ∧
      s.stats_.packetsReceived = (channel.length : BitVec 32) ∧
      s.stats_.packetsCorrupted + ((intact fl h channel).length : BitVec 32) =
        (channel.length : BitVec 32) := by
  rw [← through_eq_intact hcrc hham]
  refine channel_delivers hcrc hrun hnul hstats hframes fun c hc => ?_
  obtain ⟨hlen, a, u, u', b, hsent, hreceived, hsame, hu⟩ := (hdamage c hc).codeword
  rw [carries_iff hcrc hham]
  refine or_iff_not_imp_left.mpr fun hne q hq => hne ?_
  exact eq_of_burst hham hlen (carries_body hcrc c.1) hq hsent hreceived hsame hu

/-- The frame of `1, 2`, both bytes of which are lost. -/
theorem burst_rejected_sample : ∃ es s,
    Run (({} : SerialHandler).handling default crcCcitt) {} es s ∧ s.onPacket_ = [] ∧
      s.stats_.packetsCorrupted + 0 = 1 := by
  have harrive : ({} : SerialHandler).handling default crcCcitt {}
      (.link (.arrive [124, 14, 200, 99, 42, 45, 42]))
      { inBuffer_ := [124, 14, 200, 99, 42, 45, 42] } := rfl
  have hrun := ((Run.single harrive).snoc
    (handling_receive (fun _ => 0) [124, 14, 200, 99] [45, 42] rfl (by decide) rfl)).snoc
    (handling_receive (fun _ => 0) [45] [] (by simp) (by decide) (afterLine_inBuffer _ _ _ _))
  have hburst : ∀ c ∈ [((⟨[1, 2]⟩ : Packet), ([124, 14, 200, 99] : Bytes))],
      Burst (({} : SerialHandler).body default crcCcitt c.1) c.2 := by
    intro c hc
    obtain rfl := List.mem_singleton.mp hc
    have hbody : ({} : SerialHandler).body default crcCcitt ⟨[1, 2]⟩ = [124, 14, 1, 2] := by
      decide +kernel
    rw [hbody]
    exact @Burst.pair [124, 14] rfl [] [] [1, 2] [200, 99] le_rfl rfl
  have hintact : intact default {} [((⟨[1, 2]⟩ : Packet), ([124, 14, 200, 99] : Bytes))] = [] := by
    decide +kernel
  obtain ⟨hpackets, -, hcorrupted⟩ := burst_rejected default {} rfl rfl hrun
    (by simp [NulTerminated]) rfl (by simp only [afterLine_frames, afterLine_packetBuffer]; decide)
    hburst
  rw [hintact] at hpackets hcorrupted
  exact ⟨_, _, hrun, hpackets, hcorrupted⟩

end SerialHandler

end CpsCore

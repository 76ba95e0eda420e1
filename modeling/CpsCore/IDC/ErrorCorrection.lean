import Mathlib
import CpsCore.IDC.ErrorDetection

/-!
# Hamming code and checksum together

With `useHammingEC` every nibble of a frame is a codeword of its own.  One flipped bit in each of
them is corrected.  A codeword that loses more decodes to some nibble, and what the code cannot
repair is left to the checksum.

* `decode_append` — codewords are decoded in pairs, so a frame is decoded piece by piece.
* `Disturbed` — one bit in each codeword, and anything in the codewords of two neighbouring bytes.
* `disturbed_never_misdelivered` — such frames deliver the packet that was sent, or nothing.
-/

namespace CpsCore

namespace Hamming74

lemma merge_append : ∀ {n : ℕ} {left : List UInt8} (right : List UInt8), left.length = 2 * n →
    merge (left ++ right) = merge left ++ merge right ∧ (merge left).length = n
  | 0, left, right, hlen => by
      obtain rfl := List.length_eq_zero_iff.mp hlen
      exact ⟨rfl, rfl⟩
  | n + 1, [], right, hlen => absurd hlen (by simp)
  | n + 1, [_], right, hlen => absurd hlen (by simp; omega)
  | n + 1, lsb :: msb :: left, right, hlen => by
      have hleft : left.length = 2 * n := by
        simp only [List.length_cons] at hlen
        omega
      obtain ⟨hmerge, hsize⟩ := merge_append right hleft
      refine ⟨?_, by rw [merge, List.length_cons, hsize]⟩
      rw [List.cons_append, List.cons_append, merge, hmerge, merge, List.cons_append]

/-- **Decoding piece by piece**, each piece a whole number of bytes. -/
lemma decode_append {n : ℕ} {left : Bytes} (right : Bytes) (hlen : left.length = 2 * n) :
    (decode (left ++ right)).1 = (decode left).1 ++ (decode right).1 := by
  rw [decode, List.map_append]
  exact (merge_append _ (by rw [List.length_map, hlen])).1

lemma length_decode {n : ℕ} {codewords : Bytes} (hlen : codewords.length = 2 * n) :
    (decode codewords).1.length = n :=
  (merge_append [] (by rw [List.length_map, hlen])).2

lemma length_flipped (errors : ℕ → Option (Fin 8)) (s : Bytes) :
    (flipped errors (encode s)).length = 2 * s.length := by
  rw [flipped, List.length_mapIdx, length_encode]

end Hamming74

namespace SerialHandler

open Transition Hamming74

variable {fl : FloatCast} {h : SerialHandler}

/-- Every codeword of a frame may lose one bit.  Beyond that, anything may happen to the codewords
of two neighbouring bytes of the packet, or to those of the header. -/
inductive Disturbed : Bytes → Bytes → Prop
  | mk (left hit right mid : Bytes) (e e' : ℕ → Option (Fin 8)) : hit.length ≤ 2 →
      2 ≤ left.length ∨ (left ++ hit).length ≤ 2 → mid.length = 2 * hit.length →
      Disturbed (left ++ hit ++ right) (flipped e (encode left) ++ mid ++ flipped e' (encode right))

/-- What is left after decoding is a burst. -/
lemma Disturbed.burst {headed received : Bytes} (hdist : Disturbed headed received)
    (htwo : 2 ≤ headed.length) : Burst headed (decode received).1 := by
  obtain ⟨left, hit, right, mid, e, e', hhit, hplace, hmid⟩ := hdist
  have hlen : (decode mid).1.length = hit.length := length_decode hmid
  have hdecode : (decode (flipped e (encode left) ++ mid ++ flipped e' (encode right))).1 =
      left ++ (decode mid).1 ++ right := by
    rw [List.append_assoc, decode_append _ (length_flipped e left), decode_append _ hmid,
      decode_flipped_eq, decode_flipped_eq, List.append_assoc]
  rw [hdecode]
  rcases hplace with hpacket | hheader
  · -- the header is at the front of `left`
    obtain ⟨header, x, rfl, hsize⟩ : ∃ header x, left = header ++ x ∧ header.length = 2 :=
      ⟨left.take 2, left.drop 2, (List.take_append_drop 2 left).symm, by simpa using hpacket⟩
    have hpair := Burst.pair hsize x right hhit hlen
    simpa only [List.append_assoc] using hpair
  · have hright : ∀ c : Bytes, c.length = hit.length → (left ++ c ++ right).take 2 =
        left ++ c ++ right.take (2 - (left ++ hit).length) ∧
        (left ++ c ++ right).drop 2 = right.drop (2 - (left ++ hit).length) := by
      intro c hc
      have hle : (left ++ c).length ≤ 2 := by
        rw [List.length_append, hc, ← List.length_append]
        exact hheader
      rw [List.take_append, List.drop_append, List.take_of_length_le hle,
        List.drop_eq_nil_of_le hle, List.length_append, hc, ← List.length_append]
      exact ⟨rfl, rfl⟩
    have hsent := List.take_append_drop 2 (left ++ hit ++ right)
    have hback := List.take_append_drop 2 (left ++ (decode mid).1 ++ right)
    rw [(hright hit rfl).2] at hsent
    rw [(hright _ hlen).2] at hback
    rw [← hsent, ← hback]
    refine Burst.header _ _ _ ?_ ?_
    · rw [List.length_take]
      omega
    · have hsame : (left ++ (decode mid).1 ++ right).length = (left ++ hit ++ right).length := by
        simp [hlen]
      rw [List.length_take, hsame]
      omega

/-- The packets of a channel whose frames decode to what was encoded. -/
def restored (fl : FloatCast) (h : SerialHandler) (channel : List (Packet × Bytes)) :
    List Packet :=
  (channel.filter fun c => h.decoded c.2 = ⟨h.headed fl crcCcitt c.1⟩).map Prod.fst

/-- Behind the Hamming code stands a handler without it. -/
lemma carries_decoded (frame : Bytes) (packet : Packet) :
    Carries h crcCcitt frame packet ↔
      Carries { h with useHammingEC_ := false } crcCcitt (h.decoded frame).buffer_ packet :=
  Iff.rfl

lemma carries_iff_decoded (hcrc : h.useCRC_ = true) (frame : Bytes) (packet : Packet) :
    Carries h crcCcitt frame packet ↔ h.decoded frame = ⟨h.headed fl crcCcitt packet⟩ := by
  have hplain := @carries_iff fl { h with useHammingEC_ := false } hcrc rfl
    (h.decoded frame).buffer_ packet
  have hbody : ({ h with useHammingEC_ := false } : SerialHandler).body fl crcCcitt packet =
      h.headed fl crcCcitt packet := rfl
  rw [carries_decoded, hplain, hbody]
  exact ⟨fun heq => congrArg Packet.mk heq, fun heq => congrArg Packet.buffer_ heq⟩

lemma through_eq_restored (hcrc : h.useCRC_ = true) (channel : List (Packet × Bytes)) :
    through h channel = restored fl h channel := by
  refine congrArg _ (List.filter_congr fun c _ => ?_)
  exact decide_eq_decide.mpr (carries_iff_decoded hcrc c.2 c.1)

lemma two_le_headed (hcrc : h.useCRC_ = true) (packet : Packet) :
    2 ≤ (h.headed fl crcCcitt packet).length := by
  rw [headed_of_crc hcrc, List.length_append, length_enc_header]
  exact Nat.le_add_right _ _

/-- **A disturbed frame is never taken for another packet.**  In every run of a handler with
checksum and Hamming code: if each codeword of each frame lost at most one bit, except those of
two neighbouring bytes of the packet, or of the header, of which nothing need be left, then what
is delivered are the packets whose frames decode to what was encoded, in order; the others are
counted as corrupted.  Frames without such an exception are all delivered. -/
theorem disturbed_never_misdelivered (fl : FloatCast) (h : SerialHandler)
    (hcrc : h.useCRC_ = true) (hham : h.useHammingEC_ = true) {s₀ s : SerialState}
    {es : List HandlerEvent} (hrun : Run (h.handling fl crcCcitt) s₀ es s)
    (hnul : ∀ e ∈ es, NulTerminated e) (hstats : s₀.stats_ = {})
    {channel : List (Packet × Bytes)} (hframes : s.frames = s₀.frames ++ channel.map Prod.snd)
    (hdamage : ∀ c ∈ channel, Disturbed (h.headed fl crcCcitt c.1) c.2) :
    s.onPacket_ = s₀.onPacket_ ++ restored fl h channel ∧
      s.stats_.packetsCorrupted + ((restored fl h channel).length : BitVec 32) =
        (channel.length : BitVec 32) ∧
      ((∀ c ∈ channel, ∃ e, c.2 = flipped e (h.body fl crcCcitt c.1)) →
        s.onPacket_ = s₀.onPacket_ ++ channel.map Prod.fst) := by
  have hdecoded : ∀ frame, h.decoded frame = ⟨(decode frame).1⟩ := by
    intro frame
    rw [decoded, if_pos hham]
    rfl
  have hdelivers := channel_delivers hcrc hrun hnul hstats hframes fun c hc => by
    have hburst := (hdamage c hc).burst (two_le_headed hcrc c.1)
    obtain ⟨hlen, a, u, u', b, hsent, hreceived, hsame, hu⟩ := hburst.codeword
    rw [@carries_iff_decoded fl h hcrc, hdecoded]
    refine or_iff_not_imp_left.mpr fun hne q hq => hne (congrArg Packet.mk ?_)
    rw [carries_decoded, hdecoded] at hq
    exact eq_of_burst rfl hlen (@carries_body fl { h with useHammingEC_ := false } hcrc c.1) hq
      hsent hreceived hsame hu
  rw [@through_eq_restored fl h hcrc] at hdelivers
  refine ⟨hdelivers.1, hdelivers.2.2, fun hflipped => ?_⟩
  have hall : restored fl h channel = channel.map Prod.fst := by
    refine congrArg _ (List.filter_eq_self.mpr fun c hc => decide_eq_true ?_)
    obtain ⟨e, he⟩ := hflipped c hc
    rw [hdecoded, he, body, if_pos hham, (decode_flipped _ e).1]
  rw [hdelivers.1, hall]

/-- Two frames of the packet `7`.  The first lost the codewords of the packet, and the second one
bit of every codeword. -/
def disturbedChannel : List (Packet × Bytes) :=
  [(⟨[7]⟩, [53, 6, 6, 77, 255, 0]), (⟨[7]⟩, [54, 5, 5, 78, 54, 2])]

theorem disturbed_never_misdelivered_sample : ∃ es s,
    Run (sampleHandler.handling default crcCcitt) {} es s ∧ s.onPacket_ = [⟨[7]⟩] ∧
      s.stats_.packetsCorrupted + 1 = 2 := by
  have harrive : sampleHandler.handling default crcCcitt {}
      (.link (.arrive [53, 6, 6, 77, 255, 0, 42, 45, 42, 54, 5, 5, 78, 54, 2, 42, 45, 42]))
      { inBuffer_ := [53, 6, 6, 77, 255, 0, 42, 45, 42, 54, 5, 5, 78, 54, 2, 42, 45, 42] } := rfl
  have hrun := ((((Run.single harrive).snoc
    (handling_receive (fun _ => 0) [53, 6, 6, 77, 255, 0]
      [45, 42, 54, 5, 5, 78, 54, 2, 42, 45, 42] rfl (by decide) rfl)).snoc
    (handling_receive (fun _ => 0) [45] [54, 5, 5, 78, 54, 2, 42, 45, 42] (by simp) (by decide)
      (afterLine_inBuffer _ _ _ _))).snoc
    (handling_receive (fun _ => 0) [54, 5, 5, 78, 54, 2] [45, 42] (by simp) (by decide)
      (afterLine_inBuffer _ _ _ _))).snoc
    (handling_receive (fun _ => 0) [45] [] (by simp) (by decide) (afterLine_inBuffer _ _ _ _))
  have hheaded : sampleHandler.headed default crcCcitt ⟨[7]⟩ = [23, 145, 7] := by decide +kernel
  have hfirst : [53, 6, 6, 77, 255, 0] = flipped (fun _ => some 0) (encode [23, 145]) ++ [255, 0] ++
      flipped (fun _ => none) (encode []) := by decide +kernel
  have hsecond : [54, 5, 5, 78, 54, 2] = flipped (fun _ => some 1) (encode [23, 145, 7]) ++ [] ++
      flipped (fun _ => none) (encode []) := by decide +kernel
  have hdamage : ∀ c ∈ disturbedChannel,
      Disturbed (sampleHandler.headed default crcCcitt c.1) c.2 := by
    intro c hc
    rcases List.mem_pair.mp hc with rfl | rfl
    · rw [hheaded, hfirst]
      exact Disturbed.mk [23, 145] [7] [] _ _ _ (by decide) (Or.inl (by decide)) rfl
    · rw [hheaded, hsecond]
      exact Disturbed.mk [23, 145, 7] [] [] _ _ _ (by decide) (Or.inl (by decide)) rfl
  have hrestored : restored default sampleHandler disturbedChannel = [⟨[7]⟩] := by decide +kernel
  obtain ⟨hpackets, hcorrupted, -⟩ := disturbed_never_misdelivered default sampleHandler rfl rfl
    hrun (by simp [NulTerminated]) rfl
    (by simp only [afterLine_frames, afterLine_packetBuffer]; decide) hdamage
  rw [hrestored] at hpackets hcorrupted
  exact ⟨_, _, hrun, hpackets, hcorrupted⟩

end SerialHandler

end CpsCore

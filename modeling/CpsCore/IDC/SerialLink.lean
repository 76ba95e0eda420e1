import Mathlib
import CpsCore.IDC.Deframer

/-!
# The serial link from end to end

What `sendPacket` puts on the wire and `receive` takes off it.

* `verdict_body` — the receiving side undoes the header and the Hamming code of a message.
* `serial_lossless` — messages that contain the delimiter at their end only arrive one by one,
  whatever chunks the bytes come in.
* `message_delimited_iff` — which messages these are for the default delimiter.  Nothing in the
  format keeps the delimiter out of a message: there is no escaping and no length field, and
  `'*'` and `'-'` are the codewords of the nibbles 4 and 5.
-/

namespace CpsCore.SerialHandler

open Framing Transition StateExcept

variable {fl : FloatCast} {h : SerialHandler} {crc : Bytes → BitVec 16}

/-! ## One message -/

lemma headed_of_crc (hcrc : h.useCRC_ = true) (packet : Packet) :
    h.headed fl crc packet =
      dp.enc fl true NetworkHeader.ty ⟨packet.getCRC16 crc⟩ ++ packet.buffer_ := by
  rw [headed, if_pos hcrc, dp.serialize_eq]

lemma length_enc_header (header : NetworkHeader) :
    (dp.enc fl true NetworkHeader.ty header).length = 2 :=
  Pod.length_toBytes (.raw .w16) header.crc

lemma decoded_body (packet : Packet) :
    h.decoded (h.body fl crc packet) = ⟨h.headed fl crc packet⟩ := by
  rw [decoded, body]
  split_ifs
  · exact Packet.hamming74Decode_encode ⟨h.headed fl crc packet⟩
  · rfl

/-- **The receiver opens what the sender has packed.** -/
theorem verdict_body (beyond : ℕ → UInt8) (packet : Packet) :
    h.verdict fl crc beyond (h.body fl crc packet) = some packet := by
  rw [verdict, decoded_body]
  by_cases hcrc : h.useCRC_ = true
  · have hlen := @length_enc_header fl ⟨packet.getCRC16 crc⟩
    have hext : dp.extract fl NetworkHeader.ty {} beyond ⟨h.headed fl crc packet⟩ =
        .ok ⟨packet.getCRC16 crc⟩ ⟨packet.buffer_⟩ := by
      refine dp.extract_enc NetworkHeader.ty trivial (hlen.trans_lt (by decide)) ?_ beyond
        (headed_of_crc hcrc packet)
      intro hnil
      exact absurd (hlen.symm.trans (congrArg List.length hnil)) (by decide)
    rw [if_pos hcrc, hext]
    exact if_pos rfl
  · rw [if_neg hcrc, headed, if_neg hcrc]

/-! ## Sequences of messages -/

/-- The counters after complete frames were received. -/
def receivedStats (st : NetworkStats) (frames : List Bytes) : NetworkStats :=
  { st with
    packetsReceived := st.packetsReceived + (frames.length : BitVec 32)
    dataReceived := st.dataReceived + ((frames.map List.length).sum : BitVec 64) }

lemma receivedStats_snoc (st : NetworkStats) (frames : List Bytes) (frame : Bytes) :
    receivedStats st (frames ++ [frame]) =
      { receivedStats st frames with
        dataReceived := (receivedStats st frames).dataReceived + (frame.length : BitVec 64)
        packetsReceived := (receivedStats st frames).packetsReceived + 1 } := by
  simp only [receivedStats, List.length_append, List.length_singleton, List.map_append,
    List.map_cons, List.map_nil, List.sum_append, List.sum_singleton, Nat.cast_add, Nat.cast_one,
    add_assoc]

/-- As long as the frames are those of packets, these packets are handed on and counted. -/
theorem link_delivers {s₀ s : SerialState} {es : List LinkEvent} (hs₀ : Listening s₀)
    (hrun : Run (h.link fl crc) s₀ es s) {packets : List Packet}
    (hframes : s.frames = s₀.frames ++ packets.map (h.body fl crc)) :
    s.onPacket_ = s₀.onPacket_ ++ packets ∧
      s.stats_ = receivedStats s₀.stats_ (packets.map (h.body fl crc)) := by
  have hinv := hrun.induct (P := fun _ s => s.handlerCanceled_ = false ∧
    ∃ bodies, s.frames = s₀.frames ++ bodies ∧ ∀ packets : List Packet,
      bodies = packets.map (h.body fl crc) →
        s.onPacket_ = s₀.onPacket_ ++ packets ∧ s.stats_ = receivedStats s₀.stats_ bodies) ?_ ?_
  · obtain ⟨-, bodies, hbodies, hdelivered⟩ := hinv
    have hsame : bodies = packets.map (h.body fl crc) :=
      List.append_cancel_left (hbodies.symm.trans hframes)
    rw [← hsame]
    exact hdelivered packets hsame
  · refine ⟨hs₀.active, [], (List.append_nil _).symm, fun packets hnil => ?_⟩
    obtain rfl := List.map_eq_nil_iff.mp hnil.symm
    simp [receivedStats]
  · rintro - s e s' ⟨hactive, bodies, hbodies, hdelivered⟩ hstep
    rcases link_cases hstep hactive with ⟨chunk, rfl, rfl⟩ | ⟨beyond, line, rest, rfl, -, -, rfl⟩
    · exact ⟨hactive, bodies, hbodies, hdelivered⟩
    · refine ⟨by rw [afterLine_canceled]; exact hactive, ?_⟩
      rw [afterLine]
      cases (h.packetString line s.packetBuffer_).1 with
      | none => exact ⟨bodies, hbodies, hdelivered⟩
      | some frame =>
          refine ⟨bodies ++ [frame], by simp [hbodies], fun packets heq => ?_⟩
          -- the last packet is the one of this frame
          obtain ⟨packets, last, rfl, hinit, hlast⟩ : ∃ ps p, packets = ps ++ [p] ∧
              bodies = ps.map (h.body fl crc) ∧ frame = h.body fl crc p := by
            rcases List.eq_nil_or_concat' packets with rfl | ⟨ps, p, rfl⟩
            · exact absurd heq (by simp)
            · rw [List.map_append] at heq
              obtain ⟨hinit, hlast⟩ := List.append_inj' heq rfl
              exact ⟨ps, p, rfl, hinit, List.singleton_inj.mp hlast⟩
          obtain ⟨hpackets, hstats⟩ := hdelivered packets hinit
          subst hlast
          simp only [verdict_body]
          refine ⟨?_, ?_⟩
          · show s.onPacket_ ++ [last] = _
            rw [hpackets, List.append_assoc]
          · rw [receivedStats_snoc, ← hstats]
            rfl

lemma isSplit_messages {packets : List Packet}
    (hsafe : ∀ p ∈ packets, OnlyAtEnd h.delimString_ (h.message fl crc p)) :
    IsSplit h.delimString_ (packets.flatMap (h.message fl crc))
      (packets.map (h.body fl crc)) [] := by
  have hstream : packets.flatMap (h.message fl crc) =
      (packets.map (h.body fl crc)).flatMap (· ++ h.delimString_) := by
    rw [List.flatMap_map]
    rfl
  rw [hstream]
  refine isSplit_frames h.delim_ne fun b hb => ?_
  obtain ⟨p, hp, rfl⟩ := List.mem_map.mp hb
  exact hsafe p hp

/-- The frames of a stream of delimiter-safe messages. -/
theorem link_frames_of_messages {packets : List Packet}
    (hsafe : ∀ p ∈ packets, OnlyAtEnd h.delimString_ (h.message fl crc p))
    (hne : h.delimString_.length ≠ 1 → ∀ p ∈ packets, h.body fl crc p ≠ [])
    {s₀ s : SerialState} {es : List LinkEvent} (hs₀ : Listening s₀)
    (hrun : Run (h.link fl crc) s₀ es s)
    (hsent : arrived es = packets.flatMap (h.message fl crc)) (hidle : h.delim_ ∉ s.inBuffer_) :
    s.frames = s₀.frames ++ packets.map (h.body fl crc) ∧ s.packetBuffer_ = [] := by
  obtain ⟨bodies, hframes, hscan⟩ := link_frames hs₀ hrun hidle
  have hnonempty : h.delimString_.length ≠ 1 → [] ∉ packets.map (h.body fl crc) := by
    intro htwo hmem
    obtain ⟨p, hp, hnil⟩ := List.mem_map.mp hmem
    exact hne htwo p hp hnil
  have hsplit := isSplit_messages hsafe
  rw [hsent, scan_emits_of_split hsplit hnonempty, Prod.mk.injEq] at hscan
  obtain ⟨rfl, hrest⟩ := hscan
  exact ⟨hframes, (List.append_eq_nil_iff.mp hrest.symm).1⟩

/-- **The link is lossless.**  The messages of any list of packets, if each contains the
delimiter at its end only and none is empty before it: in every run that has taken in all of
them, the loop comes to rest, and when it rests `onPacket_` was fired with these packets in
order, the counters say so, and nothing is left in the buffer. -/
theorem serial_lossless (fl : FloatCast) (h : SerialHandler) (crc : Bytes → BitVec 16)
    (packets : List Packet)
    (hsafe : ∀ p ∈ packets, OnlyAtEnd h.delimString_ (h.message fl crc p))
    (hne : h.delimString_.length ≠ 1 → ∀ p ∈ packets, h.body fl crc p ≠ [])
    {s₀ s : SerialState} {es : List LinkEvent} (hs₀ : Listening s₀)
    (hrun : Run (h.link fl crc) s₀ es s)
    (hsent : arrived es = packets.flatMap (h.message fl crc)) :
    (∃ es' s', Run (h.link fl crc) s es' s' ∧ arrived es' = [] ∧ h.delim_ ∉ s'.inBuffer_) ∧
    (h.delim_ ∉ s.inBuffer_ →
      s.onPacket_ = s₀.onPacket_ ++ packets ∧
      s.stats_ = { s₀.stats_ with
        packetsReceived := s₀.stats_.packetsReceived + (packets.length : BitVec 32)
        dataReceived := s₀.stats_.dataReceived +
          ((packets.map fun p => (h.body fl crc p).length).sum : BitVec 64) } ∧
      s.packetBuffer_ = []) := by
  constructor
  · obtain ⟨_, _, hinv⟩ := link_scanned hs₀ hrun
    exact link_drains (fun _ => 0) _ s rfl hinv.active
  · intro hidle
    obtain ⟨hframes, hbuffer⟩ := link_frames_of_messages hsafe hne hs₀ hrun hsent hidle
    obtain ⟨hpackets, hstats⟩ := link_delivers hs₀ hrun hframes
    refine ⟨hpackets, ?_, hbuffer⟩
    rw [hstats, receivedStats, List.length_map, List.map_map]
    rfl

/-- A handler with checksum and Hamming code, two packets for it (the first with a `'*'` in it),
and their checksums. -/
def sampleHandler : SerialHandler := { useHammingEC_ := true }

def samplePackets : List Packet := [⟨[42, 7]⟩, ⟨[9]⟩]

def sampleCrc (buffer : Bytes) : BitVec 16 := if buffer = [42, 7] then 0x84C5 else 0x70D9

theorem serial_lossless_pair :
    ∃ es s, Run (sampleHandler.link default sampleCrc) {} es s ∧ s.onPacket_ = samplePackets ∧
      s.stats_.packetsReceived = 2 ∧ s.packetBuffer_ = [] := by
  have hsafe : ∀ p ∈ samplePackets, OnlyAtEnd sampleHandler.delimString_
      (sampleHandler.message default sampleCrc p) := by
    intro p hp
    refine (onlyAtEnd_aba_iff (by decide) _).mpr ?_
    rcases List.mem_pair.mp hp with rfl | rfl
    · exact ⟨by decide +kernel, by decide +kernel⟩
    · exact ⟨by decide +kernel, by decide +kernel⟩
  have hne : ∀ p ∈ samplePackets, sampleHandler.body default sampleCrc p ≠ [] := by
    decide +kernel
  have hsent : arrived [.arrive (samplePackets.flatMap (sampleHandler.message default sampleCrc))] =
      samplePackets.flatMap (sampleHandler.message default sampleCrc) := List.append_nil _
  have harrive : Run (sampleHandler.link default sampleCrc) {}
      [.arrive (samplePackets.flatMap (sampleHandler.message default sampleCrc))]
      { inBuffer_ := samplePackets.flatMap (sampleHandler.message default sampleCrc) } :=
    Run.single rfl
  obtain ⟨es, s, hrest, harr, hidle⟩ := (serial_lossless default sampleHandler sampleCrc
    samplePackets hsafe (fun _ => hne) ⟨rfl, rfl, rfl⟩ harrive hsent).1
  have hsent' := (arrived_append _ es).trans
    ((congrArg _ harr).trans ((List.append_nil _).trans hsent))
  obtain ⟨hpackets, hstats, hbuffer⟩ := (serial_lossless default sampleHandler sampleCrc
    samplePackets hsafe (fun _ => hne) ⟨rfl, rfl, rfl⟩ (harrive.trans hrest) hsent').2 hidle
  exact ⟨_, s, harrive.trans hrest, hpackets, by rw [hstats]; rfl, hbuffer⟩

/-! ## The default delimiter -/

lemma onlyAtEnd_message_iff (hdelim : h.delimString_ = defaultDelimiter) (packet : Packet) :
    OnlyAtEnd h.delimString_ (h.message fl crc packet) ↔
      ¬defaultDelimiter <:+: h.body fl crc packet ∧ ¬[0x2A, 0x2D] <:+ h.body fl crc packet := by
  rw [message, hdelim]
  exact onlyAtEnd_aba_iff (by decide) _

/-- Patterns of codewords are patterns of nibbles. -/
lemma map_encodeNibble_inj {ds es : List UInt8} (hds : ∀ d ∈ ds, d < 16) (hes : ∀ e ∈ es, e < 16)
    (heq : ds.map Hamming74.encodeNibble = es.map Hamming74.encodeNibble) : ds = es := by
  induction ds generalizing es with
  | nil => exact (List.map_eq_nil_iff.mp heq.symm).symm
  | cons d ds ih =>
      cases es with
      | nil => exact absurd heq (by simp)
      | cons e es =>
          rw [List.map_cons, List.map_cons, List.cons.injEq] at heq
          have hhead := Hamming74.codeword_injective (hds d (by simp)) (hes e (by simp)) heq.1
          have htail := ih (fun x hx => hds x (List.mem_cons_of_mem _ hx))
            (fun x hx => hes x (List.mem_cons_of_mem _ hx)) heq.2
          rw [hhead, htail]

lemma infix_codewords_iff {pattern ds : List UInt8} (hpat : ∀ d ∈ pattern, d < 16)
    (hds : ∀ d ∈ ds, d < 16) :
    pattern.map Hamming74.encodeNibble <:+: ds.map Hamming74.encodeNibble ↔ pattern <:+: ds := by
  constructor
  · rintro ⟨p, q, hpq⟩
    obtain ⟨left, right, rfl, hleft, -⟩ := List.map_eq_append_iff.mp hpq.symm
    obtain ⟨p', mid, rfl, -, hmid⟩ := List.map_eq_append_iff.mp hleft
    have hsame := map_encodeNibble_inj
      (fun d hd => hds d (List.mem_append_left _ (List.mem_append_right _ hd))) hpat hmid
    exact ⟨p', right, by rw [hsame]⟩
  · rintro ⟨p, q, rfl⟩
    exact ⟨p.map Hamming74.encodeNibble, q.map Hamming74.encodeNibble, by simp⟩

lemma suffix_codewords_iff {pattern ds : List UInt8} (hpat : ∀ d ∈ pattern, d < 16)
    (hds : ∀ d ∈ ds, d < 16) :
    pattern.map Hamming74.encodeNibble <:+ ds.map Hamming74.encodeNibble ↔ pattern <:+ ds := by
  constructor
  · rintro ⟨p, hp⟩
    obtain ⟨p', last, rfl, -, hlast⟩ := List.map_eq_append_iff.mp hp.symm
    have hsame := map_encodeNibble_inj (fun d hd => hds d (List.mem_append_right _ hd)) hpat hlast
    exact ⟨p', by rw [hsame]⟩
  · rintro ⟨p, rfl⟩
    exact ⟨p.map Hamming74.encodeNibble, by simp⟩

/-- `'*'`, `'-'` are the codewords of 4 and 5. -/
lemma defaultDelimiter_codewords :
    defaultDelimiter = [4, 5, 4].map Hamming74.encodeNibble ∧
      [0x2A, 0x2D] = [4, 5].map Hamming74.encodeNibble := by decide

/-- **Which messages are delimited.**  For the delimiter `"*-*"`: a message contains it at its
end only, exactly when the part before it neither contains `"*-*"` nor ends with `"*-"`.  Under
the Hamming code this is a condition on the nibbles that are sent.  Non-empty messages that
satisfy it are cut neither apart nor together. -/
theorem message_delimited_iff (fl : FloatCast) (h : SerialHandler)
    (hdelim : h.delimString_ = defaultDelimiter) (crc : Bytes → BitVec 16) :
    (∀ packet, OnlyAtEnd h.delimString_ (h.message fl crc packet) ↔
      ¬defaultDelimiter <:+: h.body fl crc packet ∧
        ¬[0x2A, 0x2D] <:+ h.body fl crc packet) ∧
    (h.useHammingEC_ = true → ∀ packet,
      (OnlyAtEnd h.delimString_ (h.message fl crc packet) ↔
        ¬[4, 5, 4] <:+: Hamming74.nibbles (h.headed fl crc packet) ∧
          ¬[4, 5] <:+ Hamming74.nibbles (h.headed fl crc packet))) ∧
    (∀ packets : List Packet,
      (∀ p ∈ packets, OnlyAtEnd h.delimString_ (h.message fl crc p) ∧ h.body fl crc p ≠ []) →
      ∀ s₀ es s, Listening s₀ → Run (h.link fl crc) s₀ es s →
        arrived es = packets.flatMap (h.message fl crc) → h.delim_ ∉ s.inBuffer_ →
          s.frames = s₀.frames ++ packets.map (h.body fl crc)) := by
  refine ⟨onlyAtEnd_message_iff hdelim, fun hham packet => ?_, ?_⟩
  · rw [onlyAtEnd_message_iff hdelim, body, if_pos hham, Hamming74.encode_eq_map,
      defaultDelimiter_codewords.1, defaultDelimiter_codewords.2]
    have hlt := Hamming74.nibbles_lt (h.headed fl crc packet)
    rw [infix_codewords_iff (by decide +kernel) hlt, suffix_codewords_iff (by decide +kernel) hlt]
  · intro packets hpackets s₀ es s hs₀ hrun hsent hidle
    exact (link_frames_of_messages (fun p hp => (hpackets p hp).1)
      (fun _ p hp => (hpackets p hp).2) hs₀ hrun hsent hidle).1

theorem message_delimited_default :
    OnlyAtEnd defaultDelimiter (({} : SerialHandler).message default (fun _ => 0) ⟨[1, 2]⟩) :=
  ((message_delimited_iff default {} rfl fun _ => 0).1 ⟨[1, 2]⟩).mpr ⟨by decide, by decide⟩

/-- Without checksum and Hamming code the payload `"*-*"` is sent as `"*-**-*"`. -/
theorem message_not_delimited :
    ¬∀ packet, OnlyAtEnd defaultDelimiter
      (({ useCRC_ := false } : SerialHandler).message default (fun _ => 0) packet) := by
  intro hall
  have hnil := hall ⟨defaultDelimiter⟩ [] defaultDelimiter rfl
  exact absurd hnil (by decide)

end CpsCore.SerialHandler

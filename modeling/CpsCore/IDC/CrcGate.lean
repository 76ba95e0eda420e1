import Mathlib
import CpsCore.IDC.Deframer

/-!
# The checksum gate of `SerialHandler::receive`

With `useCRC` a frame is opened by `dp::extract<NetworkHeader>`, and `onPacket_` fires when the
checksum of what is left equals the one in the header.  `extract` reads the two header bytes
whether or not the frame has them, and `Packet::consume` refuses to take more than there is, so
for a frame of one byte the checksum is taken over that byte again.

* `crcCcitt` — the checksum of `boost::crc_ccitt_type`.
* `verdict_eq_some_iff` — a packet comes out of a frame only if the frame is its checksum and
  the packet.  No frame of one byte does: this is a table of 256 checksums.
* `handling` — everything that can happen to a handler, and `crc_gate`, its balance of frames
  received, packets delivered and frames found corrupted.
-/

namespace CpsCore

/-! ## The checksum -/

/-- One bit of the division by `x^16 + x^12 + x^5 + 1`. -/
def crcBit (crc : BitVec 16) : BitVec 16 :=
  if crc.msb then (crc <<< 1) ^^^ 0x1021#16 else crc <<< 1

def crcByte (crc : BitVec 16) (byte : UInt8) : BitVec 16 :=
  crcBit^[8] (crc ^^^ ((byte.toBitVec.setWidth 16) <<< 8))

/-- `boost::crc_ccitt_type`: initial value `0xFFFF`, nothing reflected, nothing added at the
end. -/
def crcCcitt (bytes : Bytes) : BitVec 16 := bytes.foldl crcByte 0xFFFF#16

/-- The check value of this checksum, for the text `"123456789"`. -/
example : crcCcitt [49, 50, 51, 52, 53, 54, 55, 56, 57] = 0x29B1#16 := by decide +kernel

namespace SerialHandler

open Transition StateExcept

variable {fl : FloatCast} {h : SerialHandler} {crc : Bytes → BitVec 16}

/-! ## Opening a frame -/

/-- The frame is the little-endian checksum of the packet, and the packet. -/
def Carries (h : SerialHandler) (crc : Bytes → BitVec 16) (frame : Bytes) (packet : Packet) :
    Prop :=
  (h.decoded frame).buffer_ = LittleEndian.ofNat 2 (packet.getCRC16 crc).toNat ++ packet.buffer_

/-- The header that two bytes are read as. -/
def headerOf (bytes : Bytes) : NetworkHeader := ⟨IntWidth.w16.ofBytes bytes⟩

/-- The two bytes a header is read from. -/
def headerBytes (beyond : ℕ → UInt8) (packet : Packet) : Bytes :=
  (BinaryFromArchive.open_ packet.buffer_ {} beyond).block IntWidth.w16.bytes

/-- Of a frame that is not empty `extract` reads the two bytes at its front, the second of which
may lie behind it, and asks the packet to drop them. -/
lemma extract_header_eq (beyond : ℕ → UInt8) {packet : Packet} (hsize : packet.getSize ≠ 0) :
    dp.extract fl NetworkHeader.ty {} beyond packet =
      .ok (headerOf (headerBytes beyond packet)) (packet.consume 2).2 := by
  have hlt : (BinaryFromArchive.open_ packet.buffer_ {} beyond).idx_ <
      (BinaryFromArchive.open_ packet.buffer_ {} beyond).string_.length :=
    Nat.pos_of_ne_zero hsize
  have hload := BinaryFromArchive.run_load_of_lt hlt IntWidth.w16.bytes
  have hpod : (dp.loadPod BinaryFromArchive.archive (.raw .w16)).run
      (BinaryFromArchive.open_ packet.buffer_ {} beyond) =
        .ok (IntWidth.w16.ofBytes (headerBytes beyond packet))
          ((BinaryFromArchive.open_ packet.buffer_ {} beyond).advance IntWidth.w16.bytes) :=
    run_bind_ok hload _
  have hdecode : dp.decode fl NetworkHeader.ty NetworkHeader.ty.default {} beyond packet =
      .ok (headerOf (headerBytes beyond packet))
        ((BinaryFromArchive.open_ packet.buffer_ {} beyond).advance IntWidth.w16.bytes) :=
    run_bind_ok hpod _
  rw [dp.extract, if_neg hsize, hdecode]
  rfl

/-- What is left of a frame fires `onPacket_` if its checksum is the one of the header. -/
lemma verdict_of_extract {beyond : ℕ → UInt8} {frame : Bytes} {header : NetworkHeader}
    {rest : Packet} (hcrc : h.useCRC_ = true)
    (hext : dp.extract fl NetworkHeader.ty {} beyond (h.decoded frame) = .ok header rest) :
    h.verdict fl crc beyond frame =
      if header.crc = rest.getCRC16 crc then some rest else none := by
  rw [verdict, if_pos hcrc, hext]

/-- No byte is its own checksum, written with a zero behind it. -/
lemma crcCcitt_singleton_ne : ∀ b : UInt8, (headerOf [b, 0]).crc ≠ crcCcitt [b] :=
  Hamming74.forall_byte (by decide +kernel)

/-- **What a frame delivers.**  `h0` says that the byte behind the characters of a string is
`NUL`.  The cases are those of the header: no byte is there, one, or both. -/
theorem verdict_eq_some_iff (hcrc : h.useCRC_ = true) {beyond : ℕ → UInt8} (h0 : beyond 0 = 0)
    (frame : Bytes) (packet : Packet) :
    h.verdict fl crcCcitt beyond frame = some packet ↔ Carries h crcCcitt frame packet := by
  have hlen : 2 ≤ (LittleEndian.ofNat 2 (packet.getCRC16 crcCcitt).toNat ++
      packet.buffer_).length := by
    rw [List.length_append, LittleEndian.length_ofNat]
    exact Nat.le_add_right _ _
  rw [Carries]
  match hg : h.decoded frame with
  | ⟨[]⟩ =>
      -- `T()` has the checksum 0, and an empty packet 0xFFFF
      have hext : dp.extract fl NetworkHeader.ty {} beyond (h.decoded frame) =
          .ok ⟨0⟩ ⟨[]⟩ := by
        rw [hg]
        rfl
      have hne : (0 : BitVec 16) ≠ Packet.getCRC16 crcCcitt ⟨[]⟩ := by decide
      rw [verdict_of_extract hcrc hext, if_neg hne]
      refine iff_of_false (by simp) fun heq => ?_
      rw [← heq] at hlen
      exact absurd hlen (by decide)
  | ⟨[b]⟩ =>
      have hbytes : headerBytes beyond ⟨[b]⟩ = [b, 0] := by
        rw [← h0]
        rfl
      have hext : dp.extract fl NetworkHeader.ty {} beyond (h.decoded frame) =
          .ok (headerOf [b, 0]) ⟨[b]⟩ := by
        rw [hg, extract_header_eq beyond (by simp [Packet.getSize]), hbytes]
        rfl
      have hne : (headerOf [b, 0]).crc ≠ Packet.getCRC16 crcCcitt ⟨[b]⟩ :=
        crcCcitt_singleton_ne b
      rw [verdict_of_extract hcrc hext, if_neg hne]
      refine iff_of_false (by simp) fun heq => ?_
      rw [← heq] at hlen
      exact absurd hlen (by simp)
  | ⟨b₁ :: b₂ :: rest⟩ =>
      have hbytes : headerBytes beyond ⟨b₁ :: b₂ :: rest⟩ = [b₁, b₂] := rfl
      have hext : dp.extract fl NetworkHeader.ty {} beyond (h.decoded frame) =
          .ok (headerOf [b₁, b₂]) ⟨rest⟩ := by
        rw [hg, extract_header_eq beyond (by simp [Packet.getSize]), hbytes]
        exact congrArg _ (Packet.consume_of_le (by simp))
      have hback : LittleEndian.ofNat 2 (headerOf [b₁, b₂]).crc.toNat = [b₁, b₂] :=
        @IntWidth.toBytes_ofBytes .w16 _ rfl
      rw [verdict_of_extract hcrc hext]
      constructor
      · intro hsome
        split_ifs at hsome with hsame
        obtain rfl := Option.some.inj hsome
        rw [← hsame, hback]
        rfl
      · intro heq
        obtain ⟨hhead, htail⟩ := @List.append_inj _ [b₁, b₂] _ rest _ heq rfl
        obtain rfl : packet = ⟨rest⟩ := congrArg Packet.mk htail.symm
        have hsame : (headerOf [b₁, b₂]).crc = Packet.getCRC16 crcCcitt ⟨rest⟩ := by
          rw [hhead]
          exact IntWidth.w16.ofBytes_toBytes _
        rw [if_pos hsame]

/-! ## Every run of a handler -/

/-- What happens to a handler. -/
inductive HandlerEvent
  | link (e : LinkEvent)
  | sending (e : SendEvent)
  /-- `receive`, called with an error. -/
  | failed
  | cancelHandler

def handling (fl : FloatCast) (h : SerialHandler) (crc : Bytes → BitVec 16) (s : SerialState) :
    HandlerEvent → SerialState → Prop
  | .link e, s' => h.link fl crc s e s'
  | .sending e, s' => h.sending fl crc s e s'
  | .failed, s' => (h.receive fl crc true fun _ => 0).run s = .ok () s'
  | .cancelHandler, s' => s' = { s with handlerCanceled_ := true }

/-- The byte behind the characters of a frame is `NUL`. -/
def NulTerminated : HandlerEvent → Prop
  | .link (.receive beyond) => beyond 0 = 0
  | _ => True

/-- What a frame adds to. -/
def tally (s : SerialState) : List Bytes × List Packet × BitVec 32 × BitVec 32 :=
  (s.frames, s.onPacket_, s.stats_.packetsReceived, s.stats_.packetsCorrupted)

lemma run_receive_error {s s' : SerialState}
    (hrun : (h.receive fl crc true fun _ => 0).run s = .ok () s') : s' = s := by
  have hret : (h.receive fl crc true fun _ => 0).run s = .ok () s := by
    show (if s.handlerCanceled_ || true then _ else _ : EStateM Exn SerialState Unit).run s = _
    rw [Bool.or_true, if_pos rfl]
    rfl
  rw [hret] at hrun
  simpa using hrun.symm

lemma run_receive_canceled {beyond : ℕ → UInt8} {s s' : SerialState}
    (hcanceled : s.handlerCanceled_ = true)
    (hrun : (h.receive fl crc false beyond).run s = .ok () s') : s' = s := by
  have hret : (h.receive fl crc false beyond).run s = .ok () s := by
    show (if s.handlerCanceled_ || false then _ else _ : EStateM Exn SerialState Unit).run s = _
    rw [hcanceled, Bool.true_or, if_pos rfl]
    rfl
  rw [hret] at hrun
  simpa using hrun.symm

/-- **What a step does to the tally**: nothing, or it accounts for one frame. -/
theorem handling_cases (hcrc : h.useCRC_ = true) {s s' : SerialState} {e : HandlerEvent}
    (hnul : NulTerminated e) (hstep : h.handling fl crcCcitt s e s') :
    tally s' = tally s ∨ ∃ frame v t, (∀ p, v = some p ↔ Carries h crcCcitt frame p) ∧
      tally t = tally s ∧ s' = account frame t v := by
  cases e with
  | link e =>
      by_cases hactive : s.handlerCanceled_ = false
      · rcases link_cases hstep hactive with ⟨chunk, rfl, rfl⟩ |
          ⟨beyond, line, rest, rfl, -, -, rfl⟩
        · exact Or.inl rfl
        · rw [afterLine]
          cases (h.packetString line s.packetBuffer_).1 with
          | none => exact Or.inl rfl
          | some frame =>
              refine Or.inr ⟨frame, _, _, verdict_eq_some_iff hcrc hnul frame, ?_, rfl⟩
              rfl
      · rw [Bool.not_eq_false] at hactive
        cases e with
        | arrive chunk =>
            obtain rfl := hstep
            exact Or.inl rfl
        | receive beyond =>
            rw [run_receive_canceled hactive hstep.2]
            exact Or.inl rfl
  | sending e =>
      cases e with
      | sendPacket packet =>
          obtain rfl := hstep
          left
          rw [sendPacket]
          split_ifs <;> rfl
      | complete i =>
          obtain ⟨content, -, rfl⟩ := hstep
          exact Or.inl rfl
  | failed =>
      rw [run_receive_error hstep]
      exact Or.inl rfl
  | cancelHandler =>
      obtain rfl := hstep
      exact Or.inl rfl

/-- What a run keeps.  `outcomes` lists the frames received, each with the packet it delivered. -/
structure Balanced (h : SerialHandler) (s₀ s : SerialState)
    (outcomes : List (Bytes × Option Packet)) : Prop where
  frames : s.frames = s₀.frames ++ outcomes.map Prod.fst
  delivered : s.onPacket_ = s₀.onPacket_ ++ outcomes.filterMap Prod.snd
  gate : ∀ o ∈ outcomes, ∀ p, o.2 = some p ↔ Carries h crcCcitt o.1 p
  received : s.stats_.packetsReceived = (outcomes.length : BitVec 32)
  corrupted : s.stats_.packetsCorrupted = (outcomes.countP fun o => o.2.isNone : BitVec 32)

lemma Balanced.of_tally {s₀ s s' : SerialState} {outcomes : List (Bytes × Option Packet)}
    (hinv : Balanced h s₀ s outcomes) (hsame : tally s' = tally s) :
    Balanced h s₀ s' outcomes := by
  simp only [tally, Prod.mk.injEq] at hsame
  obtain ⟨hframes, hpackets, hreceived, hcorrupted⟩ := hsame
  exact ⟨by rw [hframes, hinv.frames], by rw [hpackets, hinv.delivered], hinv.gate,
    by rw [hreceived, hinv.received], by rw [hcorrupted, hinv.corrupted]⟩

/-- One more frame. -/
lemma Balanced.account {s₀ s : SerialState} {outcomes : List (Bytes × Option Packet)}
    (hinv : Balanced h s₀ s outcomes) {frame : Bytes} {v : Option Packet}
    (hgate : ∀ p, v = some p ↔ Carries h crcCcitt frame p) :
    Balanced h s₀ (account frame s v) (outcomes ++ [(frame, v)]) where
  frames := by
    rw [account_frames, hinv.frames, List.map_append, List.append_assoc]
    rfl
  delivered := by
    rw [List.filterMap_append, ← List.append_assoc, ← hinv.delivered]
    cases v with
    | none => exact (List.append_nil _).symm
    | some packet => rfl
  gate o ho := by
    rcases List.mem_append.mp ho with ho | ho
    · exact hinv.gate o ho
    · obtain rfl := List.mem_singleton.mp ho
      exact hgate
  received := by
    rw [List.length_append, List.length_singleton, Nat.cast_add, Nat.cast_one, ← hinv.received]
    cases v <;> rfl
  corrupted := by
    rw [List.countP_append, Nat.cast_add, ← hinv.corrupted]
    cases v with
    | none => rfl
    | some packet => exact (BitVec.add_zero _).symm

theorem handling_balanced (hcrc : h.useCRC_ = true) {s₀ s : SerialState} {es : List HandlerEvent}
    (hrun : Run (h.handling fl crcCcitt) s₀ es s) (hnul : ∀ e ∈ es, NulTerminated e)
    (hstats : s₀.stats_ = {}) : ∃ outcomes, Balanced h s₀ s outcomes := by
  refine hrun.invariant_of (I := fun s => ∃ outcomes, Balanced h s₀ s outcomes) hnul ⟨[], ?_⟩ ?_
  · exact ⟨by simp, by simp, by simp, by rw [hstats]; rfl, by rw [hstats]; rfl⟩
  · rintro s e s' hnul ⟨outcomes, hinv⟩ hstep
    rcases handling_cases hcrc hnul hstep with hsame | ⟨frame, v, t, hgate, hsame, rfl⟩
    · exact ⟨outcomes, hinv.of_tally hsame⟩
    · exact ⟨_, (hinv.of_tally hsame).account hgate⟩

/-- A frame delivers a packet or is counted as corrupted. -/
lemma length_outcomes (outcomes : List (Bytes × Option Packet)) :
    outcomes.length =
      (outcomes.filterMap Prod.snd).length + outcomes.countP fun o => o.2.isNone := by
  induction outcomes with
  | nil => rfl
  | cons o outcomes ih =>
      obtain ⟨frame, v⟩ := o
      cases v with
      | none => simp [ih]; omega
      | some packet => simp [ih]; omega

/-- **The checksum gate.**  A frame body, whatever its bytes and with or without the Hamming
layer, fires `onPacket_` with `p` if it is (decoded) the checksum of `p` and `p`, and otherwise
is counted as corrupted.  In every run from a handler whose statistics stand at zero, what was
received is what was delivered and what was found corrupted: as counters of 32 bits always, as
numbers as long as fewer frames have come in than an `int` can count. -/
theorem crc_gate (fl : FloatCast) (h : SerialHandler) (hcrc : h.useCRC_ = true) :
    (∀ (beyond : ℕ → UInt8), beyond 0 = 0 → ∀ (frame : Bytes) (s : SerialState),
      (∃ p, Carries h crcCcitt frame p ∧
        (h.deliver fl crcCcitt beyond frame).run s = .ok () (account frame s (some p))) ∨
      ((∀ p, ¬Carries h crcCcitt frame p) ∧
        (h.deliver fl crcCcitt beyond frame).run s = .ok () (account frame s none))) ∧
    ∀ (s₀ s : SerialState) (es : List HandlerEvent), s₀.stats_ = {} →
      (∀ e ∈ es, NulTerminated e) → Run (h.handling fl crcCcitt) s₀ es s →
      ∃ frames packets, s.frames = s₀.frames ++ frames ∧ s.onPacket_ = s₀.onPacket_ ++ packets ∧
        (∀ p ∈ packets, ∃ frame ∈ frames, Carries h crcCcitt frame p) ∧
        s.stats_.packetsReceived = (packets.length : BitVec 32) + s.stats_.packetsCorrupted ∧
        (frames.length < 2 ^ 31 →
          s.stats_.packetsReceived.toNat = packets.length + s.stats_.packetsCorrupted.toNat) := by
  constructor
  · intro beyond h0 frame s
    have hgate := @verdict_eq_some_iff fl h hcrc beyond h0 frame
    rw [run_deliver]
    cases hv : h.verdict fl crcCcitt beyond frame with
    | none => exact Or.inr ⟨fun p hp => by simpa [hv] using (hgate p).mpr hp, rfl⟩
    | some p => exact Or.inl ⟨p, (hgate p).mp hv, rfl⟩
  · intro s₀ s es hstats hnul hrun
    obtain ⟨outcomes, hinv⟩ := handling_balanced hcrc hrun hnul hstats
    have hlen := length_outcomes outcomes
    refine ⟨_, _, hinv.frames, hinv.delivered, ?_, ?_, ?_⟩
    · intro p hp
      obtain ⟨o, ho, hsome⟩ := List.mem_filterMap.mp hp
      exact ⟨o.1, List.mem_map_of_mem ho, (hinv.gate o ho p).mp hsome⟩
    · rw [hinv.received, hinv.corrupted, hlen, Nat.cast_add]
    · intro hlt
      rw [List.length_map] at hlt
      have hnat : ∀ n : ℕ, n ≤ outcomes.length → ((n : BitVec 32)).toNat = n :=
        fun n hn => Nat.mod_eq_of_lt (by omega)
      rw [hinv.received, hinv.corrupted, hnat _ le_rfl, hnat _ (by omega)]
      exact hlen

/-- The frame `"a"` is one byte short of a header. -/
theorem crc_gate_letter :
    (({} : SerialHandler).deliver default crcCcitt (fun _ => 0) [97]).run {} =
      .ok () (account [97] {} none) := by
  rcases (crc_gate default {} rfl).1 (fun _ => 0) rfl [97] {} with ⟨p, hp, -⟩ | ⟨-, hrun⟩
  · have hlen := congrArg List.length hp
    rw [List.length_append, LittleEndian.length_ofNat] at hlen
    exact absurd hlen (by show ¬1 = _; omega)
  · exact hrun

end SerialHandler
end CpsCore

import Mathlib
import CpsCore.DataPresentation.BinarySerialization
import CpsCore.Lib.Transition

/-!
# `SerialHandler`

The serial network layer.  `sendPacket` builds a message from a packet (an optional header with
the checksum, an optional Hamming code) and puts the delimiter behind it; `receive` runs each
time the last byte of the delimiter has come in, and puts frames together from the pieces that
`getline` cuts there.

The serial port and the streams of `boost::asio` are the environment.  `link` is the receiving
side: bytes arrive in chunks, and a completed `async_read_until` calls `receive`.  `sending` is
the other one: calls of `sendPacket`, and completions of the writes they started.  Counters wrap
around at their width.
-/

namespace CpsCore

structure NetworkHeader where
  crc : BitVec 16
  deriving DecidableEq, Repr

/-- `dp::serialize` of the header streams its only field. -/
def NetworkHeader.ty : Ty true NetworkHeader :=
  .custom (β := BitVec IntWidth.w16.bits)
    ⟨NetworkHeader.crc, NetworkHeader.mk, fun _ => rfl, fun _ => rfl⟩ (.pod (.raw .w16))

structure NetworkStats where
  packetsReceived : BitVec 32 := 0
  packetsCorrupted : BitVec 32 := 0
  dataReceived : BitVec 64 := 0
  dataCorrupted : BitVec 64 := 0
  packetsSent : BitVec 32 := 0
  dataSent : BitVec 64 := 0
  deriving DecidableEq, Repr

inductive SerialDirection
  | both | send | receive
  deriving DecidableEq, Repr

/-- The delimiter of `SerialHandlerParams`, `"*-*"`. -/
def defaultDelimiter : Bytes := [0x2A, 0x2D, 0x2A]

/-- What a handler is constructed with.  The constructor reads the last byte of the delimiter,
so there has to be one. -/
structure SerialHandler where
  delimString_ : Bytes := defaultDelimiter
  useCRC_ : Bool := true
  useHammingEC_ : Bool := false
  direction_ : SerialDirection := .both
  sendBlocking_ : Bool := false
  delim_ne : delimString_ ≠ [] := by decide

/-- The members that change.  `frames` records the frame bodies that `receive` has cut out, and
`writes` the content handed to each outstanding `async_write`; `wire` is what was transmitted. -/
structure SerialState where
  stats_ : NetworkStats := {}
  packetBuffer_ : Bytes := []
  inBuffer_ : Bytes := []
  outBuffer_ : Bytes := []
  handlerCanceled_ : Bool := false
  onPacket_ : List Packet := []
  frames : List Bytes := []
  writes : List Bytes := []
  wire : Bytes := []
  deriving DecidableEq, Repr

namespace SerialHandler

variable (fl : FloatCast) (h : SerialHandler) (crc : Bytes → BitVec 16)

def delim_ : UInt8 := h.delimString_.getLast h.delim_ne

/-! ## Sending -/

/-- The header, if any, and the packet. -/
def headed (packet : Packet) : Bytes :=
  if h.useCRC_ then
    (dp.serialize fl NetworkHeader.ty ⟨packet.getCRC16 crc⟩ {}).buffer_ ++ packet.buffer_
  else packet.buffer_

/-- The message before the delimiter is put behind it. -/
def body (packet : Packet) : Bytes :=
  if h.useHammingEC_ then Hamming74.encode (h.headed fl crc packet) else h.headed fl crc packet

def message (packet : Packet) : Bytes := h.body fl crc packet ++ h.delimString_

/-- `sendPacket`.  `write` transmits the whole buffer and consumes it; `async_write` is handed
the whole buffer, which stays until the write completes. -/
def sendPacket (packet : Packet) (s : SerialState) : Bool × SerialState :=
  if h.direction_ = .receive then (false, s)
  else
    let message := h.message fl crc packet
    let stats := { s.stats_ with
      dataSent := s.stats_.dataSent + (message.length : BitVec 64)
      packetsSent := s.stats_.packetsSent + 1 }
    let outBuffer := s.outBuffer_ ++ message
    if h.sendBlocking_ then
      (true, { s with stats_ := stats, outBuffer_ := [], wire := s.wire ++ outBuffer })
    else
      (true, { s with stats_ := stats, outBuffer_ := outBuffer, writes := s.writes ++ [outBuffer] })

inductive SendEvent
  | sendPacket (packet : Packet)
  /-- The write with this position among the outstanding ones has transmitted its content. -/
  | complete (i : ℕ)

/-- The handler and its outstanding writes. -/
def sending (s : SerialState) : SendEvent → SerialState → Prop
  | .sendPacket packet, s' => s' = (h.sendPacket fl crc packet s).2
  | .complete i, s' => ∃ content, s.writes[i]? = some content ∧
      s' = { s with
        writes := s.writes.eraseIdx i
        wire := s.wire ++ content
        outBuffer_ := s.outBuffer_.drop content.length }

/-! ## Receiving -/

/-- `str.substr(pos, count)`. -/
def substr (str : Bytes) (pos count : ℕ) : Bytes := (str.drop pos).take count

/-- `str.erase(pos, count)`. -/
def erase (str : Bytes) (pos count : ℕ) : Bytes := str.take pos ++ str.drop (pos + count)

/-- The frame that a line completes, if it does, and the new content of `packetBuffer_`. -/
def packetString (line packetBuffer : Bytes) : Option Bytes × Bytes :=
  let delimSize := h.delimString_.length
  if delimSize = 1 then (some line, packetBuffer)
  else
    let packetString := packetBuffer ++ line ++ [h.delim_]
    if delimSize ≤ packetString.length ∧
        substr packetString (packetString.length - delimSize) (packetString.length - 1) =
          h.delimString_ then
      (some (erase packetString (packetString.length - delimSize) (packetString.length - 1)), [])
    else (none, packetString)

def decoded (packetString : Bytes) : Packet :=
  if h.useHammingEC_ then (⟨packetString⟩ : Packet).hamming74Decode else ⟨packetString⟩

/-- A complete frame: statistics, checksum, `onPacket_`. -/
def deliver (beyond : ℕ → UInt8) (packetString : Bytes) : EStateM Exn SerialState Unit := do
  modify fun s => { s with
    frames := s.frames ++ [packetString]
    stats_ := { s.stats_ with
      dataReceived := s.stats_.dataReceived + (packetString.length : BitVec 64)
      packetsReceived := s.stats_.packetsReceived + 1 } }
  if h.useCRC_ then
    match dp.extract fl NetworkHeader.ty {} beyond (h.decoded packetString) with
    | .error e _ => throw e
    | .ok header packet =>
        if header.crc ≠ packet.getCRC16 crc then
          modify fun s => { s with stats_ := { s.stats_ with
            dataCorrupted := s.stats_.dataCorrupted + (packetString.length : BitVec 64)
            packetsCorrupted := s.stats_.packetsCorrupted + 1 } }
        else modify fun s => { s with onPacket_ := s.onPacket_ ++ [packet] }
  else modify fun s => { s with onPacket_ := s.onPacket_ ++ [h.decoded packetString] }

/-- `receive` past its checks. -/
def receiveLine (beyond : ℕ → UInt8) : EStateM Exn SerialState Unit := do
  let s ← get
  let line := s.inBuffer_.takeWhile (· ≠ h.delim_)
  let next := h.packetString line s.packetBuffer_
  set { s with inBuffer_ := s.inBuffer_.drop (line.length + 1), packetBuffer_ := next.2 }
  match next.1 with
  | some packetString => h.deliver fl crc beyond packetString
  | none => pure ()

/-- `receive`, called with an error or because `inBuffer_` holds the last delimiter byte. -/
def receive (err : Bool) (beyond : ℕ → UInt8) : EStateM Exn SerialState Unit := do
  let s ← get
  if s.handlerCanceled_ || err then pure () else h.receiveLine fl crc beyond

inductive LinkEvent
  | arrive (chunk : Bytes)
  | receive (beyond : ℕ → UInt8)

/-- The handler and its port. -/
def link (s : SerialState) : LinkEvent → SerialState → Prop
  | .arrive chunk, s' => s' = { s with inBuffer_ := s.inBuffer_ ++ chunk }
  | .receive beyond, s' =>
      h.delim_ ∈ s.inBuffer_ ∧ (h.receive fl crc false beyond).run s = .ok () s'

/-- The bytes that have arrived. -/
def arrived : List LinkEvent → Bytes
  | [] => []
  | .arrive chunk :: es => chunk ++ arrived es
  | .receive _ :: es => arrived es

end SerialHandler

end CpsCore

import Mathlib
import CpsCore.Packet
import CpsCore.Lib.Transition

/-!
# The shared-memory channel

One `SharedMemoryPublisherImpl`, called from any number of threads `ω`, and any number of
`SharedMemorySubscriptionImpl` listeners `ι` on its object, as parties that take one step at a
time.  A thread that copies a packet copies it byte by byte.

Of the mutex only what a reader/writer lock promises is assumed, and of `timed_wait` that it gives
the lock back while it waits, has it again when it returns, and returns true only after a notify
since the wait began.
-/

namespace CpsCore.SharedMemory

/-! ## The object in shared memory -/

/-- `interprocess_sharable_mutex`, by who has it. -/
inductive SharableMutex (ω ι : Type)
  | exclusive (owner : ω)
  | shared (owners : Finset ι)

/-- `MessageObjectHeader` and the bytes behind it. -/
structure MessageObject (ω ι : Type) where
  mtx : SharableMutex ω ι := .shared ∅
  active : Bool := true
  maxPacketSize : ℕ
  packetSize : ℕ := 0
  bytes : Bytes

/-! ## The publisher -/

/-- Where a thread of the publisher is.  `notify` and `unlock` carry the packet that `publish` is
about to return true for; `teardown` has none. -/
inductive PublisherPc
  | idle
  | lock (packet : Packet)
  | setSize (packet : Packet)
  | memcpy (packet : Packet) (copied : ℕ)
  | teardown
  | deactivate
  | notify (packet : Option Packet)
  | unlock (packet : Option Packet)
  deriving DecidableEq, Repr

/-- A step of thread `w`; the last two say whether it notifies, and what `publish` has returned
true for. -/
inductive PublisherStep {ω ι : Type} (maxPacketSize_ : ℕ) (w : ω) : MessageObject ω ι →
    PublisherPc → MessageObject ω ι → PublisherPc → Bool → Option Packet → Prop
  | tooBig {m} (packet : Packet) : packet.getSize > maxPacketSize_ →
      PublisherStep maxPacketSize_ w m .idle m .idle false none
  | publish {m} (packet : Packet) : ¬ packet.getSize > maxPacketSize_ →
      PublisherStep maxPacketSize_ w m .idle m (.lock packet) false none
  | lock {m packet} : m.mtx = .shared ∅ →
      PublisherStep maxPacketSize_ w m (.lock packet) { m with mtx := .exclusive w }
        (.setSize packet) false none
  | setSize {m packet} :
      PublisherStep maxPacketSize_ w m (.setSize packet) { m with packetSize := packet.getSize }
        (.memcpy packet 0) false none
  | memcpy {m packet copied byte} : packet.buffer_[copied]? = some byte →
      PublisherStep maxPacketSize_ w m (.memcpy packet copied)
        { m with bytes := m.bytes.set copied byte } (.memcpy packet (copied + 1)) false none
  | copied {m packet} :
      PublisherStep maxPacketSize_ w m (.memcpy packet packet.getSize) m (.notify (some packet))
        false none
  | teardown {m} : PublisherStep maxPacketSize_ w m .idle m .teardown false none
  | teardownLock {m} : m.mtx = .shared ∅ →
      PublisherStep maxPacketSize_ w m .teardown { m with mtx := .exclusive w } .deactivate
        false none
  | deactivate {m} :
      PublisherStep maxPacketSize_ w m .deactivate { m with active := false } (.notify none)
        false none
  | notify {m packet} :
      PublisherStep maxPacketSize_ w m (.notify packet) m (.unlock packet) true none
  | unlock {m packet} :
      PublisherStep maxPacketSize_ w m (.unlock packet) { m with mtx := .shared ∅ } .idle
        false packet

/-! ## A listener -/

/-- Where `onSharedMemory` is. -/
inductive ListenerPc
  /-- Not started, or returned. -/
  | stopped
  | lock
  | check
  | waiting (notified : Bool)
  | relock (notified : Bool)
  | active
  | resize
  | memcpy (size : ℕ) (packet : Bytes)
  | callback
  | leave
  | unlock
  deriving DecidableEq, Repr

structure Listener where
  pc : ListenerPc := .stopped
  listenerCanceled_ : Bool := true
  connected_ : Bool := true
  /-- A call of `start` waits to join the thread before. -/
  starting : Bool := false
  /-- The packets handed to the slots. -/
  delivered : List Packet := []
  deriving DecidableEq, Repr

/-- A step of listener `i`, or of a caller of its `start` and `cancel`. -/
inductive ListenerStep {ω ι : Type} [DecidableEq ι] (i : ι) :
    MessageObject ω ι → Listener → MessageObject ω ι → Listener → Prop
  | cancel {m l} : ListenerStep i m l m { l with listenerCanceled_ := true }
  | start {m l} : ListenerStep i m l m { l with listenerCanceled_ := false, starting := true }
  | spawn {m l} : l.starting = true → l.pc = .stopped →
      ListenerStep i m l m { l with pc := .lock, starting := false }
  | lock {m l owners} : l.pc = .lock → m.mtx = .shared owners →
      ListenerStep i m l { m with mtx := .shared (insert i owners) } { l with pc := .check }
  | canceled {m l} : l.pc = .check → l.listenerCanceled_ = true →
      ListenerStep i m l m { l with pc := .leave }
  | wait {m l owners} : l.pc = .check → l.listenerCanceled_ = false → m.mtx = .shared owners →
      ListenerStep i m l { m with mtx := .shared (owners.erase i) }
        { l with pc := .waiting false }
  | timeout {m l notified} : l.pc = .waiting notified →
      ListenerStep i m l m { l with pc := .relock false }
  | wakeup {m l} : l.pc = .waiting true → ListenerStep i m l m { l with pc := .relock true }
  | relock {m l notified owners} : l.pc = .relock notified → m.mtx = .shared owners →
      ListenerStep i m l { m with mtx := .shared (insert i owners) }
        { l with pc := if notified then .active else .check }
  | inactive {m l} : l.pc = .active → m.active = false →
      ListenerStep i m l m { l with pc := .leave }
  | active {m l} : l.pc = .active → m.active = true → ListenerStep i m l m { l with pc := .resize }
  | resize {m l} : l.pc = .resize →
      ListenerStep i m l m { l with pc := .memcpy m.packetSize [] }
  | memcpy {m l size packet byte} : l.pc = .memcpy size packet → packet.length < size →
      m.bytes[packet.length]? = some byte →
      ListenerStep i m l m { l with pc := .memcpy size (packet ++ [byte]) }
  | deliver {m l size packet} : l.pc = .memcpy size packet → packet.length = size →
      ListenerStep i m l m { l with pc := .callback, delivered := l.delivered ++ [⟨packet⟩] }
  | returned {m l} : l.pc = .callback → ListenerStep i m l m { l with pc := .check }
  | leave {m l} : l.pc = .leave →
      ListenerStep i m l m { l with pc := .unlock, listenerCanceled_ := true, connected_ := false }
  | unlock {m l owners} : l.pc = .unlock → m.mtx = .shared owners →
      ListenerStep i m l { m with mtx := .shared (owners.erase i) } { l with pc := .stopped }

/-- `notify_all`, as a listener sees it. -/
def Listener.wake (l : Listener) : Listener :=
  if l.pc = .waiting false then { l with pc := .waiting true } else l

/-! ## The channel -/

structure Channel (ω ι : Type) where
  message : MessageObject ω ι
  publisher : ω → PublisherPc := fun _ => .idle
  listener : ι → Listener := fun _ => {}
  /-- The packets for which `publish` has returned true. -/
  published : List Packet := []

/-- What the constructor of the publisher leaves in the object, with the zeros of `truncate`. -/
def Channel.initial {ω ι : Type} (maxPacketSize_ : ℕ) : Channel ω ι where
  message := { maxPacketSize := maxPacketSize_, bytes := List.replicate maxPacketSize_ 0 }

inductive Actor (ω ι : Type)
  | publisher (w : ω)
  | listener (i : ι)

/-- One step of any party. -/
def Channel.step {ω ι : Type} [DecidableEq ω] [DecidableEq ι] (maxPacketSize_ : ℕ)
    (s : Channel ω ι) : Actor ω ι → Channel ω ι → Prop
  | .publisher w, s' => ∃ message pc wake returned,
      PublisherStep maxPacketSize_ w s.message (s.publisher w) message pc wake returned ∧
      s' = ⟨message, Function.update s.publisher w pc,
        if wake then fun i => (s.listener i).wake else s.listener, s.published ++ returned.toList⟩
  | .listener i, s' => ∃ message l, ListenerStep i s.message (s.listener i) message l ∧
      s' = ⟨message, s.publisher, Function.update s.listener i l, s.published⟩

end CpsCore.SharedMemory

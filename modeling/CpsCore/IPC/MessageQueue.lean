import Mathlib
import CpsCore.Packet
import CpsCore.Lib.Transition

/-!
# The message-queue channel

One `MessageQueuePublisherImpl` and one `MessageQueueSubscriptionImpl` on its queue.  Of the queue
itself it is assumed that messages of one priority come out in the order sent, that `try_send`
fails only when the queue is full, that `timed_receive` times out only when it is empty, and that
it throws when the buffer is smaller than the largest message the queue can hold.
-/

namespace CpsCore.MessageQueue

/-- The packet that ends the stream, and an ordinary packet. -/
def ending : Packet := ⟨[0x65, 0x6e, 0x64, 0x69, 0x6e, 0x67]⟩

/-- What publisher and subscription are constructed with. -/
structure Sizes where
  numOfMessages : ℕ
  /-- `maxPacketSize_` of the publisher. -/
  elementSize : ℕ
  /-- Of the subscription. -/
  maxPacketSize_ : ℕ
  deriving DecidableEq, Repr

/-! ## The publisher -/

def publish (c : Sizes) (packet : Packet) (queue : List Packet) : Bool × List Packet :=
  if packet.getSize > c.elementSize then (false, queue)
  else if queue.length < c.numOfMessages then (true, queue ++ [packet])
  else (false, queue)

inductive PublisherPc
  | alive
  /-- In the destructor, between `publish` and `remove`. -/
  | destroying
  | destroyed
  deriving DecidableEq, Repr

/-! ## The listener -/

/-- Where `onMessageQueue` is. -/
inductive ListenerPc
  /-- Not started, or canceled. -/
  | stopped
  | check
  | receive
  | received (packet : Packet)
  /-- Returned by itself. -/
  | ended
  /-- Left by an exception. -/
  | terminated
  deriving DecidableEq, Repr

structure Listener where
  pc : ListenerPc := .stopped
  listenerCanceled_ : Bool := true
  /-- Whether `messageQueue_` is set. -/
  connected : Bool := false
  /-- The packets handed to the slots. -/
  delivered : List Packet := []
  /-- The packets whose iteration is over. -/
  handled : List Packet := []
  deriving DecidableEq, Repr

/-- What becomes of a packet on its way to the slots. -/
def handOver (packet : Packet) : Packet := ⟨packet.buffer_ ++ [0x20]⟩

/-- A step of the listener thread, on the packets in the queue. -/
inductive ListenerStep (c : Sizes) :
    List Packet → Listener → List Packet → Listener → Prop
  | canceled {queue l} : l.pc = .check → l.listenerCanceled_ = true →
      ListenerStep c queue l queue { l with pc := .stopped }
  | proceed {queue l} : l.pc = .check → l.listenerCanceled_ = false →
      ListenerStep c queue l queue { l with pc := .receive }
  | tooSmall {queue l} : l.pc = .receive → c.maxPacketSize_ < c.elementSize →
      ListenerStep c queue l queue { l with pc := .terminated }
  | timeout {l} : l.pc = .receive → c.elementSize ≤ c.maxPacketSize_ →
      ListenerStep c [] l [] { l with pc := .check }
  | receive {packet queue l} : l.pc = .receive → c.elementSize ≤ c.maxPacketSize_ →
      ListenerStep c (packet :: queue) l queue { l with pc := .received packet }
  | stop {queue l} : l.pc = .received ending →
      ListenerStep c queue l queue { l with
        pc := .ended, listenerCanceled_ := true, connected := false,
        handled := l.handled ++ [ending] }
  | deliver {queue l packet} : l.pc = .received packet → packet ≠ ending →
      ListenerStep c queue l queue { l with
        pc := .check, delivered := l.delivered ++ [handOver packet],
        handled := l.handled ++ [packet] }

/-- What others do to the subscription.  `IPC` connects it when it is not connected, and starts it
when it is and its thread is not running. -/
inductive CallerStep (publisher : PublisherPc) : Listener → Listener → Prop
  | cancel {l} : CallerStep publisher l { l with listenerCanceled_ := true }
  | connect {l} : l.connected = false → publisher ≠ .destroyed →
      CallerStep publisher l { l with connected := true }
  | start {l} : l.pc = .stopped ∨ l.pc = .ended → l.connected = true →
      CallerStep publisher l { l with pc := .check, listenerCanceled_ := false }

/-! ## The channel -/

structure Channel where
  queue : List Packet := []
  publisher : PublisherPc := .alive
  listener : Listener := {}
  /-- The packets of the user for which `publish` has returned true. -/
  published : List Packet := []
  /-- Whether it has for that of the destructor. -/
  marked : Bool := false
  deriving DecidableEq, Repr

inductive Action
  | publish (packet : Packet)
  /-- The destructor publishes. -/
  | destroy
  | remove
  | listener
  | caller
  deriving DecidableEq, Repr

def Channel.publish (c : Sizes) (packet : Packet) (s : Channel) : Channel :=
  let (sent, queue) := MessageQueue.publish c packet s.queue
  { s with queue := queue, published := s.published ++ if sent then [packet] else [] }

def Channel.destroy (c : Sizes) (s : Channel) : Channel :=
  let (sent, queue) := MessageQueue.publish c ending s.queue
  { s with queue := queue, publisher := .destroying, marked := sent }

/-- One step of any party. -/
inductive Channel.Step (c : Sizes) : Channel → Action → Channel → Prop
  | publish {s packet} : s.publisher = .alive →
      Channel.Step c s (.publish packet) (s.publish c packet)
  | destroy {s} : s.publisher = .alive → Channel.Step c s .destroy (s.destroy c)
  | remove {s} : s.publisher = .destroying →
      Channel.Step c s .remove { s with publisher := .destroyed }
  | listener {s queue l} : ListenerStep c s.queue s.listener queue l →
      Channel.Step c s .listener { s with queue := queue, listener := l }
  | caller {s l} : CallerStep s.publisher s.listener l →
      Channel.Step c s .caller { s with listener := l }

end CpsCore.MessageQueue

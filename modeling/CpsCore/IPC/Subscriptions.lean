import Mathlib

/-!
# Subscriptions of an IPC

`IPC::subscribeOnPackets` has one `ISubscriptionImpl` for each id, whoever subscribes, and
`retrySubscriptions` connects those whose id is in `retryVector_`.

A call is one operation.  In between, publishers appear and disappear, listeners find out that
theirs is gone, and the scheduler runs what it has been given.
-/

namespace CpsCore.IPC

structure IPCOptions where
  multiTarget : Bool := true
  retry : Bool := false
  deriving DecidableEq, Repr

/-! ## A subscription -/

/-- Which class the `ISubscriptionImpl` is of. -/
inductive Transport
  | sharedMemory
  | messageQueue
  | redis
  deriving DecidableEq, Repr

structure SubscriptionImpl where
  transport : Transport
  id_ : String
  connected : Bool := false
  /-- The listener thread runs. -/
  listening : Bool := false
  slots : ℕ := 0
  deriving DecidableEq, Repr

/-- Which objects of publishers there are. -/
abbrev Published : Type := Transport → String → Bool

namespace SubscriptionImpl

/-- What `connect` returns, and what it leaves behind. -/
def connect (sub : SubscriptionImpl) (published : Published) : Bool × SubscriptionImpl :=
  match sub.transport with
  | .sharedMemory =>
      if published .sharedMemory sub.id_ then (true, { sub with connected := true })
      else (false, sub)
  | .messageQueue =>
      if published .messageQueue sub.id_ then (true, { sub with connected := true })
      else (false, { sub with connected := false })
  | .redis => (true, { sub with connected := true })

def start (sub : SubscriptionImpl) : SubscriptionImpl := { sub with listening := true }

def subscribe (sub : SubscriptionImpl) : SubscriptionImpl := { sub with slots := sub.slots + 1 }

/-- The listener of a canceled subscription to shared memory disconnects it on its way out. -/
def cancel (sub : SubscriptionImpl) : SubscriptionImpl :=
  match sub.transport with
  | .sharedMemory =>
      if sub.listening then { sub with listening := false, connected := false } else sub
  | _ => { sub with listening := false }

/-- The listener finds that its publisher is gone. -/
def ended (sub : SubscriptionImpl) : SubscriptionImpl :=
  match sub.transport with
  | .redis => sub
  | _ => if sub.listening then { sub with listening := false, connected := false } else sub

/-- The constructors. -/
def make (transport : Transport) (id : String) (published : Published) : SubscriptionImpl :=
  (({ transport := transport, id_ := id } : SubscriptionImpl).connect published).2

end SubscriptionImpl

end CpsCore.IPC

namespace CpsCore

open IPC

/-! ## The IPC -/

structure IPC where
  useRedis : Bool := false
  /-- Whether there is an `IScheduler`. -/
  scheduler : Bool := true
  /-- The heap. -/
  impls : ℕ → SubscriptionImpl := fun _ => { transport := .redis, id_ := "" }
  next : ℕ := 0
  subscriptions_ : List (String × ℕ) := []
  retryVector_ : List String := []
  /-- The subscriptions that the scheduler is to start. -/
  scheduled : List ℕ := []
  published : Published := fun _ _ => false

namespace IPC

/-- `subscriptions_.find`. -/
def find (s : IPC) (id : String) : Option ℕ := s.subscriptions_.lookup id

def set (s : IPC) (sub : ℕ) (impl : SubscriptionImpl) : IPC :=
  { s with impls := Function.update s.impls sub impl }

/-- Which class `subscribeOnPacketsImpl` chooses. -/
def transport (s : IPC) (options : IPCOptions) : Transport :=
  if s.useRedis then .redis else if options.multiTarget then .sharedMemory else .messageQueue

def subscribeOnPackets (s : IPC) (id : String) (options : IPCOptions) : IPC :=
  match s.find id with
  | some sub => s.set sub (s.impls sub).subscribe
  | none =>
      let impl := SubscriptionImpl.make (s.transport options) id s.published
      { s with
        impls := Function.update s.impls s.next impl.subscribe
        next := s.next + 1
        subscriptions_ := (id, s.next) :: s.subscriptions_
        retryVector_ := if options.retry then s.retryVector_ ++ [id] else s.retryVector_
        scheduled :=
          if impl.connected && s.scheduler then s.scheduled ++ [s.next] else s.scheduled }

/-- An attempt to connect a subscription, which is started if it succeeds. -/
structure Attempt where
  id : String
  connected : Bool
  deriving DecidableEq, Repr

/-- The loop of `retrySubscriptions` over `retryVector_`. -/
def retryAll (s : IPC) : List String → List Attempt × IPC
  | [] => ([], s)
  | id :: ids =>
      match s.find id with
      | none => s.retryAll ids
      | some sub =>
          if (s.impls sub).connected then s.retryAll ids
          else
            let connected := (s.impls sub).connect s.published
            let impl := if connected.1 then connected.2.start else connected.2
            let rest := (s.set sub impl).retryAll ids
            (⟨id, connected.1⟩ :: rest.1, rest.2)

def retrySubscriptions (s : IPC) : List Attempt × IPC := s.retryAll s.retryVector_

/-- `sigintHandler`, for the subscriptions. -/
def sigintHandler (s : IPC) : IPC :=
  { s with
    impls := fun sub =>
      if sub ∈ s.subscriptions_.map Prod.snd then (s.impls sub).cancel else s.impls sub
    subscriptions_ := [] }

/-- The scheduler starts what it has been given first. -/
def runScheduled (s : IPC) : IPC :=
  match s.scheduled with
  | [] => s
  | sub :: scheduled => { s.set sub (s.impls sub).start with scheduled := scheduled }

/-! ## Histories -/

inductive Operation
  | subscribeOnPackets (id : String) (options : IPCOptions)
  | retrySubscriptions
  /-- A publisher appears, or disappears. -/
  | publish (transport : Transport) (id : String) (exist : Bool)
  | ended (sub : ℕ)
  | runScheduled
  | sigint
  deriving DecidableEq, Repr

def apply (s : IPC) : Operation → IPC
  | .subscribeOnPackets id options => s.subscribeOnPackets id options
  | .retrySubscriptions => s.retrySubscriptions.2
  | .publish transport id exist =>
      { s with published := fun t i => if t = transport ∧ i = id then exist else s.published t i }
  | .ended sub => s.set sub (s.impls sub).ended
  | .runScheduled => s.runScheduled
  | .sigint => s.sigintHandler

/-- The state after these operations. -/
def after (s : IPC) (operations : List Operation) : IPC := operations.foldl apply s

@[simp] lemma after_nil (s : IPC) : s.after [] = s := rfl

@[simp] lemma after_snoc (s : IPC) (operations : List Operation) (operation : Operation) :
    s.after (operations ++ [operation]) = (s.after operations).apply operation := by
  simp [after]

@[simp] lemma impls_set_self (s : IPC) (sub : ℕ) (impl : SubscriptionImpl) :
    (s.set sub impl).impls sub = impl := Function.update_self ..

lemma impls_set_of_ne (s : IPC) {sub sub' : ℕ} (impl : SubscriptionImpl) (hne : sub' ≠ sub) :
    (s.set sub impl).impls sub' = s.impls sub' := Function.update_of_ne hne ..

@[simp] lemma find_set (s : IPC) (sub : ℕ) (impl : SubscriptionImpl) (id : String) :
    (s.set sub impl).find id = s.find id := rfl

end IPC

end CpsCore

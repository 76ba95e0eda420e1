import Mathlib
import CpsCore.Lib.Multimap
import CpsCore.Lib.Transition

/-!
# The multi-threading scheduler

`MultiThreadingScheduler` runs every event in a thread of its own, `EventBody::periodicThread`.
`runSchedule` starts the threads and notifies them, and `stop` joins them.

Every party is a program counter, and a step goes from one access to what the parties share to the
next: an atomic flag, a mutex, a condition variable.  A wait may end at any moment, `try_lock` may
fail at any moment, and the clock may show any time.  Tasks may call `schedule` and `cancel`;
`stop` is called from elsewhere.

There is no step where a `std::thread` is assigned that is still to be joined, or where the loop
joins one that is not, as that is the end of the process.  So is the destruction of a body with such
a thread, which is not modelled: bodies stay on the heap.
-/

namespace CpsCore.MultiThreadingScheduler

/-! ## Events -/

/-- Where the thread of an event is. -/
inductive TaskPc
  /-- In `periodicTask`, in front of `executionMutex`. -/
  | lock
  | check
  | body
  | wait
  | leave
  /-- In the body of an event without a period. -/
  | once
  | returned
  deriving DecidableEq, Repr

/-- `std::thread`. -/
inductive Thread
  | none
  | running (pc : TaskPc)
  | joined
  deriving DecidableEq, Repr

@[simp] def Thread.joinable : Thread → Bool
  | .running _ => true
  | _ => false

structure EventBody where
  period : Option ℤ := none
  isCanceled : Bool := false
  isStarted : Bool := false
  isDone : Bool := false
  periodicThread : Thread := .none
  deriving DecidableEq, Repr

/-- Whether `executionMutex` is free. -/
def EventBody.free (b : EventBody) : Bool :=
  b.periodicThread ≠ .running .check ∧ b.periodicThread ≠ .running .body ∧
    b.periodicThread ≠ .running .leave

/-- `intervalCondition.notify_one()`. -/
def EventBody.notify (b : EventBody) : EventBody :=
  if b.periodicThread = .running .wait then { b with periodicThread := .running .lock } else b

/-- A step of the thread of an event. -/
inductive TaskStep : EventBody → EventBody → Prop
  | lock {b} : b.periodicThread = .running .lock →
      TaskStep b { b with periodicThread := .running .check }
  | proceed {b} : b.periodicThread = .running .check → b.isCanceled = false →
      TaskStep b { b with periodicThread := .running .body }
  | canceled {b} : b.periodicThread = .running .check → b.isCanceled = true →
      TaskStep b { b with periodicThread := .running .leave }
  | wait {b} : b.periodicThread = .running .body →
      TaskStep b { b with periodicThread := .running .wait }
  | wakeup {b} : b.periodicThread = .running .wait →
      TaskStep b { b with periodicThread := .running .lock }
  | leave {b} : b.periodicThread = .running .leave →
      TaskStep b { b with isStarted := false, periodicThread := .running .returned }
  | once {b} : b.periodicThread = .running .once →
      TaskStep b { b with isDone := true, periodicThread := .running .returned }

/-! ## Where the events are -/

structure Events where
  /-- The heap. -/
  bodies : ℕ → EventBody := fun _ => {}
  next : ℕ := 0
  /-- What `createSchedule` has returned to callers of `schedule` that do not have the mutex. -/
  scheduling : List (ℤ × ℕ) := []
  events_ : Multimap ℤ ℕ := {}
  nonPeriodicEvents_ : List ℕ := []

namespace Events

def make (q : Events) (period : Option ℤ) (time : ℤ) : Events :=
  { q with
    bodies := Function.update q.bodies q.next { period := period }
    next := q.next + 1
    scheduling := q.scheduling ++ [(time, q.next)] }

/-- `events_.insert`, by caller `i` of `schedule`. -/
def insert (q : Events) (i : ℕ) (time : ℤ) (e : ℕ) : Events :=
  { q with scheduling := q.scheduling.eraseIdx i, events_ := q.events_.insert time e }

def set (q : Events) (e : ℕ) (b : EventBody) : Events :=
  { q with bodies := Function.update q.bodies e b }

def join (q : Events) (e : ℕ) : Events :=
  q.set e { q.bodies e with periodicThread := .joined }

/-- `events_.erase(events_.begin())`. -/
def eraseBegin (q : Events) : Events := { q with events_ := q.events_.eraseBegin }

/-- The insertion of the first entry at a later time, and its erasure. -/
def reschedule (q : Events) (time : ℤ) (e : ℕ) : Events :=
  { q with events_ := (q.events_.insert time e).eraseBegin }

/-- `nonPeriodicEvents_.push_back`, and the erasure of the first entry. -/
def setAside (q : Events) (e : ℕ) : Events :=
  { q with nonPeriodicEvents_ := q.nonPeriodicEvents_ ++ [e], events_ := q.events_.eraseBegin }

def remove (q : Events) (i : ℕ) : Events :=
  { q with nonPeriodicEvents_ := q.nonPeriodicEvents_.eraseIdx i }

def clear (q : Events) : Events := { q with events_ := {} }

end Events

/-! ## The scheduler -/

/-- Where `runSchedule` is; `now` is its variable of that name. -/
inductive LoopPc
  /-- Not called, or returned. -/
  | idle
  | lock
  | top
  /-- In the clean-up, in front of event `i`, or behind the last one. -/
  | clean (i : ℕ)
  | cleanCanceled (i : ℕ)
  | cleanDone (i : ℕ)
  | waitUntil
  | wait (now : ℤ)
  | drain (now : ℤ)
  /-- With the first entry, which is the one `it` points to as long as the mutex is held. -/
  | periodic (now : ℤ)
  | tryLock (now : ℤ)
  | notified (now : ℤ)
  | start (now : ℤ)
  | reschedule (now : ℤ)
  | single (now : ℤ)
  | drained
  deriving DecidableEq, Repr

/-- Whether it has `eventsMutex_`. -/
@[simp] def LoopPc.holds : LoopPc → Bool
  | .idle | .lock | .waitUntil | .wait _ => false
  | _ => true

/-- Where `stop` is. -/
inductive StopPc
  /-- Not called, or returned. -/
  | idle
  | lock
  | cancel (i : ℕ)
  | join (i : ℕ)
  | joinNonPeriodic (i : ℕ)
  | joinInvoker
  | leave
  /-- Left by an exception of `std::thread::join`. -/
  | failed
  deriving DecidableEq, Repr

@[simp] def StopPc.holds : StopPc → Bool
  | .cancel _ | .join _ | .joinNonPeriodic _ => true
  | _ => false

/-- `invokerThread_`; its program counter is that of the loop. -/
inductive Invoker
  | none | joinable | joined
  deriving DecidableEq, Repr

structure Scheduler where
  queue : Events := {}
  started_ : Bool := false
  startingTime_ : ℤ := 0
  mainThread_ : Bool
  invokerThread_ : Invoker := .none
  loop : LoopPc := .idle
  stop : StopPc := .idle

/-- `createSchedule`. -/
def Scheduler.createSchedule (s : Scheduler) (start now : ℤ) : ℤ :=
  if s.started_ then start + (now - s.startingTime_) else start

/-- A step of `runSchedule`. -/
inductive LoopStep : Scheduler → Scheduler → Prop
  | lock {s} (now : ℤ) : s.loop = .lock → s.stop.holds = false →
      LoopStep s { s with startingTime_ := now, started_ := true, loop := .top }
  | empty {s} (now : ℤ) : s.loop = .top → s.queue.events_.begin? = none →
      LoopStep s { s with loop := .wait now }
  | early {s time e} (now : ℤ) : s.loop = .top → s.queue.events_.begin? = some (time, e) →
      now < s.startingTime_ + time → LoopStep s { s with loop := .clean 0 }
  | due {s time e} (now : ℤ) : s.loop = .top → s.queue.events_.begin? = some (time, e) →
      s.startingTime_ + time ≤ now → LoopStep s { s with loop := .drain now }
  | join {s i e} : s.loop = .clean i → s.queue.nonPeriodicEvents_[i]? = some e →
      (s.queue.bodies e).isDone = true →
      (s.queue.bodies e).periodicThread = .running .returned →
      LoopStep s { s with queue := s.queue.join e, loop := .cleanCanceled i }
  | notDone {s i e} : s.loop = .clean i → s.queue.nonPeriodicEvents_[i]? = some e →
      (s.queue.bodies e).isDone = false → LoopStep s { s with loop := .cleanCanceled i }
  | removeCanceled {s i e} : s.loop = .cleanCanceled i →
      s.queue.nonPeriodicEvents_[i]? = some e → (s.queue.bodies e).isCanceled = true →
      LoopStep s { s with queue := s.queue.remove i, loop := .clean i }
  | notCanceled {s i e} : s.loop = .cleanCanceled i →
      s.queue.nonPeriodicEvents_[i]? = some e → (s.queue.bodies e).isCanceled = false →
      LoopStep s { s with loop := .cleanDone i }
  | removeDone {s i e} : s.loop = .cleanDone i → s.queue.nonPeriodicEvents_[i]? = some e →
      (s.queue.bodies e).isDone = true →
      LoopStep s { s with queue := s.queue.remove i, loop := .clean i }
  | keep {s i e} : s.loop = .cleanDone i → s.queue.nonPeriodicEvents_[i]? = some e →
      (s.queue.bodies e).isDone = false → LoopStep s { s with loop := .clean (i + 1) }
  | cleaned {s i} : s.loop = .clean i → s.queue.nonPeriodicEvents_[i]? = none →
      LoopStep s { s with loop := .waitUntil }
  | waitedUntil {s} (now : ℤ) : s.loop = .waitUntil → s.stop.holds = false →
      LoopStep s { s with loop := .drain now }
  | waited {s now} : s.loop = .wait now → s.stop.holds = false →
      LoopStep s { s with loop := .drain now }
  | drained {s now} : s.loop = .drain now →
      (∀ entry, s.queue.events_.begin? = some entry → now < s.startingTime_ + entry.1) →
      LoopStep s { s with loop := .drained }
  | periodic {s now time e} : s.loop = .drain now →
      s.queue.events_.begin? = some (time, e) → s.startingTime_ + time ≤ now →
      (s.queue.bodies e).period.isSome → LoopStep s { s with loop := .periodic now }
  | single {s now time e} : s.loop = .drain now →
      s.queue.events_.begin? = some (time, e) → s.startingTime_ + time ≤ now →
      (s.queue.bodies e).period = none → LoopStep s { s with loop := .single now }
  | started {s now time e} : s.loop = .periodic now →
      s.queue.events_.begin? = some (time, e) → (s.queue.bodies e).isStarted = true →
      LoopStep s { s with loop := .tryLock now }
  | notStarted {s now time e} : s.loop = .periodic now →
      s.queue.events_.begin? = some (time, e) → (s.queue.bodies e).isStarted = false →
      LoopStep s { s with loop := .start now }
  | notify {s now time e} : s.loop = .tryLock now →
      s.queue.events_.begin? = some (time, e) → (s.queue.bodies e).free = true →
      LoopStep s { s with queue := s.queue.set e (s.queue.bodies e).notify, loop := .notified now }
  /-- `handleMissedDeadline`. -/
  | missed {s now time e period} : s.loop = .tryLock now →
      s.queue.events_.begin? = some (time, e) → (s.queue.bodies e).period = some period →
      LoopStep s { s with queue := s.queue.reschedule (time + period) e, loop := .drain now }
  | setAside {s now time e} : s.loop = .notified now →
      s.queue.events_.begin? = some (time, e) → (s.queue.bodies e).isCanceled = true →
      LoopStep s { s with queue := s.queue.setAside e, loop := .drain now }
  | goOn {s now time e} : s.loop = .notified now →
      s.queue.events_.begin? = some (time, e) → (s.queue.bodies e).isCanceled = false →
      LoopStep s { s with loop := .reschedule now }
  | start {s now time e} : s.loop = .start now →
      s.queue.events_.begin? = some (time, e) → (s.queue.bodies e).isCanceled = false →
      (s.queue.bodies e).periodicThread.joinable = false →
      LoopStep s { s with
        queue := s.queue.set e { s.queue.bodies e with
          isStarted := true, periodicThread := .running .lock }
        loop := .reschedule now }
  | notToStart {s now time e} : s.loop = .start now →
      s.queue.events_.begin? = some (time, e) → (s.queue.bodies e).isCanceled = true →
      LoopStep s { s with loop := .reschedule now }
  | reschedule {s now time e period} : s.loop = .reschedule now →
      s.queue.events_.begin? = some (time, e) → (s.queue.bodies e).isCanceled = false →
      (s.queue.bodies e).period = some period →
      LoopStep s { s with queue := s.queue.reschedule (time + period) e, loop := .drain now }
  | erase {s now time e} : s.loop = .reschedule now →
      s.queue.events_.begin? = some (time, e) → (s.queue.bodies e).isCanceled = true →
      LoopStep s { s with queue := s.queue.eraseBegin, loop := .drain now }
  | startSingle {s now time e} : s.loop = .single now →
      s.queue.events_.begin? = some (time, e) → (s.queue.bodies e).isCanceled = false →
      (s.queue.bodies e).periodicThread.joinable = false →
      LoopStep s { s with
        queue :=
          (s.queue.set e { s.queue.bodies e with periodicThread := .running .once }).setAside e
        loop := .drain now }
  | eraseSingle {s now time e} : s.loop = .single now →
      s.queue.events_.begin? = some (time, e) → (s.queue.bodies e).isCanceled = true →
      LoopStep s { s with queue := s.queue.eraseBegin, loop := .drain now }
  | goRound {s} : s.loop = .drained → s.started_ = true → LoopStep s { s with loop := .top }
  | return {s} : s.loop = .drained → s.started_ = false → LoopStep s { s with loop := .idle }

/-- A step of `stop` that does not call `std::thread::join`. -/
inductive StopStep : Scheduler → Scheduler → Prop
  | cancel {s i time e} : s.stop = .cancel i → s.queue.events_.entries[i]? = some (time, e) →
      (s.queue.bodies e).free = true →
      StopStep s { s with
        queue := s.queue.set e ({ s.queue.bodies e with isCanceled := true } : EventBody).notify
        stop := .cancel (i + 1) }
  | canceled {s i} : s.stop = .cancel i → s.queue.events_.entries[i]? = none →
      StopStep s { s with stop := .join 0 }
  | joined {s i} : s.stop = .join i → s.queue.events_.entries[i]? = none →
      StopStep s { s with stop := .joinNonPeriodic 0 }
  | skip {s i e} : s.stop = .joinNonPeriodic i → s.queue.nonPeriodicEvents_[i]? = some e →
      (s.queue.bodies e).periodicThread.joinable = false →
      StopStep s { s with stop := .joinNonPeriodic (i + 1) }
  | clear {s i} : s.stop = .joinNonPeriodic i → s.queue.nonPeriodicEvents_[i]? = none →
      StopStep s { s with queue := s.queue.clear, stop := .joinInvoker }
  | main {s} : s.stop = .joinInvoker → s.mainThread_ = true → StopStep s { s with stop := .leave }

/-- A call of `std::thread::join` by `stop`. -/
inductive JoinStep : Scheduler → Scheduler → Prop
  | event {s i time e} : s.stop = .join i → s.queue.events_.entries[i]? = some (time, e) →
      (s.queue.bodies e).periodicThread = .running .returned →
      JoinStep s { s with queue := s.queue.join e, stop := .join (i + 1) }
  | notJoinable {s i time e} : s.stop = .join i → s.queue.events_.entries[i]? = some (time, e) →
      (s.queue.bodies e).periodicThread.joinable = false →
      JoinStep s { s with stop := .failed }
  | nonPeriodic {s i e} : s.stop = .joinNonPeriodic i →
      s.queue.nonPeriodicEvents_[i]? = some e →
      (s.queue.bodies e).periodicThread = .running .returned →
      JoinStep s { s with queue := s.queue.join e, stop := .joinNonPeriodic (i + 1) }
  | invoker {s} : s.stop = .joinInvoker → s.mainThread_ = false →
      s.invokerThread_ = .joinable → s.loop = .idle →
      JoinStep s { s with invokerThread_ := .joined, stop := .leave }
  | noInvoker {s} : s.stop = .joinInvoker → s.mainThread_ = false →
      s.invokerThread_ ≠ .joinable → JoinStep s { s with stop := .failed }

inductive Action
  | schedule (period : Option ℤ) (start now : ℤ)
  | insert
  | cancel (e : ℕ)
  | changePeriod (e : ℕ) (period : ℤ)
  /-- `run(RunStage::FINAL)`, or `startSchedule` in the main thread. -/
  | start
  | loop
  | task (e : ℕ)
  | stop
  | destroy
  | lock
  | stopping
  | join
  | return
  deriving DecidableEq, Repr

/-- One step of any party. -/
inductive Step : Scheduler → Action → Scheduler → Prop
  | schedule {s} (period : Option ℤ) (start now : ℤ) : Step s (.schedule period start now)
      { s with queue := s.queue.make period (s.createSchedule start now) }
  | insert {s i time e} : s.loop.holds = false → s.stop.holds = false →
      s.queue.scheduling[i]? = some (time, e) →
      Step s .insert { s with queue := s.queue.insert i time e }
  | cancel {s} (e : ℕ) : e < s.queue.next → Step s (.cancel e)
      { s with queue := s.queue.set e { s.queue.bodies e with isCanceled := true } }
  | changePeriod {s} (e : ℕ) (period : ℤ) : (s.queue.bodies e).period.isSome →
      Step s (.changePeriod e period)
        { s with queue := s.queue.set e { s.queue.bodies e with period := some period } }
  | startInvoker {s} : s.mainThread_ = false → s.invokerThread_ ≠ .joinable → s.loop = .idle →
      Step s .start { s with invokerThread_ := .joinable, loop := .lock }
  | startMain {s} : s.mainThread_ = true → s.loop = .idle →
      Step s .start { s with loop := .lock }
  | loop {s s'} : LoopStep s s' → Step s .loop s'
  | task {s e b} : TaskStep (s.queue.bodies e) b →
      Step s (.task e) { s with queue := s.queue.set e b }
  | stop {s} : s.stop = .idle → Step s .stop { s with stop := .lock }
  /-- The destructor. -/
  | destroy {s} : s.stop = .idle →
      Step s .destroy { s with stop := if s.started_ then .lock else .idle }
  | lock {s} : s.stop = .lock → s.loop.holds = false →
      Step s .lock { s with started_ := false, stop := .cancel 0 }
  | stopping {s s'} : StopStep s s' → Step s .stopping s'
  | join {s s'} : JoinStep s s' → Step s .join s'
  | return {s} : s.stop = .leave → Step s .return { s with stop := .idle }

end CpsCore.MultiThreadingScheduler

import Mathlib
import CpsCore.Lib.Multimap

/-!
# The micro simulator

`MicroSimulator` is a scheduler with a clock of its own: `simulate` takes the events out of the
queue in the order of their times and sets the clock to the time of each.

* A `TimePoint` and a `Duration` are counts of nanoseconds, here integers without a bound, as is
  `runs`.  The code has an `int64_t` for them, so it does what the model does as long as every time
  it computes is in that range (`TimePoint.Fits`); beyond it the sum is not defined.
* An `EventBody` lives on the heap; queue entries and `Event` handles are its address.  A handle
  is weak: its body is gone when no queue entry points to it any more.
* A task is a `Program` of calls into the simulator, over a world of its own.
* The real-time factor only delays `simulate`; it is 0 here.
-/

namespace CpsCore

/-- The range of the nanoseconds of a `TimePoint`. -/
def TimePoint.Fits (time : ℤ) : Prop := -2 ^ 63 ≤ time ∧ time < 2 ^ 63

instance : DecidablePred TimePoint.Fits := fun time =>
  inferInstanceAs (Decidable (-2 ^ 63 ≤ time ∧ time < 2 ^ 63))

structure EventBody (T : Type) where
  body : T
  period : Option ℤ
  isCanceled : Bool := false

structure MicroSimulator (T : Type) where
  events : Multimap ℤ ℕ := {}
  /-- The heap. -/
  bodies : List (EventBody T) := []
  now : ℤ
  runs : ℕ := 0
  stopped : Bool := false
  showProgress : Bool := false

variable {T W : Type}

namespace MicroSimulator

/-- Both overloads of `schedule`; without a period the event runs once. -/
def schedule (s : MicroSimulator T) (task : T) (initialFromNow : ℤ)
    (period : Option ℤ) : ℕ × MicroSimulator T :=
  let event := s.bodies.length
  (event, { s with
    bodies := s.bodies ++ [{ body := task, period := period }]
    events := s.events.insert (s.now + initialFromNow) event })

def stop (s : MicroSimulator T) : MicroSimulator T := { s with stopped := true }

def isCanceled (s : MicroSimulator T) (event : ℕ) : Bool :=
  s.bodies[event]?.any EventBody.isCanceled

def period (s : MicroSimulator T) (event : ℕ) : Option ℤ :=
  s.bodies[event]?.bind EventBody.period

end MicroSimulator

/-! ## Handles -/

namespace Event

/-- `body_.lock()`. -/
def lock (s : MicroSimulator T) (event : ℕ) : Option (EventBody T) :=
  if event ∈ s.events.entries.map Prod.snd then s.bodies[event]? else none

def cancel (s : MicroSimulator T) (event : ℕ) : MicroSimulator T :=
  match lock s event with
  | some body => { s with bodies := s.bodies.set event { body with isCanceled := true } }
  | none => s

def isCanceled (s : MicroSimulator T) (event : ℕ) : Bool :=
  match lock s event with
  | some body => body.isCanceled
  | none => true

/-- An event that has no period does not get one. -/
def changePeriod (s : MicroSimulator T) (event : ℕ) (period : ℤ) :
    MicroSimulator T :=
  match lock s event with
  | some body =>
      if body.period = none then s
      else { s with bodies := s.bodies.set event { body with period := some period } }
  | none => s

end Event

/-! ## Tasks -/

/-- What a task does: it calls the simulator, goes on with the answer, and ends with its world. -/
inductive Program (T W : Type)
  | done (world : W)
  | schedule (task : T) (initialFromNow : ℤ) (period : Option ℤ)
      (next : ℕ → Program T W)
  | cancel (event : ℕ) (next : Program T W)
  | changePeriod (event : ℕ) (period : ℤ) (next : Program T W)
  | isCanceled (event : ℕ) (next : Bool → Program T W)
  | now (next : ℤ → Program T W)
  | stop (next : Program T W)

/-- A call, as it is observed from outside; cancelling and re-timing only where they reach a
body. -/
inductive Call
  | schedule (event : ℕ) (time : ℤ) (period : Option ℤ)
  | cancel (event : ℕ)
  | changePeriod (event : ℕ) (period : ℤ)
  | isCanceled (event : ℕ)
  | now
  | stop
  deriving DecidableEq, Repr

/-- Runs a task; each call is recorded with the clock at that moment. -/
def Program.run : Program T W → MicroSimulator T →
    List (ℤ × Call) × W × MicroSimulator T
  | .done world, s => ([], world, s)
  | .schedule task initialFromNow period next, s =>
      let scheduled := s.schedule task initialFromNow period
      let rest := (next scheduled.1).run scheduled.2
      ((s.now, .schedule scheduled.1 (s.now + initialFromNow) period) :: rest.1, rest.2)
  | .cancel event next, s =>
      let rest := next.run (Event.cancel s event)
      (if (Event.lock s event).isSome then (s.now, .cancel event) :: rest.1 else rest.1, rest.2)
  | .changePeriod event period next, s =>
      let rest := next.run (Event.changePeriod s event period)
      (if (Event.lock s event).isSome then (s.now, .changePeriod event period) :: rest.1
        else rest.1, rest.2)
  | .isCanceled event next, s =>
      let rest := (next (Event.isCanceled s event)).run s
      ((s.now, .isCanceled event) :: rest.1, rest.2)
  | .now next, s =>
      let rest := (next s.now).run s
      ((s.now, .now) :: rest.1, rest.2)
  | .stop next, s =>
      let rest := next.run s.stop
      ((s.now, .stop) :: rest.1, rest.2)

/-! ## The loop -/

/-- The execution of a body. -/
structure Execution where
  /-- The clock when the body is called. -/
  now : ℤ
  calls : List (ℤ × Call)
  /-- The time for which a periodic event is inserted again. -/
  again : Option ℤ
  deriving DecidableEq, Repr

/-- One pass of the loop: an entry is taken, and executed unless it was cancelled. -/
structure Iteration where
  entry : ℤ × ℕ
  execution : Option Execution
  deriving DecidableEq, Repr

namespace MicroSimulator

/-- The call of a body, and the insertion of a periodic event for its next time. -/
def execute (exec : T → W → Program T W) (s : MicroSimulator T) (world : W) (event : ℕ)
    (task : T) : Execution × W × MicroSimulator T :=
  let ran := (exec task world).run s
  let s' := ran.2.2
  match s'.period event with
  | some period =>
      let time := s'.now + period
      (⟨s.now, ran.1, some time⟩, ran.2.1,
        { s' with events := s'.events.insert time event, runs := s'.runs + 1 })
  | none => (⟨s.now, ran.1, none⟩, ran.2.1, { s' with runs := s'.runs + 1 })

/-- One pass of the loop, with the first entry of the queue.  An entry always has a body; were it
missing, the entry would be dropped. -/
def iterate (exec : T → W → Program T W) (s : MicroSimulator T) (world : W)
    (entry : ℤ × ℕ) : Iteration × W × MicroSimulator T :=
  let s := { s with now := entry.1 }
  match s.bodies[entry.2]? with
  | some body =>
      if body.isCanceled then
        (⟨entry, none⟩, world, { s with events := s.events.eraseBegin })
      else
        let executed := s.execute exec world entry.2 body.body
        let s' := executed.2.2
        (⟨entry, some executed.1⟩, executed.2.1, { s' with events := s'.events.eraseBegin })
  | none => (⟨entry, none⟩, world, { s with events := s.events.eraseBegin })

/-- The loop of `simulate`, for at most `fuel` passes, and the assignment behind it. -/
def loop (exec : T → W → Program T W) (endSim : ℤ) :
    ℕ → MicroSimulator T → W → Option (List Iteration × W × MicroSimulator T)
  | 0, _, _ => none
  | fuel + 1, s, world =>
      if s.now ≤ endSim then
        match s.events.begin? with
        | none => some ([], world, { s with now := endSim })
        | some entry =>
            if endSim < entry.1 then some ([], world, { s with now := endSim })
            else if s.stopped then some ([], world, s)
            else
              let pass := s.iterate exec world entry
              (loop exec endSim fuel pass.2.2 pass.2.1).map fun rest => (pass.1 :: rest.1, rest.2)
      else some ([], world, { s with now := endSim })

/-- `simulate(duration)`: its return value, its passes, and what it leaves behind; nothing where
it does not return within `fuel` passes. -/
def simulate (exec : T → W → Program T W) (logProgress : ℤ → ℤ → T) (fuel : ℕ)
    (s : MicroSimulator T) (world : W) (duration : ℤ) :
    Option (ℕ × List Iteration × W × MicroSimulator T) :=
  let s := { s with runs := 0 }
  let endSim := s.now + duration
  let s :=
    if s.showProgress then
      let percent := duration.tdiv 100
      (s.schedule (logProgress endSim duration) percent (some percent)).2
    else s
  (loop exec endSim fuel s world).map fun result => (result.2.2.runs, result)

end MicroSimulator

end CpsCore

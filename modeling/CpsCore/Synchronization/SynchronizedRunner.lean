import Mathlib
import CpsCore.Lib.Transition

/-!
# The synchronized runner

One `SynchronizedRunnerMaster` and `n` `SynchronizedRunner`s share a `Synchronizer`: the current
stage and a failure flag behind a mutex with a condition variable, and a semaphore the runners
post when they have finished a stage.

Every party is a program counter with its local variables, and every step is one access to the
shared object or one call of an object's `run`.  A call may fail, and the master's timeout may
fire at any moment.  A runner waits on the condition until it is notified; with `spurious` set, a
wait may also return by itself.
-/

namespace CpsCore

inductive RunStage
  | init | normal | final | synchronize
  deriving DecidableEq, Repr

/-- Who holds `runStageMutex`. -/
inductive Owner (n : ℕ)
  | free | master | runner (i : Fin n)
  deriving DecidableEq, Repr

structure Synchronizer (n : ℕ) where
  runStage : RunStage := .synchronize
  failure : Bool := false
  runStageMutex : Owner n := .free
  finishedStage : ℕ := 0
  deriving DecidableEq, Repr

/-! ## The master -/

/-- Where `runAllStages` is: in `runStage(stage)`, or behind it. -/
inductive MasterPc
  | lock (stage : RunStage)
  | assign (stage : RunStage)
  | notify (stage : RunStage)
  | unlock (stage : RunStage)
  /-- In front of `timed_wait` number `i`, or behind the loop. -/
  | timedWait (stage : RunStage) (i : ℕ)
  | failLock
  | failAssign
  | failNotify
  | failUnlock
  | returned (error : Bool)
  deriving DecidableEq, Repr

/-- What follows a stage all runners have finished. -/
def afterStage : RunStage → MasterPc
  | .init => .lock .normal
  | .normal => .lock .final
  | .final => .returned false
  | .synchronize => .returned false

/-- A step of the master; the last index says whether it notifies all waiting runners. -/
inductive MasterStep {n : ℕ} : Synchronizer n → MasterPc → Synchronizer n → MasterPc → Bool → Prop
  | lock {s stage} : s.runStageMutex = .free →
      MasterStep s (.lock stage) { s with runStageMutex := .master } (.assign stage) false
  | assign {s stage} : MasterStep s (.assign stage) { s with runStage := stage } (.notify stage) false
  | notify {s stage} : MasterStep s (.notify stage) s (.unlock stage) true
  | unlock {s stage} :
      MasterStep s (.unlock stage) { s with runStageMutex := .free } (.timedWait stage 0) false
  | take {s stage i count} : i < n → s.finishedStage = count + 1 →
      MasterStep s (.timedWait stage i) { s with finishedStage := count } (.timedWait stage (i + 1))
        false
  | timeout {s stage i} : i < n → MasterStep s (.timedWait stage i) s .failLock false
  | finished {s stage} : MasterStep s (.timedWait stage n) s (afterStage stage) false
  | failLock {s} : s.runStageMutex = .free →
      MasterStep s .failLock { s with runStageMutex := .master } .failAssign false
  | failAssign {s} : MasterStep s .failAssign { s with failure := true } .failNotify false
  | failNotify {s} : MasterStep s .failNotify s .failUnlock true
  | failUnlock {s} :
      MasterStep s .failUnlock { s with runStageMutex := .free } (.returned true) false

/-! ## A runner -/

/-- Where `runSynchronized` is. -/
inductive RunnerPc
  | lock
  | check
  | waiting
  | notified
  | recheck
  | unlock (stage : RunStage)
  /-- In the loop over the objects; `results` are those of the calls made so far. -/
  | run (stage : RunStage) (results : List Bool)
  | post
  | returned (error : Bool)
  deriving DecidableEq, Repr

/-- A runner; `history` records the stages whose loop has ended, with the results. -/
structure Runner where
  pc : RunnerPc := .lock
  lastRunStage : RunStage := .synchronize
  history : List (RunStage × List Bool) := []
  deriving DecidableEq, Repr

/-- A step of runner `i`, which has `objects` runnable objects. -/
inductive RunnerStep {n : ℕ} (objects : ℕ) (spurious : Bool) (i : Fin n) :
    Synchronizer n → Runner → Synchronizer n → Runner → Prop
  | lock {s r} : r.pc = .lock → s.runStageMutex = .free →
      RunnerStep objects spurious i s r { s with runStageMutex := .runner i } { r with pc := .check }
  | failure {s r} : r.pc = .check ∨ r.pc = .recheck → s.failure = true →
      RunnerStep objects spurious i s r { s with runStageMutex := .free }
        { r with pc := .returned true }
  | changed {s r} : r.pc = .check → s.failure = false → s.runStage ≠ r.lastRunStage →
      RunnerStep objects spurious i s r s { r with pc := .unlock s.runStage }
  | wait {s r} : r.pc = .check → s.failure = false → s.runStage = r.lastRunStage →
      RunnerStep objects spurious i s r { s with runStageMutex := .free } { r with pc := .waiting }
  | wakeup {s r} : spurious = true → r.pc = .waiting →
      RunnerStep objects spurious i s r s { r with pc := .notified }
  | reacquire {s r} : r.pc = .notified → s.runStageMutex = .free →
      RunnerStep objects spurious i s r { s with runStageMutex := .runner i }
        { r with pc := .recheck }
  | woken {s r} : r.pc = .recheck → s.failure = false →
      RunnerStep objects spurious i s r s { r with pc := .unlock s.runStage }
  | unlock {s r stage} : r.pc = .unlock stage →
      RunnerStep objects spurious i s r { s with runStageMutex := .free }
        { r with pc := .run stage [] }
  | call {s r stage results} (error : Bool) : r.pc = .run stage results → results.length < objects →
      RunnerStep objects spurious i s r s { r with pc := .run stage (results ++ [error]) }
  | failed {s r stage results} : r.pc = .run stage results → results.length = objects →
      true ∈ results →
      RunnerStep objects spurious i s r s
        { r with pc := .returned true, history := r.history ++ [(stage, results)] }
  | finished {s r stage results} : r.pc = .run stage results → results.length = objects →
      true ∉ results →
      RunnerStep objects spurious i s r s
        { pc := .post, lastRunStage := stage, history := r.history ++ [(stage, results)] }
  | post {s r} : r.pc = .post →
      RunnerStep objects spurious i s r { s with finishedStage := s.finishedStage + 1 }
        { r with pc := if r.lastRunStage = .final then .returned false else .lock }

/-- `notify_all`, as a runner sees it. -/
def Runner.wake (r : Runner) : Runner := if r.pc = .waiting then { r with pc := .notified } else r

/-! ## The system -/

structure System (n : ℕ) where
  sync : Synchronizer n := {}
  master : MasterPc := .lock .init
  runner : Fin n → Runner := fun _ => {}

inductive Actor (n : ℕ)
  | master | runner (i : Fin n)

/-- One step of any party.  A runner that has not started yet is one that has not been scheduled. -/
def System.step {n : ℕ} (objects : Fin n → ℕ) (spurious : Bool) (s : System n) :
    Actor n → System n → Prop
  | .master, s' => ∃ sync pc wake, MasterStep s.sync s.master sync pc wake ∧
      s' = ⟨sync, pc, if wake then fun i => (s.runner i).wake else s.runner⟩
  | .runner i, s' => ∃ sync r, RunnerStep (objects i) spurious i s.sync (s.runner i) sync r ∧
      s' = ⟨sync, s.master, Function.update s.runner i r⟩

/-- The stages a runner has started, with the results of the calls made so far. -/
def Runner.executed (r : Runner) : List (RunStage × List Bool) :=
  match r.pc with
  | .run stage results => r.history ++ [(stage, results)]
  | _ => r.history

def Runner.Started (r : Runner) (stage : RunStage) : Prop := stage ∈ r.executed.map Prod.fst

/-- All objects were called for the stage, and none returned an error. -/
def Runner.Finished (objects : ℕ) (r : Runner) (stage : RunStage) : Prop :=
  (stage, List.replicate objects false) ∈ r.history

end CpsCore

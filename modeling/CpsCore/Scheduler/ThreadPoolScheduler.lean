import Mathlib
import CpsCore.Lib.Multimap
import CpsCore.Lib.Transition

/-!
# The thread pool

The workers `ω` of a `ThreadPoolScheduler` all run `threadLoop`: with the mutex, a worker looks
through `tasks_` for one it can run, and without it, it runs that task.

What a worker does with the mutex is one step.  The clock may show any time, and a wait may end at
any moment.  An entry of `tasks_` is the address of a `Task`.
-/

namespace CpsCore.ThreadPoolScheduler

structure Task where
  running : Bool := false
  finished : Bool := false
  depends : Finset String := ∅
  provides : Finset String := ∅

/-- The loop over `tasks_` that sets `dependencyFound`. -/
def dependencyFound (heap : ℕ → Task) (task : Task) (time : ℤ) : List (ℤ × ℕ) → Bool
  | [] => false
  | (t, other) :: tasks =>
      if t > time then false
      else if ∃ depends ∈ task.depends, depends ∈ (heap other).provides then true
      -- the scan ends at the first entry of the same time
      else if t = time then false
      else if ∃ provide ∈ task.provides, provide ∈ (heap other).depends then true
      else dependencyFound heap task time tasks

/-- Whether the entry gets past the check. -/
def passes (heap : ℕ → Task) (tasks : List (ℤ × ℕ)) (entry : ℤ × ℕ) : Bool :=
  if (heap entry.2).depends ≠ ∅ ∨ (heap entry.2).provides ≠ ∅ then
    !dependencyFound heap (heap entry.2) entry.1 tasks
  else true

/-- What a worker goes on to do. -/
inductive Selection
  | run (time : ℤ) (task : ℕ)
  | waitUntil (time : ℤ)
  | nothing
  deriving DecidableEq, Repr

/-- The loop over `tasks_` that sets `itToRun`; `tasks` are all entries. -/
def select (heap : ℕ → Task) (tasks : List (ℤ × ℕ)) (now : ℤ) : List (ℤ × ℕ) → Selection
  | [] => .nothing
  | (time, task) :: later =>
      if time > now then .waitUntil time
      else if (heap task).running then select heap tasks now later
      else if passes heap tasks (time, task) then .run time task
      else select heap tasks now later

/-! ## The workers -/

inductive WorkerPc
  /-- In front of `while (!canceled_.load())`. -/
  | loop
  | lock
  | waitUntil
  | task (task : ℕ)
  | returned
  deriving DecidableEq, Repr

structure Pool (ω : Type) where
  tasks_ : Multimap ℤ ℕ
  heap : ℕ → Task
  worker : ω → WorkerPc := fun _ => .loop
  canceled_ : Bool := false

namespace Pool

variable {ω : Type}

def select (s : Pool ω) (now : ℤ) : Selection :=
  ThreadPoolScheduler.select s.heap s.tasks_.entries now s.tasks_.entries

def set (s : Pool ω) (e : ℕ) (task : Task) : Pool ω :=
  { s with heap := Function.update s.heap e task }

/-- Worker `w` takes the task, which is scheduled at `time`. -/
def Starts (s : Pool ω) (w : ω) (now time : ℤ) (e : ℕ) : Prop :=
  s.worker w = .lock ∧ s.select now = .run time e

variable [DecidableEq ω]

def goto (s : Pool ω) (w : ω) (pc : WorkerPc) : Pool ω :=
  { s with worker := Function.update s.worker w pc }

/-- One step of worker `w`. -/
inductive Step : Pool ω → ω → Pool ω → Prop
  | check {s w} : s.worker w = .loop → s.canceled_ = false → Step s w (s.goto w .lock)
  | return {s w} : s.worker w = .loop → s.canceled_ = true → Step s w (s.goto w .returned)
  | start {s w now time e} : s.Starts w now time e →
      Step s w ((s.set e { s.heap e with running := true }).goto w (.task e))
  | waitUntil {s w now time} : s.worker w = .lock → s.select now = .waitUntil time →
      Step s w (s.goto w .waitUntil)
  | nothing {s w now} : s.worker w = .lock → s.select now = .nothing → Step s w (s.goto w .loop)
  | wakeup {s w} : s.worker w = .waitUntil → Step s w (s.goto w .loop)
  | finish {s w e} : s.worker w = .task e →
      Step s w ((s.set e { s.heap e with running := false, finished := true }).goto w .loop)
  /-- `canceled_` is set, by whomever. -/
  | cancel {s w} : Step s w { s with canceled_ := true }

@[simp] lemma heap_goto (s : Pool ω) (w : ω) (pc : WorkerPc) : (s.goto w pc).heap = s.heap := rfl

omit [DecidableEq ω] in
@[simp] lemma heap_set_self (s : Pool ω) (e : ℕ) (task : Task) : (s.set e task).heap e = task :=
  Function.update_self ..

omit [DecidableEq ω] in
lemma heap_set_of_ne (s : Pool ω) {e e' : ℕ} (task : Task) (hne : e' ≠ e) :
    (s.set e task).heap e' = s.heap e' := Function.update_of_ne hne ..

@[simp] lemma worker_goto_self (s : Pool ω) (w : ω) (pc : WorkerPc) :
    (s.goto w pc).worker w = pc := Function.update_self ..

lemma worker_goto_of_ne (s : Pool ω) {w w' : ω} (pc : WorkerPc) (hne : w' ≠ w) :
    (s.goto w pc).worker w' = s.worker w' := Function.update_of_ne hne ..

end Pool

end CpsCore.ThreadPoolScheduler

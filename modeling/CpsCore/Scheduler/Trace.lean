import Mathlib
import CpsCore.Scheduler.Ownership

/-!
# What the scheduler has done

A trace records, in their order, the readings of the clock, the entries put into `events_`, what
the loop has made of the entries it came to, and the executions begun by the threads of the events.

* `Scheduler.marks`: what one step adds to the trace.
* `TracedStep`: a step of any party, with the trace.
* `Effect`: all that a step can do to what is in `events_`, and what it records (`Step.effect`).
-/

namespace CpsCore.MultiThreadingScheduler

inductive Mark
  /-- `ITimeProvider::now`. -/
  | read (now : ℤ)
  /-- `events_.insert`. -/
  | queued (time : ℤ) (e : ℕ)
  /-- The loop has started the thread of the event. -/
  | started (time : ℤ) (e : ℕ)
  | notified (time : ℤ) (e : ℕ)
  /-- `handleMissedDeadline`. -/
  | missed (time : ℤ) (e : ℕ)
  /-- `periodicTask` has called the body. -/
  | begun (e : ℕ)
  deriving DecidableEq, Repr

/-- The variable `now` of `runSchedule`. -/
@[simp] def LoopPc.now? : LoopPc → Option ℤ
  | .wait now | .drain now | .periodic now | .tryLock now | .notified now | .start now
  | .reschedule now | .single now => some now
  | _ => none

/-- Whether the loop is done with the first entry, up to putting it back. -/
@[simp] def LoopPc.past : LoopPc → Bool
  | .notified _ | .reschedule _ => true
  | _ => false

def Events.requeued (q : Events) (time : ℤ) (e : ℕ) : List Mark :=
  (q.bodies e).period.toList.map fun period => .queued (time + period) e

/-- What a step of `runSchedule` records.  The reading that finds the first entry too early is left
out: after the wait there is another, before any entry is looked at. -/
def Scheduler.loopMarks (s s' : Scheduler) : List Mark :=
  match s.loop, s.queue.events_.begin? with
  | .lock, _ => [.read s'.startingTime_]
  | .top, _ | .waitUntil, _ => s'.loop.now?.toList.map .read
  | .tryLock _, some (time, e) =>
      if s'.loop.past then [.notified time e] else .missed time e :: s.queue.requeued time e
  | .start _, some (time, e) | .single _, some (time, e) =>
      if (s.queue.bodies e).isCanceled then [] else [.started time e]
  | .reschedule _, some (time, e) =>
      if (s.queue.bodies e).isCanceled then [] else s.queue.requeued time e
  | _, _ => []

def Scheduler.marks (s : Scheduler) (action : Action) (s' : Scheduler) : List Mark :=
  match action with
  | .schedule _ _ now => if s.started_ then [.read now] else []
  | .insert => (s.queue.scheduling.diff s'.queue.scheduling).map fun entry =>
      .queued entry.1 entry.2
  | .loop => s.loopMarks s'
  | .task e =>
      if (s.queue.bodies e).periodicThread = .running .check ∧
          (s'.queue.bodies e).periodicThread = .running .body then [.begun e] else []
  | _ => []

def TracedStep (σ : Scheduler × List Mark) (action : Action) (σ' : Scheduler × List Mark) : Prop :=
  Step σ.1 action σ'.1 ∧ σ'.2 = σ.2 ++ σ.1.marks action σ'.1

lemma traced_snoc {σ : Scheduler × List Mark} {actions : List Action} {s s' : Scheduler}
    {trace : List Mark} {action : Action} (h : Transition.Run TracedStep σ actions (s, trace))
    (hstep : Step s action s') :
    Transition.Run TracedStep σ (actions ++ [action]) (s', trace ++ s.marks action s') :=
  h.snoc ⟨hstep, rfl⟩

/-! ## What is read off a trace -/

@[simp] def Mark.reading? : Mark → Option ℤ
  | .read now => some now
  | _ => none

@[simp] def Mark.insertion? : Mark → Option (ℤ × ℕ)
  | .queued time e => some (time, e)
  | _ => none

/-- The loop handles an event by starting it, by notifying it, or by recording a missed deadline. -/
@[simp] def Mark.handling? : Mark → Option (ℤ × ℕ)
  | .started time e | .notified time e | .missed time e => some (time, e)
  | _ => none

def readings (trace : List Mark) : List ℤ := trace.filterMap Mark.reading?

def insertions (trace : List Mark) : List (ℤ × ℕ) := trace.filterMap Mark.insertion?

def handlings (trace : List Mark) : List (ℤ × ℕ) := trace.filterMap Mark.handling?

/-- How many of the entries are of event `e`. -/
def countOf (e : ℕ) (entries : List (ℤ × ℕ)) : ℕ := entries.countP fun entry => entry.2 = e

/-- How often the loop has handled `e`. -/
def handled (trace : List Mark) (e : ℕ) : ℕ := countOf e (handlings trace)

/-- The key `e` was queued at first. -/
def firstQueued (trace : List Mark) (e : ℕ) : Option ℤ :=
  ((insertions trace).find? fun entry => entry.2 = e).map Prod.fst

variable {trace trace' : List Mark}

@[simp] lemma readings_nil : readings [] = [] := rfl

@[simp] lemma insertions_nil : insertions [] = [] := rfl

@[simp] lemma handlings_nil : handlings [] = [] := rfl

@[simp] lemma insertions_cons (mark : Mark) :
    insertions (mark :: trace) = mark.insertion?.toList ++ insertions trace := by
  cases mark <;> rfl

@[simp] lemma handlings_cons (mark : Mark) :
    handlings (mark :: trace) = mark.handling?.toList ++ handlings trace := by
  cases mark <;> rfl

@[simp] lemma readings_append : readings (trace ++ trace') = readings trace ++ readings trace' :=
  List.filterMap_append ..

@[simp] lemma insertions_append :
    insertions (trace ++ trace') = insertions trace ++ insertions trace' := List.filterMap_append ..

@[simp] lemma handlings_append :
    handlings (trace ++ trace') = handlings trace ++ handlings trace' := List.filterMap_append ..

@[simp] lemma countOf_append (e : ℕ) (entries entries' : List (ℤ × ℕ)) :
    countOf e (entries ++ entries') = countOf e entries + countOf e entries' :=
  List.countP_append ..

@[simp] lemma countOf_nil (e : ℕ) : countOf e [] = 0 := List.countP_nil ..

@[simp] lemma countOf_singleton_self (e : ℕ) (time : ℤ) : countOf e [(time, e)] = 1 := by
  simp [countOf]

lemma countOf_singleton_of_ne {e e' : ℕ} (hne : e' ≠ e) (time : ℤ) :
    countOf e [(time, e')] = 0 := by
  simp [countOf, hne]

lemma countOf_eq_zero {e : ℕ} {entries : List (ℤ × ℕ)} (h : ∀ entry ∈ entries, entry.2 ≠ e) :
    countOf e entries = 0 := by
  simpa [countOf, List.countP_eq_zero] using h

/-- Once it is known, it stays. -/
lemma firstQueued_append {e : ℕ} {time : ℤ} (h : firstQueued trace e = some time) :
    firstQueued (trace ++ trace') e = some time := by
  obtain ⟨entry, hentry, hfst⟩ := Option.map_eq_some_iff.mp h
  rw [firstQueued, insertions_append, List.find?_append, hentry, Option.some_or, Option.map_some,
    hfst]

lemma firstQueued_of_insertions {e : ℕ} {time : ℤ} (hnew : ∀ entry ∈ insertions trace, entry.2 ≠ e)
    (h : insertions trace' = [(time, e)]) : firstQueued (trace ++ trace') e = some time := by
  have hnone : (insertions trace).find? (fun entry => entry.2 = e) = none := by
    simpa [List.find?_eq_none] using hnew
  rw [firstQueued, insertions_append, List.find?_append, hnone, h]
  simp

/-! ## What a step can do -/

/-- The loop is past the event, which is still the first one. -/
def Scheduler.Handling (s : Scheduler) (e : ℕ) : Prop :=
  s.loop.past = true ∧ ∃ time, s.queue.events_.begin? = some (time, e)

/-- What stays, whatever becomes of the entries of `events_`. -/
structure Events.Keeps (q q' : Events) : Prop where
  scheduling : q'.scheduling = q.scheduling
  next : q'.next = q.next
  period : ∀ e, (q'.bodies e).period = (q.bodies e).period

lemma Events.Keeps.refl (q : Events) : q.Keeps q := ⟨rfl, rfl, fun _ => rfl⟩

lemma Events.Keeps.set (q : Events) {e : ℕ} {b : EventBody} (h : b.period = (q.bodies e).period) :
    q.Keeps (q.set e b) := by
  refine ⟨rfl, rfl, fun e' => ?_⟩
  by_cases hne : e' = e
  · rw [hne, bodies_set_self, h]
  · rw [bodies_set_of_ne hne]

/-- All that a step can do to the entries of `events_`, and what it records of it. -/
inductive Effect (s : Scheduler) (marks : List Mark) (s' : Scheduler) : Prop
  | quiet : s.queue.Keeps s'.queue → s'.queue.events_ = s.queue.events_ →
      (∀ e, s.Handling e → s'.Handling e) →
      (∀ e, s'.Handling e → (s'.queue.bodies e).isCanceled = false →
        s.Handling e ∧ (s.queue.bodies e).isCanceled = false) →
      insertions marks = [] → handlings marks = [] → Effect s marks s'
  | make {period : Option ℤ} {time : ℤ} : (∀ p, period = some p → 0 < p) →
      s'.queue = s.queue.make period time → s'.loop = s.loop →
      insertions marks = [] → handlings marks = [] → Effect s marks s'
  | insert {i : ℕ} {time : ℤ} {e : ℕ} : s.loop.past = false → s'.loop.past = false →
      s.queue.scheduling[i]? = some (time, e) → s'.queue = s.queue.insert i time e →
      insertions marks = [(time, e)] → handlings marks = [] → Effect s marks s'
  | handle {time : ℤ} {e : ℕ} : s.loop.past = false → s'.loop.past = true →
      s.queue.events_.begin? = some (time, e) → s.queue.Keeps s'.queue →
      s'.queue.events_ = s.queue.events_ →
      insertions marks = [] → handlings marks = [(time, e)] → Effect s marks s'
  | missed {time : ℤ} {e : ℕ} {period : ℤ} : s.loop.past = false → s'.loop.past = false →
      s.queue.events_.begin? = some (time, e) → (s.queue.bodies e).period = some period →
      s'.queue = s.queue.reschedule (time + period) e →
      insertions marks = [(time + period, e)] → handlings marks = [(time, e)] → Effect s marks s'
  | reschedule {time : ℤ} {e : ℕ} {period : ℤ} : s.loop.past = true → s'.loop.past = false →
      s.queue.events_.begin? = some (time, e) → (s.queue.bodies e).isCanceled = false →
      (s.queue.bodies e).period = some period →
      s'.queue = s.queue.reschedule (time + period) e →
      insertions marks = [(time + period, e)] → handlings marks = [] → Effect s marks s'
  | pop {time : ℤ} {e : ℕ} : s'.loop.past = false → s.queue.events_.begin? = some (time, e) →
      s.queue.Keeps s'.queue → s'.queue.events_ = s.queue.events_.eraseBegin →
      insertions marks = [] →
      (handlings marks = [] ∨ s.loop.past = false ∧ handlings marks = [(time, e)]) →
      Effect s marks s'
  | clear : s'.loop.past = false → s.queue.Keeps s'.queue → s'.queue.events_ = {} →
      insertions marks = [] → handlings marks = [] → Effect s marks s'

/-- Where the loop does not get past an entry. -/
lemma Effect.still {s s' : Scheduler} {marks : List Mark} (hpast : s.loop.past = false)
    (hpast' : s'.loop.past = false) (hkeeps : s.queue.Keeps s'.queue)
    (hevents : s'.queue.events_ = s.queue.events_) (hinsertions : insertions marks = [])
    (hhandlings : handlings marks = []) : Effect s marks s' := by
  refine Effect.quiet hkeeps hevents ?_ ?_ hinsertions hhandlings
  · exact fun e hhandling => absurd hhandling.1 (Bool.eq_false_iff.mp hpast)
  · exact fun e hhandling => absurd hhandling.1 (Bool.eq_false_iff.mp hpast')

/-- A step of somebody else, who can cancel events. -/
lemma Effect.other {s s' : Scheduler} {marks : List Mark} (hloop : s'.loop = s.loop)
    (hkeeps : s.queue.Keeps s'.queue) (hevents : s'.queue.events_ = s.queue.events_)
    (hcanceled : ∀ e, (s.queue.bodies e).isCanceled = true → (s'.queue.bodies e).isCanceled = true)
    (hinsertions : insertions marks = []) (hhandlings : handlings marks = []) :
    Effect s marks s' := by
  have hsame : ∀ e, s'.Handling e ↔ s.Handling e := fun e => by
    rw [Scheduler.Handling, Scheduler.Handling, hloop, hevents]
  refine Effect.quiet hkeeps hevents (fun e => (hsame e).mpr) ?_ hinsertions hhandlings
  intro e hhandling hnot
  refine ⟨(hsame e).mp hhandling, ?_⟩
  rw [← Bool.not_eq_true] at hnot ⊢
  exact fun h => hnot (hcanceled e h)

/-- The schedules that stay on a grid. -/
def Action.Regular : Action → Prop
  | .schedule (some period) _ _ => 0 < period
  | .changePeriod _ _ => False
  | _ => True

lemma diff_eraseIdx {l : List (ℤ × ℕ)} {i : ℕ} {entry : ℤ × ℕ} (hi : l[i]? = some entry) :
    l.diff (l.eraseIdx i) = [entry] := by
  obtain ⟨hlt, hget⟩ := List.getElem?_eq_some_iff.mp hi
  have hperm : (entry :: l.eraseIdx i).Perm l := hget ▸ List.getElem_cons_eraseIdx_perm hlt
  have hdiff : (l.diff (l.eraseIdx i)).Perm [entry] := by
    rw [List.perm_iff_count]
    intro x
    rw [List.count_diff, ← hperm.count_eq x, List.count_cons]
    simp [List.count_singleton]
  exact List.perm_singleton.mp hdiff

lemma TaskStep.same {b b' : EventBody} (h : TaskStep b b') :
    b'.period = b.period ∧ b'.isCanceled = b.isCanceled := by
  cases h <;> exact ⟨rfl, rfl⟩

lemma EventBody.notify_same (b : EventBody) :
    b.notify.period = b.period ∧ b.notify.isCanceled = b.isCanceled := by
  unfold EventBody.notify
  split <;> exact ⟨rfl, rfl⟩

lemma Events.same_set {q : Events} {e : ℕ} {b : EventBody} (hperiod : b.period = (q.bodies e).period)
    (hcanceled : b.isCanceled = (q.bodies e).isCanceled) (e' : ℕ) :
    ((q.set e b).bodies e').period = (q.bodies e').period ∧
      ((q.set e b).bodies e').isCanceled = (q.bodies e').isCanceled := by
  by_cases hne : e' = e
  · rw [hne, bodies_set_self]
    exact ⟨hperiod, hcanceled⟩
  · rw [bodies_set_of_ne hne]
    exact ⟨rfl, rfl⟩

lemma LoopStep.same {s s' : Scheduler} (hstep : LoopStep s s') (e : ℕ) :
    (s'.queue.bodies e).period = (s.queue.bodies e).period ∧
      (s'.queue.bodies e).isCanceled = (s.queue.bodies e).isCanceled := by
  cases hstep with
  | join => refine Events.same_set ?_ ?_ e <;> rfl
  | notify =>
      obtain ⟨hperiod, hcanceled⟩ := EventBody.notify_same _
      exact Events.same_set hperiod hcanceled e
  | start => refine Events.same_set ?_ ?_ e <;> rfl
  | startSingle => refine Events.same_set ?_ ?_ e <;> rfl
  | _ => exact ⟨rfl, rfl⟩

/-- A body is replaced by one that is not less canceled. -/
lemma Effect.set {s s' : Scheduler} {marks : List Mark} {e : ℕ} {b : EventBody}
    (hqueue : s'.queue = s.queue.set e b) (hloop : s'.loop = s.loop)
    (hperiod : b.period = (s.queue.bodies e).period)
    (hcanceled : (s.queue.bodies e).isCanceled = true → b.isCanceled = true)
    (hinsertions : insertions marks = []) (hhandlings : handlings marks = []) :
    Effect s marks s' := by
  refine Effect.other hloop (hqueue ▸ Events.Keeps.set _ hperiod) (by rw [hqueue]; rfl) ?_
    hinsertions hhandlings
  intro e' he'
  rw [hqueue]
  by_cases hne : e' = e
  · rw [hne, Events.bodies_set_self]
    exact hcanceled (hne ▸ he')
  · rwa [Events.bodies_set_of_ne hne]

lemma LoopStep.effect {s s' : Scheduler} (hstep : LoopStep s s') :
    Effect s (s.loopMarks s') s' := by
  have hkeeps := Events.Keeps.refl s.queue
  cases hstep with
  | goOn hpc hbegin hcanceled =>
      refine Effect.quiet hkeeps rfl ?_ ?_ (by simp [Scheduler.loopMarks, hpc])
        (by simp [Scheduler.loopMarks, hpc])
      · exact fun e hhandling => ⟨rfl, hhandling.2⟩
      · exact fun e hhandling hnot => ⟨⟨by simp [hpc], hhandling.2⟩, hnot⟩
  -- The loop gets past an event that it has not handled, but that one is canceled.
  | @notToStart now time e hpc hbegin hcanceled =>
      have hmarks : s.loopMarks { s with loop := .reschedule now } = [] := by
        simp [Scheduler.loopMarks, hpc, hbegin, hcanceled]
      rw [hmarks]
      refine Effect.quiet hkeeps rfl ?_ ?_ rfl rfl
      · exact fun e' hhandling => absurd hhandling.1 (by simp [hpc])
      · rintro e' ⟨-, time', hbegin'⟩ hnot
        obtain rfl : e = e' := by
          have hsame := hbegin.symm.trans hbegin'
          simp only [Option.some.injEq, Prod.mk.injEq] at hsame
          exact hsame.2
        exact absurd hcanceled (Bool.eq_false_iff.mp hnot)
  | @notify now time e hpc hbegin =>
      refine Effect.handle (by simp [hpc]) rfl hbegin
        (Events.Keeps.set _ (EventBody.notify_same _).1) rfl ?_ ?_
      all_goals simp [Scheduler.loopMarks, hpc, hbegin]
  | @start now time e hpc hbegin hcanceled =>
      refine Effect.handle (by simp [hpc]) rfl hbegin (Events.Keeps.set _ rfl) rfl ?_ ?_
      all_goals simp [Scheduler.loopMarks, hpc, hbegin, hcanceled]
  | @missed now time e period hpc hbegin hperiod =>
      refine Effect.missed (by simp [hpc]) rfl hbegin hperiod rfl ?_ ?_
      all_goals simp [Scheduler.loopMarks, Events.requeued, hpc, hbegin, hperiod]
  | @reschedule now time e period hpc hbegin hcanceled hperiod =>
      refine Effect.reschedule (by simp [hpc]) rfl hbegin hcanceled hperiod rfl ?_ ?_
      all_goals simp [Scheduler.loopMarks, Events.requeued, hpc, hbegin, hperiod, hcanceled]
  | setAside hpc hbegin hcanceled =>
      refine Effect.pop rfl hbegin ⟨rfl, rfl, fun _ => rfl⟩ rfl ?_ (Or.inl ?_)
      all_goals simp [Scheduler.loopMarks, hpc]
  | erase hpc hbegin hcanceled =>
      refine Effect.pop rfl hbegin ⟨rfl, rfl, fun _ => rfl⟩ rfl ?_ (Or.inl ?_)
      all_goals simp [Scheduler.loopMarks, hpc, hbegin, hcanceled]
  | eraseSingle hpc hbegin hcanceled =>
      refine Effect.pop rfl hbegin ⟨rfl, rfl, fun _ => rfl⟩ rfl ?_ (Or.inl ?_)
      all_goals simp [Scheduler.loopMarks, hpc, hbegin, hcanceled]
  | @startSingle now time e hpc hbegin hcanceled =>
      have hset := Events.Keeps.set s.queue (b := { s.queue.bodies e with
        periodicThread := .running .once }) rfl
      refine Effect.pop rfl hbegin ⟨rfl, rfl, hset.period⟩ rfl ?_ (Or.inr ⟨by simp [hpc], ?_⟩)
      all_goals simp [Scheduler.loopMarks, hpc, hbegin, hcanceled]
  | @join i e hpc =>
      refine Effect.still (by simp [hpc]) rfl (Events.Keeps.set _ rfl) rfl ?_ ?_
      all_goals simp [Scheduler.loopMarks, hpc]
  | removeCanceled hpc =>
      refine Effect.still (by simp [hpc]) rfl ⟨rfl, rfl, fun _ => rfl⟩ rfl ?_ ?_
      all_goals simp [Scheduler.loopMarks, hpc]
  | removeDone hpc =>
      refine Effect.still (by simp [hpc]) rfl ⟨rfl, rfl, fun _ => rfl⟩ rfl ?_ ?_
      all_goals simp [Scheduler.loopMarks, hpc]
  | _ =>
      refine Effect.still (by simp [*]) rfl hkeeps rfl ?_ ?_
      all_goals simp [Scheduler.loopMarks, *]

lemma Step.effect {s s' : Scheduler} {action : Action} (hstep : Step s action s') (h : s.Inv)
    (hregular : action.Regular) : Effect s (s.marks action s') s' := by
  have hkeeps := Events.Keeps.refl s.queue
  cases hstep with
  | schedule period start now =>
      refine Effect.make ?_ rfl rfl ?_ ?_
      · rintro p rfl
        exact hregular
      all_goals
        simp only [Scheduler.marks]
        split <;> rfl
  | @insert i time e hloop hstop hi =>
      have hpast : s.loop.past = false := by
        cases hpc : s.loop <;> simp_all
      refine Effect.insert hpast hpast hi rfl ?_ ?_
      all_goals simp [Scheduler.marks, Events.insert, diff_eraseIdx hi]
  | cancel e => exact Effect.set rfl rfl rfl (fun _ => rfl) rfl rfl
  | changePeriod => exact hregular.elim
  | startInvoker _ _ hloop =>
      exact Effect.still (by simp [hloop]) rfl hkeeps rfl rfl rfl
  | startMain _ hloop => exact Effect.still (by simp [hloop]) rfl hkeeps rfl rfl rfl
  | loop hstep => exact hstep.effect
  | @task e b hstep =>
      obtain ⟨hperiod, hcanceled⟩ := hstep.same
      refine Effect.set rfl rfl hperiod hcanceled.trans ?_ ?_
      all_goals
        simp only [Scheduler.marks]
        split <;> rfl
  | @lock hstop hloop => exact Effect.other rfl hkeeps rfl (fun _ he => he) rfl rfl
  | stopping hstep =>
      cases hstep with
      | cancel =>
          obtain ⟨hperiod, hcanceled⟩ := EventBody.notify_same _
          exact Effect.set rfl rfl hperiod (fun _ => hcanceled) rfl rfl
      | clear hstop =>
          refine Effect.clear ?_ ⟨rfl, rfl, fun _ => rfl⟩ rfl rfl rfl
          have hloop : s.loop.holds = false := Bool.eq_false_iff.mpr fun hholds =>
            absurd (h.exclusive hholds) (by simp [hstop])
          cases hpc : s.loop <;> simp_all
      | _ => exact Effect.other rfl hkeeps rfl (fun _ he => he) rfl rfl
  | join hstep =>
      cases hstep with
      | event => exact Effect.set rfl rfl rfl (fun he => he) rfl rfl
      | nonPeriodic => exact Effect.set rfl rfl rfl (fun he => he) rfl rfl
      | _ => exact Effect.other rfl hkeeps rfl (fun _ he => he) rfl rfl
  | _ => exact Effect.other rfl hkeeps rfl (fun _ he => he) rfl rfl

/-- Nobody else handles events. -/
lemma Step.loop_of_handling {s s' : Scheduler} {action : Action} {entry : ℤ × ℕ}
    (hstep : Step s action s') (hmem : entry ∈ handlings (s.marks action s')) :
    LoopStep s s' ∧ action = .loop := by
  cases hstep with
  | loop hstep => exact ⟨hstep, rfl⟩
  | schedule =>
      simp only [Scheduler.marks] at hmem
      split at hmem <;> simp at hmem
  | insert => simp [Scheduler.marks, handlings] at hmem
  | task =>
      simp only [Scheduler.marks] at hmem
      split at hmem <;> simp at hmem
  | _ => simp [Scheduler.marks] at hmem

end CpsCore.MultiThreadingScheduler

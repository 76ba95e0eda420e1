import Mathlib
import CpsCore.Scheduler.Trace

/-!
# The ticks of a periodic event

The loop takes the mutex of an event to be free only while its thread waits at
`intervalCondition`.  A thread that has been started or notified and has not got to the mutex yet
does not have it either: then the notification is heard by nobody, and no missed deadline is
recorded.

* `EventBody.Counts`: how many ticks a thread has had, by where it is.
* `Scheduler.Heard`: where the loop notifies, somebody waits.
* `no_tick_lost`: as long as each notification is heard, no tick is lost; one that is not heard
  is lost at once.
-/

namespace CpsCore.MultiThreadingScheduler

/-! ## What is counted -/

/-- The loop has started or notified the event, without a missed deadline. -/
@[simp] def Mark.tick? : Mark → Option ℕ
  | .started _ e | .notified _ e => some e
  | _ => none

@[simp] def Mark.begun? : Mark → Option ℕ
  | .begun e => some e
  | _ => none

def ticks (trace : List Mark) (e : ℕ) : ℕ := trace.countP fun mark => mark.tick? = some e

def executions (trace : List Mark) (e : ℕ) : ℕ := trace.countP fun mark => mark.begun? = some e

/-- The thread is on its way to call the body. -/
def EventBody.pending (b : EventBody) : Bool :=
  b.periodicThread = .running .lock ∨ b.periodicThread = .running .check

/-- Each tick has had an execution of its own, but for one that may be to come; and that one is
pending, unless the event has been canceled. -/
structure Scheduler.NoTickLost (s : Scheduler) (trace : List Mark) (e : ℕ) : Prop where
  own : executions trace e ≤ ticks trace e
  atMostOne : ticks trace e ≤ executions trace e + 1
  pending : (s.queue.bodies e).isCanceled = false →
    ticks trace e = executions trace e + if (s.queue.bodies e).pending then 1 else 0

/-- A wait at `intervalCondition` that ends without a notification. -/
def Scheduler.Spurious (s : Scheduler) (e : ℕ) (action : Action) : Prop :=
  action = .task e ∧ (s.queue.bodies e).periodicThread = .running .wait

/-- Where the loop has got the mutex of the event, its thread waits. -/
def Scheduler.Heard (s : Scheduler) (e : ℕ) (action : Action) (s' : Scheduler) : Prop :=
  ∀ time, .notified time e ∈ s.marks action s' →
    (s.queue.bodies e).periodicThread = .running .wait

/-- A step at which the thread of `e` does not wake up by itself. -/
def NotifiedStep (e : ℕ) (σ : Scheduler × List Mark) (action : Action)
    (σ' : Scheduler × List Mark) : Prop :=
  TracedStep σ action σ' ∧ ¬ σ.1.Spurious e action

def HeardStep (e : ℕ) (σ : Scheduler × List Mark) (action : Action)
    (σ' : Scheduler × List Mark) : Prop :=
  NotifiedStep e σ action σ' ∧ σ.1.Heard e action σ'.1

variable {trace marks : List Mark} {e : ℕ}

@[simp] lemma ticks_nil (e : ℕ) : ticks [] e = 0 := List.countP_nil ..

@[simp] lemma executions_nil (e : ℕ) : executions [] e = 0 := List.countP_nil ..

@[simp] lemma ticks_append : ticks (trace ++ marks) e = ticks trace e + ticks marks e :=
  List.countP_append ..

@[simp] lemma executions_append :
    executions (trace ++ marks) e = executions trace e + executions marks e :=
  List.countP_append ..

@[simp] lemma ticks_cons (mark : Mark) :
    ticks (mark :: trace) e = ticks trace e + if mark.tick? = some e then 1 else 0 := by
  rw [ticks, ticks, List.countP_cons]
  simp only [decide_eq_true_eq]

@[simp] lemma executions_cons (mark : Mark) :
    executions (mark :: trace) e = executions trace e + if mark.begun? = some e then 1 else 0 := by
  rw [executions, executions, List.countP_cons]
  simp only [decide_eq_true_eq]

/-! ## One thread -/

/-- How many ticks there have been, and how many executions begun, by where the thread is. -/
def EventBody.Counts (b : EventBody) (ticks begun : ℕ) : Prop :=
  match b.periodicThread with
  | .none | .running .body | .running .wait => ticks = begun
  | .running .lock | .running .check =>
      begun ≤ ticks ∧ ticks ≤ begun + 1 ∧ (b.isCanceled = false → ticks = begun + 1)
  | .running .leave | .running .returned | .joined =>
      b.isCanceled = true ∧ begun ≤ ticks ∧ ticks ≤ begun + 1
  | .running .once => False

namespace EventBody

variable {b b' : EventBody} {n m : ℕ}

lemma Counts.noTickLost {s : Scheduler}
    (h : (s.queue.bodies e).Counts (ticks trace e) (executions trace e)) :
    s.NoTickLost trace e := by
  generalize hb : s.queue.bodies e = b at h
  have hcases : executions trace e ≤ ticks trace e ∧ ticks trace e ≤ executions trace e + 1 ∧
      (b.isCanceled = false → ticks trace e = executions trace e + if b.pending then 1 else 0) := by
    unfold Counts at h
    split at h
    all_goals simp_all [EventBody.pending]
  obtain ⟨hown, hone, hpending⟩ := hcases
  exact ⟨hown, hone, by rw [hb]; exact hpending⟩

/-- A step of the thread: it begins an execution where it goes from `check` to `body`. -/
lemma Counts.task (h : b.Counts n m) (hstep : TaskStep b b')
    (hwait : b.periodicThread ≠ .running .wait) :
    b'.Counts n (m + if b.periodicThread = .running .check ∧
      b'.periodicThread = .running .body then 1 else 0) := by
  unfold Counts at h
  cases hstep with
  | lock hpc =>
      rw [hpc] at h
      simpa [Counts, hpc] using h
  | proceed hpc hcanceled =>
      rw [hpc] at h
      simpa [Counts, hpc] using h.2.2 hcanceled
  | canceled hpc hcanceled =>
      rw [hpc] at h
      simpa [Counts, hpc, hcanceled] using ⟨h.1, h.2.1⟩
  | wait hpc =>
      rw [hpc] at h
      simpa [Counts, hpc] using h
  | wakeup hpc => exact absurd hpc hwait
  | leave hpc =>
      rw [hpc] at h
      simpa [Counts, hpc] using h
  | once hpc =>
      rw [hpc] at h
      exact h.elim

/-- The loop notifies a thread that waits. -/
lemma Counts.notify (h : b.Counts n m) (hwait : b.periodicThread = .running .wait) :
    b.notify.Counts (n + 1) m := by
  unfold Counts at h
  rw [hwait] at h
  obtain rfl : n = m := h
  simp [EventBody.notify, hwait, Counts]

lemma Counts.start (h : b.Counts n m) (hcanceled : b.isCanceled = false)
    (hjoinable : b.periodicThread.joinable = false) :
    ({ b with isStarted := true, periodicThread := .running .lock } : EventBody).Counts
      (n + 1) m := by
  have hsame : n = m := by
    unfold Counts at h
    cases hthread : b.periodicThread with
    | none =>
        rw [hthread] at h
        exact h
    | running => simp [hthread] at hjoinable
    | joined =>
        rw [hthread] at h
        simp [hcanceled] at h
  simp [Counts, hsame]

lemma Counts.cancel (h : b.Counts n m) :
    ({ b with isCanceled := true } : EventBody).Counts n m := by
  unfold Counts at h ⊢
  split at h
  all_goals simp_all

/-- `stop` cancels and notifies: what then is at `lock` will not begin another execution. -/
lemma Counts.cancelNotify (h : b.Counts n m) :
    (({ b with isCanceled := true } : EventBody).notify).Counts n m := by
  by_cases hwait : b.periodicThread = .running .wait
  · unfold Counts at h
    rw [hwait] at h
    obtain rfl : n = m := h
    simp [EventBody.notify, hwait, Counts]
  · rw [EventBody.notify, if_neg hwait]
    exact h.cancel

lemma Counts.join (h : b.Counts n m) (hreturned : b.periodicThread = .running .returned) :
    ({ b with periodicThread := .joined } : EventBody).Counts n m := by
  unfold Counts at h
  rw [hreturned] at h
  exact h

/-- A tick that nobody hears is lost. -/
lemma Counts.lost (h : b.Counts n m) (hcanceled : b.isCanceled = false) (hfree : b.free = true)
    (hwait : b.periodicThread ≠ .running .wait) : n + 1 ≠ m + if b.pending then 1 else 0 := by
  unfold Counts at h
  cases hthread : b.periodicThread with
  | none =>
      rw [hthread] at h
      simp [EventBody.pending, hthread, show n = m from h]
  | joined => simp [hthread, hcanceled] at h
  | running pc =>
      cases pc with
      | lock =>
          rw [hthread] at h
          simp [EventBody.pending, hthread, h.2.2 hcanceled]
      | check => simp [EventBody.free, hthread] at hfree
      | body => simp [EventBody.free, hthread] at hfree
      | wait => exact absurd hthread hwait
      | leave => simp [EventBody.free, hthread] at hfree
      | once => simp [hthread] at h
      | returned => simp [hthread, hcanceled] at h

lemma Counts.congr (h : b.Counts n m) (hthread : b'.periodicThread = b.periodicThread)
    (hcanceled : b'.isCanceled = b.isCanceled) : b'.Counts n m := by
  unfold Counts at h ⊢
  rwa [hthread, hcanceled]

end EventBody

/-! ## One step -/

namespace Scheduler

structure Ticking (s : Scheduler) (trace : List Mark) (e : ℕ) : Prop where
  inv : s.Inv
  fresh : s.queue.next ≤ e → ticks trace e = 0 ∧ executions trace e = 0
  counts : (s.queue.bodies e).period.isSome →
    (s.queue.bodies e).Counts (ticks trace e) (executions trace e)

variable {s s' : Scheduler}

lemma ticking_initial (mainThread : Bool) (e : ℕ) :
    ({ mainThread_ := mainThread } : Scheduler).Ticking [] e where
  inv := Inv.initial mainThread
  fresh _ := ⟨rfl, rfl⟩
  counts hperiod := absurd hperiod Bool.false_ne_true

/-- Neither the loop nor the thread of the event gets on with it. -/
def Silent (marks : List Mark) (e : ℕ) : Prop := ticks marks e = 0 ∧ executions marks e = 0

lemma Ticking.other (h : s.Ticking trace e) (hinv : s'.Inv)
    (hbody : s'.queue.bodies e = s.queue.bodies e) (hnext : s'.queue.next = s.queue.next)
    (hsilent : Silent marks e) : s'.Ticking (trace ++ marks) e := by
  obtain ⟨hticks, hexecutions⟩ := hsilent
  refine ⟨hinv, ?_, ?_⟩
  · intro hle
    simpa [hticks, hexecutions] using h.fresh (hnext ▸ hle)
  · intro hperiod
    rw [hbody] at hperiod ⊢
    simpa [hticks, hexecutions] using h.counts hperiod

/-- A body is replaced. -/
lemma Ticking.set {e' : ℕ} {b : EventBody} (h : s.Ticking trace e) (hinv : s'.Inv)
    (hbodies : s'.queue.bodies = (s.queue.set e' b).bodies) (hnext : s'.queue.next = s.queue.next)
    (hsilent : e' ≠ e ∨ s.queue.next ≤ e → Silent marks e)
    (hself : e' = e → b.period.isSome →
      b.Counts (ticks (trace ++ marks) e) (executions (trace ++ marks) e)) :
    s'.Ticking (trace ++ marks) e := by
  by_cases hne : e' = e
  · subst hne
    refine ⟨hinv, ?_, ?_⟩
    · intro hle
      rw [hnext] at hle
      obtain ⟨hticks, hexecutions⟩ := hsilent (Or.inr hle)
      simpa [hticks, hexecutions] using h.fresh hle
    · intro hperiod
      rw [hbodies, Events.bodies_set_self] at hperiod ⊢
      exact hself rfl hperiod
  · refine h.other hinv ?_ hnext (hsilent (Or.inl hne))
    rw [hbodies, Events.bodies_set_of_ne (Ne.symm hne)]

/-- The same, where nothing is counted. -/
lemma Ticking.setSilent {e' : ℕ} {b : EventBody} (h : s.Ticking trace e) (hinv : s'.Inv)
    (hbodies : s'.queue.bodies = (s.queue.set e' b).bodies) (hnext : s'.queue.next = s.queue.next)
    (hsilent : Silent marks e) (hperiod : b.period.isSome → (s.queue.bodies e').period.isSome)
    (hself : ∀ n m, (s.queue.bodies e').Counts n m → b.Counts n m) :
    s'.Ticking (trace ++ marks) e := by
  refine h.set hinv hbodies hnext (fun _ => hsilent) ?_
  rintro rfl hsome
  obtain ⟨hticks, hexecutions⟩ := hsilent
  rw [ticks_append, executions_append, hticks, hexecutions]
  exact hself _ _ (h.counts (hperiod hsome))

lemma Ticking.make (h : s.Ticking trace e) (period : Option ℤ) (time : ℤ)
    (hsilent : Silent marks e) :
    ({ s with queue := s.queue.make period time } : Scheduler).Ticking (trace ++ marks) e := by
  obtain ⟨hticks, hexecutions⟩ := hsilent
  refine ⟨h.inv.make period time, ?_, ?_⟩
  · intro hle
    simpa [hticks, hexecutions] using h.fresh (Nat.le_of_succ_le hle)
  · rw [ticks_append, executions_append, hticks, hexecutions]
    by_cases hne : e = s.queue.next
    · obtain ⟨hzero, hzero'⟩ := h.fresh hne.ge
      subst hne
      simp [Events.make, EventBody.Counts, hzero, hzero']
    · simpa [Events.make, Function.update_of_ne hne] using h.counts

lemma Inv.begin_lt (h : s.Inv) {time : ℤ} (hbegin : s.queue.events_.begin? = some (time, e)) :
    e < s.queue.next :=
  h.sound.fresh e (List.mem_append_left _
    (List.mem_append_right _ (Events.mem_queued_of_begin? hbegin)))

/-- What the loop makes of the first event is nothing to the others, and to those still to be
made. -/
lemma Inv.silent_of_other (h : s.Inv) {time : ℤ} {e' : ℕ} {mark : Mark}
    (hbegin : s.queue.events_.begin? = some (time, e')) (htick : mark.tick? = some e')
    (hbegun : mark.begun? = none) (hother : e' ≠ e ∨ s.queue.next ≤ e) : Silent [mark] e := by
  have hne : e' ≠ e := by
    rcases hother with hne | hle
    · exact hne
    · exact ((h.begin_lt hbegin).trans_le hle).ne
  rw [Silent, ticks_cons, executions_cons, htick, hbegun, ticks_nil, executions_nil]
  simp [hne]

lemma silent_requeued (q : Events) (time : ℤ) (e' e : ℕ) : Silent (q.requeued time e') e := by
  unfold Events.requeued
  cases (q.bodies e').period <;> exact ⟨rfl, rfl⟩

end Scheduler

lemma TaskStep.joinable {b b' : EventBody} (h : TaskStep b b') :
    b.periodicThread.joinable = true := by
  cases h <;> simp [*]

open Scheduler in
lemma LoopStep.ticking {s s' : Scheduler} (hstep : LoopStep s s') (h : s.Ticking trace e)
    (hheard : s.Heard e .loop s') : s'.Ticking (trace ++ s.loopMarks s') e := by
  have hinv := hstep.inv h.inv
  cases hstep with
  | join hpc _ _ hreturned =>
      exact h.setSilent hinv rfl rfl (by simp [Silent, loopMarks, hpc]) (fun hsome => hsome)
        fun n m hcounts => hcounts.join hreturned
  | @notify now time e' hpc hbegin =>
      have hmarks : s.loopMarks { s with
          queue := s.queue.set e' (s.queue.bodies e').notify
          loop := .notified now } = [.notified time e'] := by
        simp [loopMarks, hpc, hbegin]
      rw [hmarks]
      refine h.set hinv rfl rfl (h.inv.silent_of_other hbegin rfl rfl) ?_
      rintro rfl hsome
      have hwait := hheard time (by simp [Scheduler.marks, hmarks])
      rw [(EventBody.notify_same _).1] at hsome
      simpa using (h.counts hsome).notify hwait
  | @start now time e' hpc hbegin hcanceled hjoinable =>
      have hmarks : ∀ s'', s.loopMarks s'' = [.started time e'] := by
        simp [loopMarks, hpc, hbegin, hcanceled]
      rw [hmarks]
      refine h.set hinv rfl rfl (h.inv.silent_of_other hbegin rfl rfl) ?_
      rintro rfl hsome
      simpa using (h.counts hsome).start hcanceled hjoinable
  | @startSingle now time e' hpc hbegin hcanceled =>
      have hmarks : ∀ s'', s.loopMarks s'' = [.started time e'] := by
        simp [loopMarks, hpc, hbegin, hcanceled]
      rw [hmarks]
      refine h.set hinv rfl rfl (h.inv.silent_of_other hbegin rfl rfl) ?_
      -- The event has no period, so it is not the one whose ticks are counted.
      rintro rfl hsome
      exact absurd hsome (by simp [h.inv.found_begin (by rw [hpc]; rfl) hbegin])
  | @missed now time e' period hpc hbegin =>
      refine h.other hinv rfl rfl ?_
      have hrequeued := silent_requeued s.queue time e' e
      simpa [Silent, loopMarks, hpc, hbegin] using hrequeued
  | reschedule hpc hbegin hcanceled =>
      refine h.other hinv rfl rfl ?_
      rw [loopMarks, hpc, hbegin]
      simp only [hcanceled]
      exact silent_requeued ..
  | _ => exact h.other hinv rfl rfl (by simp [Silent, loopMarks, *])

open Scheduler in
lemma Step.ticking {s s' : Scheduler} {action : Action} (hstep : Step s action s')
    (h : s.Ticking trace e) (hspurious : ¬ s.Spurious e action) (hheard : s.Heard e action s') :
    s'.Ticking (trace ++ s.marks action s') e := by
  have hinv := hstep.inv h.inv
  have hnone : Silent [] e := ⟨rfl, rfl⟩
  cases hstep with
  | schedule period start now =>
      have hsilent : Silent (if s.started_ = true then [Mark.read now] else []) e := by
        split <;> exact ⟨rfl, rfl⟩
      exact h.make period _ hsilent
  | insert => exact h.other hinv rfl rfl (by simp [Silent, Scheduler.marks, ticks, executions])
  | @cancel e' => exact h.setSilent hinv rfl rfl hnone (fun hsome => hsome) fun n m => (·.cancel)
  | changePeriod e' period hperiod =>
      exact h.setSilent hinv rfl rfl hnone (fun _ => hperiod) fun n m hcounts =>
        hcounts.congr rfl rfl
  | loop hstep => exact hstep.ticking h hheard
  | @task e' b hstep =>
      have hlt : e' < s.queue.next := h.inv.sound.made e' hstep.joinable
      refine h.set hinv rfl rfl ?_ ?_
      · intro hother
        have hne : e' ≠ e := by
          rcases hother with hne | hle
          · exact hne
          · exact (hlt.trans_le hle).ne
        simp only [Scheduler.marks]
        split
        case isTrue => simp [Silent, hne]
        case isFalse => exact hnone
      · rintro rfl hsome
        have hwait : (s.queue.bodies e').periodicThread ≠ .running .wait := fun hwait =>
          hspurious ⟨rfl, hwait⟩
        rw [hstep.same.1] at hsome
        have hcounts := (h.counts hsome).task hstep hwait
        simp only [Scheduler.marks, Events.bodies_set_self]
        split at hcounts
        case isTrue hbegun => simpa [hbegun] using hcounts
        case isFalse hbegun => simpa [hbegun] using hcounts
  | stopping hstep =>
      cases hstep with
      | cancel =>
          refine h.setSilent hinv rfl rfl hnone ?_ fun n m => (·.cancelNotify)
          rw [(EventBody.notify_same _).1]
          exact fun hsome => hsome
      | _ => exact h.other hinv rfl rfl hnone
  | join hstep =>
      cases hstep with
      | event _ _ hreturned =>
          exact h.setSilent hinv rfl rfl hnone (fun hsome => hsome) fun n m hcounts =>
            hcounts.join hreturned
      | nonPeriodic _ _ hreturned =>
          exact h.setSilent hinv rfl rfl hnone (fun hsome => hsome) fun n m hcounts =>
            hcounts.join hreturned
      | _ => exact h.other hinv rfl rfl hnone
  | _ => exact h.other hinv rfl rfl hnone

/-! ## Every run -/

lemma LoopStep.notified {s s' : Scheduler} (hstep : LoopStep s s') {time : ℤ}
    (hmem : .notified time e ∈ s.loopMarks s') :
    (s.queue.bodies e).free = true ∧ s'.queue.bodies = (s.queue.set e
      (s.queue.bodies e).notify).bodies ∧ s.loopMarks s' = [.notified time e] := by
  cases hstep with
  | notify hpc hbegin hfree =>
      simp only [Scheduler.loopMarks, hpc, hbegin, LoopPc.past, if_true, List.mem_singleton,
        Mark.notified.injEq] at hmem ⊢
      obtain ⟨rfl, rfl⟩ := hmem
      exact ⟨hfree, rfl, rfl⟩
  | missed hpc hbegin => simp [Scheduler.loopMarks, Events.requeued, hpc, hbegin] at hmem
  | reschedule hpc hbegin hcanceled =>
      simp [Scheduler.loopMarks, Events.requeued, hpc, hbegin, hcanceled] at hmem
  | start hpc hbegin hcanceled => simp [Scheduler.loopMarks, hpc, hbegin, hcanceled] at hmem
  | startSingle hpc hbegin hcanceled => simp [Scheduler.loopMarks, hpc, hbegin, hcanceled] at hmem
  | _ => simp [Scheduler.loopMarks, *] at hmem

/-- A thread that wakes up by itself begins an execution that has no tick. -/
lemma Scheduler.Ticking.spurious {s s' : Scheduler} {action : Action} (h : s.Ticking trace e)
    (hperiod : (s.queue.bodies e).period.isSome) (hcanceled : (s.queue.bodies e).isCanceled = false)
    (hstep : Step s action s') (hspurious : s.Spurious e action) :
    ¬ s'.NoTickLost (trace ++ s.marks action s') e := by
  obtain ⟨rfl, hwait⟩ := hspurious
  have hsame : ticks trace e = executions trace e := by
    have hcounts := h.counts hperiod
    rw [EventBody.Counts, hwait] at hcounts
    exact hcounts
  intro hkept
  have hpending := hkept.pending
  -- It is pending then, but ticks and executions are what they were.
  cases hstep with
  | task htask =>
      cases htask with
      | wakeup => simp [Scheduler.marks, hwait, hcanceled, EventBody.pending, hsame] at hpending
      | _ => simp_all

lemma Scheduler.Ticking.unheard {s s' : Scheduler} {action : Action} (h : s.Ticking trace e)
    (hperiod : (s.queue.bodies e).period.isSome) (hcanceled : (s.queue.bodies e).isCanceled = false)
    (hstep : Step s action s') (hunheard : ¬ s.Heard e action s') :
    ¬ s'.NoTickLost (trace ++ s.marks action s') e := by
  simp only [Scheduler.Heard, not_forall] at hunheard
  obtain ⟨time, hmem, hwait⟩ := hunheard
  have hhandling : (time, e) ∈ handlings (s.marks action s') :=
    List.mem_filterMap.mpr ⟨_, hmem, rfl⟩
  obtain ⟨hloop, rfl⟩ := hstep.loop_of_handling hhandling
  obtain ⟨hfree, hbodies, hmarks⟩ := hloop.notified hmem
  have hbody : s'.queue.bodies e = s.queue.bodies e := by
    rw [hbodies, Events.bodies_set_self, EventBody.notify, if_neg hwait]
  intro hkept
  have hpending := hkept.pending
  rw [hbody] at hpending
  refine (h.counts hperiod).lost hcanceled hfree hwait ?_
  simpa [Scheduler.marks, hmarks] using hpending hcanceled

lemma ticking_of_run (mainThread : Bool) (e : ℕ) {actions : List Action} {s : Scheduler}
    {trace : List Mark}
    (hrun : Transition.Run (HeardStep e) ({ mainThread_ := mainThread }, []) actions (s, trace)) :
    s.Ticking trace e := by
  refine hrun.invariant (I := fun σ => σ.1.Ticking σ.2 e)
    (Scheduler.ticking_initial mainThread e) ?_
  rintro σ action σ' h ⟨⟨⟨hstep, hmarks⟩, hspurious⟩, hheard⟩
  rw [hmarks]
  exact hstep.ticking h hspurious hheard

/-- **No tick is lost** as long as the thread of the event waits wherever the loop finds its mutex
free, and does not wake up by itself; and where it does not, one is lost at once. -/
theorem no_tick_lost (mainThread : Bool) (e : ℕ) {actions : List Action} {s : Scheduler}
    {trace : List Mark}
    (hrun : Transition.Run (HeardStep e) ({ mainThread_ := mainThread }, []) actions (s, trace))
    (hperiod : (s.queue.bodies e).period.isSome) :
    s.NoTickLost trace e ∧
      ∀ action s', Step s action s' → (s.queue.bodies e).isCanceled = false →
        s.Spurious e action ∨ ¬ s.Heard e action s' →
        ¬ s'.NoTickLost (trace ++ s.marks action s') e := by
  have hticking := ticking_of_run mainThread e hrun
  have hcounts := hticking.counts hperiod
  refine ⟨hcounts.noTickLost, ?_⟩
  rintro action s' hstep hcanceled (hspurious | hunheard)
  · exact hticking.spurious hperiod hcanceled hstep hspurious
  · exact hticking.unheard hperiod hcanceled hstep hunheard

def Mark.isNotified : Mark → Bool
  | .notified .. => true
  | _ => false

/-- A step that notifies nobody. -/
lemma heard_snoc {σ : Scheduler × List Mark} {actions : List Action} {s s' : Scheduler}
    {action : Action} (h : Transition.Run (HeardStep e) σ actions (s, trace))
    (hstep : Step s action s') (hother : action ≠ .task e)
    (hnone : (s.marks action s').any Mark.isNotified = false) :
    Transition.Run (HeardStep e) σ (actions ++ [action]) (s', trace ++ s.marks action s') := by
  refine h.snoc ⟨⟨⟨hstep, rfl⟩, fun hspurious => hother hspurious.1⟩, ?_⟩
  intro time hmem
  exact absurd (List.any_eq_true.mpr ⟨_, hmem, rfl⟩) (Bool.eq_false_iff.mp hnone)

/-- An event of period 5 is started at 0, and due again at 5, when its thread has not got to its
mutex yet. -/
lemma run_unheard : ∃ actions s trace,
    Transition.Run (HeardStep 0) ({ mainThread_ := true }, []) actions (s, trace) ∧
    (s.queue.bodies 0).period.isSome ∧ (s.queue.bodies 0).isCanceled = false ∧
    ∃ s', Step s .loop s' ∧ ¬ s.Heard 0 .loop s' ∧ (s'.queue.bodies 0).period.isSome := by
  have hrun := heard_snoc (heard_snoc (heard_snoc (heard_snoc (heard_snoc (heard_snoc (heard_snoc
    (heard_snoc (heard_snoc (heard_snoc (heard_snoc (heard_snoc (heard_snoc (heard_snoc
    (@Transition.Run.nil _ _ (HeardStep 0) ({ mainThread_ := true }, []))
    (.schedule (some 5) 0 0) nofun rfl) (.insert rfl rfl (i := 0) rfl) nofun rfl)
    (.startMain rfl rfl) nofun rfl) (.loop (.lock 0 rfl rfl)) nofun rfl)
    (.loop (.due 0 rfl rfl (by decide))) nofun rfl)
    (.loop (.periodic rfl rfl (by decide) rfl)) nofun rfl)
    (.loop (.notStarted rfl rfl rfl)) nofun rfl) (.loop (.start rfl rfl rfl rfl)) nofun rfl)
    (.loop (.reschedule rfl rfl rfl rfl)) nofun rfl)
    (.loop (.drained rfl (by decide))) nofun rfl) (.loop (.goRound rfl rfl)) nofun rfl)
    (.loop (.due 5 rfl rfl (by decide))) nofun rfl)
    (.loop (.periodic rfl rfl (by decide) rfl)) nofun rfl) (.loop (.started rfl rfl rfl)) nofun rfl
  refine ⟨_, _, _, hrun, rfl, rfl, _, .loop (.notify rfl rfl rfl), ?_, rfl⟩
  intro hheard
  exact absurd (hheard 5 (by decide)) (by decide)

theorem no_tick_lost_until_unheard : ∃ actions s trace,
    Transition.Run (HeardStep 0) ({ mainThread_ := true }, []) actions (s, trace) ∧
    s.NoTickLost trace 0 ∧ ∃ s', Step s .loop s' ∧
      ¬ s'.NoTickLost (trace ++ s.marks .loop s') 0 := by
  obtain ⟨actions, s, trace, hrun, hperiod, hcanceled, s', hstep, hunheard, -⟩ := run_unheard
  obtain ⟨hkept, hlost⟩ := no_tick_lost true 0 hrun hperiod
  exact ⟨actions, s, trace, hrun, hkept, s', hstep,
    hlost .loop s' hstep hcanceled (Or.inr hunheard)⟩

theorem tick_lost : ¬ ∀ mainThread e actions s trace,
    Transition.Run (NotifiedStep e) ({ mainThread_ := mainThread }, []) actions (s, trace) →
    (s.queue.bodies e).period.isSome → s.NoTickLost trace e := by
  intro hkept
  obtain ⟨actions, s, trace, hrun, hperiod, hcanceled, s', hstep, hunheard, hperiod'⟩ := run_unheard
  have hticking := ticking_of_run true 0 hrun
  have hlast : NotifiedStep 0 (s, trace) .loop (s', trace ++ s.marks .loop s') :=
    ⟨⟨hstep, rfl⟩, fun hspurious => nomatch hspurious.1⟩
  have hrun' := (hrun.mono fun _ _ _ h => h.1).snoc hlast
  exact hticking.unheard hperiod hcanceled hstep hunheard (hkept true 0 _ s' _ hrun' hperiod')

end CpsCore.MultiThreadingScheduler

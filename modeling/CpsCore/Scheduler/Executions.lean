import Mathlib
import CpsCore.Scheduler.Trace

/-!
# What is still executed

A canceled event stays in `events_` until the loop comes to it, and its thread may still be on its
way.  An event without a period leaves `events_` when its thread is started.

* `Scheduler.Silenced`: what is recorded of an event after it has been canceled.
* `cancel_silences`: it is not executed any more, and notified at most once.
* `single_once`: an event without a period is handled at most once.
-/

namespace CpsCore.MultiThreadingScheduler

/-! ## What is counted -/

/-- The thread of the event is started, or calls the body. -/
@[simp] def Mark.runs? : Mark → Option ℕ
  | .started _ e | .begun e => some e
  | _ => none

@[simp] def Mark.notified? : Mark → Option ℕ
  | .notified _ e => some e
  | _ => none

def notifications (trace : List Mark) (e : ℕ) : ℕ :=
  trace.countP fun mark => mark.notified? = some e

/-- The loop has notified the event, and has it still in front of it. -/
def Scheduler.AtNotified (s : Scheduler) (e : ℕ) : Prop :=
  ∃ now time, s.loop = .notified now ∧ s.queue.events_.begin? = some (time, e)

variable {s s' : Scheduler} {trace marks : List Mark} {e : ℕ}

@[simp] lemma notifications_nil (e : ℕ) : notifications [] e = 0 := List.countP_nil ..

@[simp] lemma notifications_append :
    notifications (trace ++ marks) e = notifications trace e + notifications marks e :=
  List.countP_append ..

@[simp] lemma notifications_cons (mark : Mark) : notifications (mark :: trace) e =
    notifications trace e + if mark.notified? = some e then 1 else 0 := by
  rw [notifications, notifications, List.countP_cons]
  simp only [decide_eq_true_eq]

lemma notifications_eq_zero (h : ∀ mark ∈ trace, mark.notified? ≠ some e) :
    notifications trace e = 0 := by
  rw [notifications, List.countP_eq_zero]
  intro mark hmem
  rw [decide_eq_true_eq]
  exact h mark hmem

lemma silent_requeued_marks (q : Events) (time : ℤ) (e' e : ℕ) :
    ∀ mark ∈ q.requeued time e', mark.runs? ≠ some e ∧ mark.notified? ≠ some e := by
  intro mark hmem
  obtain ⟨period, -, rfl⟩ := List.mem_map.mp hmem
  exact ⟨by simp, by simp⟩

/-! ## Events do not come back -/

lemma Events.pending_eraseBegin {q : Events} (h : e ∈ q.eraseBegin.pending) : e ∈ q.pending := by
  rcases List.mem_append.mp h with hcaller | hqueued
  · exact List.mem_append_left _ hcaller
  · refine List.mem_append_right _ ?_
    rw [queued, Events.eraseBegin, Multimap.entries_eraseBegin] at hqueued
    exact ((List.tail_sublist _).map Prod.snd).subset hqueued

lemma Events.pending_reschedule {q : Events} {time : ℤ} {e' : ℕ}
    (hbegin : q.events_.begin? = some (time, e')) (time' : ℤ) :
    (q.reschedule time' e').pending.Perm q.pending :=
  (queued_reschedule hbegin time').append_left _

lemma Events.pending_insert {q : Events} {i : ℕ} {time : ℤ} {e' : ℕ}
    (hi : q.scheduling[i]? = some (time, e')) (h : e ∈ (q.insert i time e').pending) :
    e ∈ q.pending := by
  have hcaller : e' ∈ q.scheduling.map Prod.snd :=
    List.mem_map_of_mem (f := Prod.snd) (List.mem_of_getElem? hi)
  rcases List.mem_append.mp h with hother | hqueued
  · exact List.mem_append_left _ (((List.eraseIdx_sublist _ i).map Prod.snd).subset hother)
  · rcases List.mem_cons.mp ((queued_insert i time e').mem_iff.mp hqueued) with rfl | hqueued
    · exact List.mem_append_left _ hcaller
    · exact List.mem_append_right _ hqueued

/-- The loop takes an event out of `events_`. -/
lemma LoopStep.pending (hstep : LoopStep s s') (h : e ∈ s'.queue.pending) :
    e ∈ s.queue.pending := by
  cases hstep with
  | missed _ hbegin => exact (Events.pending_reschedule hbegin _).mem_iff.mp h
  | reschedule _ hbegin => exact (Events.pending_reschedule hbegin _).mem_iff.mp h
  | setAside => exact Events.pending_eraseBegin h
  | erase => exact Events.pending_eraseBegin h
  | startSingle => exact Events.pending_eraseBegin h
  | eraseSingle => exact Events.pending_eraseBegin h
  | _ => exact h

lemma Step.pending {action : Action} (hstep : Step s action s') (h : e ∈ s'.queue.pending) :
    e ∈ s.queue.pending ∨ e = s.queue.next := by
  cases hstep with
  | schedule period start now =>
      rw [Events.pending, Events.make, List.map_append] at h
      simp only [List.mem_append, List.map_cons, List.map_nil, List.mem_singleton] at h
      rw [Events.pending, List.mem_append]
      tauto
  | insert _ _ hi => exact Or.inl (Events.pending_insert hi h)
  | loop hloop => exact Or.inl (hloop.pending h)
  | stopping hstopping =>
      cases hstopping with
      | clear =>
          have hcaller : e ∈ s.queue.scheduling.map Prod.snd ++ [] := h
          rw [List.append_nil] at hcaller
          exact Or.inl (List.mem_append_left _ hcaller)
      | _ => exact Or.inl h
  | join hjoin => cases hjoin <;> exact Or.inl h
  | _ => exact Or.inl h

lemma Step.next_le {action : Action} (hstep : Step s action s') :
    s.queue.next ≤ s'.queue.next := by
  cases hstep with
  | schedule => exact Nat.le_succ _
  | loop hloop => cases hloop <;> exact le_rfl
  | stopping hstopping => cases hstopping <;> exact le_rfl
  | join hjoin => cases hjoin <;> exact le_rfl
  | _ => exact le_rfl

/-! ## Canceled events -/

lemma Step.canceled {action : Action} (hstep : Step s action s') (hlt : e < s.queue.next)
    (h : (s.queue.bodies e).isCanceled = true) : (s'.queue.bodies e).isCanceled = true := by
  have hset : ∀ {e' : ℕ} {b : EventBody},
      ((s.queue.bodies e').isCanceled = true → b.isCanceled = true) →
      ((s.queue.set e' b).bodies e).isCanceled = true := by
    intro e' b hb
    by_cases hne : e = e'
    · subst hne
      rw [Events.bodies_set_self]
      exact hb h
    · rwa [Events.bodies_set_of_ne hne]
  cases hstep with
  | schedule period start now =>
      show (Function.update s.queue.bodies s.queue.next _ e).isCanceled = true
      rwa [Function.update_of_ne hlt.ne]
  | cancel => exact hset fun _ => rfl
  | changePeriod => exact hset fun hcanceled => hcanceled
  | loop hloop => rwa [(hloop.same e).2]
  | task htask => exact hset htask.same.2.trans
  | stopping hstopping =>
      cases hstopping with
      | cancel => exact hset fun _ => (EventBody.notify_same _).2
      | _ => exact h
  | join hjoin =>
      cases hjoin with
      | event => exact hset fun hcanceled => hcanceled
      | nonPeriodic => exact hset fun hcanceled => hcanceled
      | _ => exact h
  | _ => exact h

lemma LoopStep.silent (hstep : LoopStep s s') (h : (s.queue.bodies e).isCanceled = true) :
    ∀ mark ∈ s.loopMarks s', mark.runs? ≠ some e := by
  have hother : ∀ {e'}, (s.queue.bodies e').isCanceled = false → e' ≠ e := by
    rintro e' hcanceled rfl
    simp [h] at hcanceled
  intro mark hmem
  cases hstep with
  | start hpc hbegin hcanceled =>
      simp only [Scheduler.loopMarks, hpc, hbegin, hcanceled, Bool.false_eq_true, if_false,
        List.mem_singleton] at hmem
      simpa [hmem] using hother hcanceled
  | startSingle hpc hbegin hcanceled =>
      simp only [Scheduler.loopMarks, hpc, hbegin, hcanceled, Bool.false_eq_true, if_false,
        List.mem_singleton] at hmem
      simpa [hmem] using hother hcanceled
  | missed hpc hbegin =>
      simp only [Scheduler.loopMarks, hpc, hbegin, LoopPc.past, Bool.false_eq_true, if_false,
        List.mem_cons] at hmem
      rcases hmem with rfl | hmem
      · simp
      · exact (silent_requeued_marks _ _ _ e mark hmem).1
  | reschedule hpc hbegin hcanceled =>
      simp only [Scheduler.loopMarks, hpc, hbegin, hcanceled, Bool.false_eq_true, if_false] at hmem
      exact (silent_requeued_marks _ _ _ e mark hmem).1
  | notify hpc hbegin =>
      simp only [Scheduler.loopMarks, hpc, hbegin, LoopPc.past, if_true,
        List.mem_singleton] at hmem
      simp [hmem]
  | lock now hpc =>
      simp only [Scheduler.loopMarks, hpc, List.mem_singleton] at hmem
      simp [hmem]
  | empty now hpc => simp_all [Scheduler.loopMarks]
  | early now hpc => simp_all [Scheduler.loopMarks]
  | due now hpc => simp_all [Scheduler.loopMarks]
  | waitedUntil now hpc => simp_all [Scheduler.loopMarks]
  | _ => simp [Scheduler.loopMarks, *] at hmem

lemma Step.silent {action : Action} (hstep : Step s action s')
    (h : (s.queue.bodies e).isCanceled = true) : ∀ mark ∈ s.marks action s', mark.runs? ≠ some e := by
  intro mark hmem
  cases hstep with
  | schedule period start now =>
      simp only [Scheduler.marks] at hmem
      split at hmem
      · simp [List.mem_singleton.mp hmem]
      · simp at hmem
  | insert =>
      obtain ⟨entry, -, rfl⟩ := List.mem_map.mp hmem
      simp
  | loop hloop => exact hloop.silent h mark hmem
  | @task e' b htask =>
      simp only [Scheduler.marks] at hmem
      split at hmem
      case isFalse => simp at hmem
      case isTrue hbegun =>
        obtain rfl := List.mem_singleton.mp hmem
        -- Only a thread that has not been canceled goes on to the body.
        have hne : e' ≠ e := by
          rintro rfl
          cases htask with
          | proceed _ hcanceled => simp [h] at hcanceled
          | _ => simp_all
        simpa using hne
  | _ => simp [Scheduler.marks] at hmem

/-- The loop notifies one event at a time, which then is the first one. -/
lemma LoopStep.notifies (hstep : LoopStep s s') (e : ℕ) :
    notifications (s.loopMarks s') e = 0 ∨
      notifications (s.loopMarks s') e = 1 ∧ e ∈ s.queue.pending ∧ ¬ s.AtNotified e ∧
        s'.AtNotified e := by
  by_cases hmem : ∃ time, .notified time e ∈ s.loopMarks s'
  · obtain ⟨time, hmem⟩ := hmem
    cases hstep with
    | @notify now time' e' hpc hbegin =>
        simp only [Scheduler.loopMarks, hpc, hbegin, LoopPc.past, if_true, List.mem_singleton,
          Mark.notified.injEq] at hmem ⊢
        obtain ⟨rfl, rfl⟩ := hmem
        refine Or.inr ⟨by simp, ?_, ?_, now, time, rfl, hbegin⟩
        · exact List.mem_append_right _ (Events.mem_queued_of_begin? hbegin)
        · rintro ⟨_, _, hat, -⟩
          simp [hpc] at hat
    | missed hpc hbegin => simp [Scheduler.loopMarks, Events.requeued, hpc, hbegin] at hmem
    | reschedule hpc hbegin hcanceled =>
        simp [Scheduler.loopMarks, Events.requeued, hpc, hbegin, hcanceled] at hmem
    | start hpc hbegin hcanceled => simp [Scheduler.loopMarks, hpc, hbegin, hcanceled] at hmem
    | startSingle hpc hbegin hcanceled =>
        simp [Scheduler.loopMarks, hpc, hbegin, hcanceled] at hmem
    | _ => simp [Scheduler.loopMarks, *] at hmem
  · refine Or.inl (notifications_eq_zero ?_)
    intro mark hmark hnotified
    cases mark with
    | notified time e' =>
        obtain rfl : e' = e := by simpa using hnotified
        exact hmem ⟨time, hmark⟩
    | _ => simp at hnotified

lemma Step.notifies {action : Action} (hstep : Step s action s') (e : ℕ) :
    notifications (s.marks action s') e = 0 ∨
      notifications (s.marks action s') e = 1 ∧ e ∈ s.queue.pending ∧ ¬ s.AtNotified e ∧
        s'.AtNotified e := by
  cases hstep with
  | loop hloop => exact hloop.notifies e
  | schedule =>
      refine Or.inl ?_
      simp only [Scheduler.marks]
      split <;> simp
  | insert =>
      refine Or.inl (notifications_eq_zero ?_)
      intro mark hmem
      obtain ⟨entry, -, rfl⟩ := List.mem_map.mp hmem
      simp
  | task =>
      refine Or.inl ?_
      simp only [Scheduler.marks]
      split <;> simp
  | _ => exact Or.inl rfl

/-- A canceled event that has been notified is taken out of `events_` next. -/
lemma Step.atNotified {action : Action} (hstep : Step s action s') (hinv : s.Inv)
    (hcanceled : (s.queue.bodies e).isCanceled = true) (h : s.AtNotified e) :
    s'.AtNotified e ∨ e ∉ s'.queue.pending := by
  obtain ⟨now, time, hpc, hbegin⟩ := h
  have hholds : s.loop.holds = true := by rw [hpc]; rfl
  have hstop : s.stop.holds = false := hinv.exclusive hholds
  have hstays : s'.loop = s.loop → s'.queue.events_ = s.queue.events_ → s'.AtNotified e :=
    fun hloop hevents => ⟨now, time, hloop.trans hpc, hevents ▸ hbegin⟩
  cases hstep with
  | loop hloop =>
      cases hloop with
      | @setAside _ time' e' _ hbegin' =>
          obtain ⟨-, rfl⟩ : time = time' ∧ e = e' := by simpa using hbegin.symm.trans hbegin'
          refine Or.inr fun hpending => ?_
          have hnodup := ((Events.pending_perm hbegin).append_right _).nodup_iff.mp hinv.sound.nodup
          exact (List.nodup_cons.mp hnodup).1 (List.mem_append_left _ hpending)
      | @goOn _ time' e' _ hbegin' hnot =>
          obtain ⟨-, rfl⟩ : time = time' ∧ e = e' := by simpa using hbegin.symm.trans hbegin'
          simp [hcanceled] at hnot
      | _ => simp_all
  | insert hloop => exact absurd (hholds.symm.trans hloop) (by decide)
  | stopping hstopping =>
      cases hstopping with
      | clear hclear => simp [hclear] at hstop
      | _ => exact Or.inl (hstays rfl rfl)
  | startInvoker _ _ hidle => simp [hidle] at hholds
  | startMain _ hidle => simp [hidle] at hholds
  | join hjoin => cases hjoin <;> exact Or.inl (hstays rfl rfl)
  | _ => exact Or.inl (hstays rfl rfl)

/-- What has been recorded of an event since it was canceled. -/
structure Scheduler.Silenced (s : Scheduler) (since : List Mark) (e : ℕ) : Prop where
  inv : s.Inv
  made : e < s.queue.next
  canceled : (s.queue.bodies e).isCanceled = true
  silent : ∀ mark ∈ since, mark.runs? ≠ some e
  once : notifications since e = 0 ∨
    notifications since e = 1 ∧ (s.AtNotified e ∨ e ∉ s.queue.pending)

lemma Step.silenced {action : Action} (hstep : Step s action s') (h : s.Silenced trace e) :
    s'.Silenced (trace ++ s.marks action s') e := by
  refine ⟨hstep.inv h.inv, h.made.trans_le hstep.next_le, hstep.canceled h.made h.canceled, ?_, ?_⟩
  · intro mark hmem
    rcases List.mem_append.mp hmem with hold | hnew
    · exact h.silent mark hold
    · exact hstep.silent h.canceled mark hnew
  · rw [notifications_append]
    rcases hstep.notifies e with hquiet | ⟨hnotifies, hpending, hfresh, hat⟩
    · rw [hquiet, Nat.add_zero]
      refine h.once.imp_right fun ⟨hone, hleaves⟩ => ⟨hone, ?_⟩
      rcases hleaves with hat | hgone
      · exact hstep.atNotified h.inv h.canceled hat
      · refine Or.inr fun hpending => ?_
        rcases hstep.pending hpending with hback | hnew
        · exact hgone hback
        · exact h.made.ne hnew
    · rcases h.once with hzero | ⟨-, hat' | hgone⟩
      · exact Or.inr ⟨by rw [hzero, hnotifies], Or.inl hat⟩
      · exact absurd hat' hfresh
      · exact absurd hpending hgone

/-- **Canceled**: whatever happens after an event has been canceled, its body is not called any
more unless its thread is past the check, no thread is started for it, and it is notified at most
once. -/
theorem cancel_silences (mainThread : Bool) {before after : List Action} {s s' : Scheduler}
    {trace since : List Mark}
    (hbefore : Transition.Run TracedStep ({ mainThread_ := mainThread }, []) before (s, trace))
    (hmade : e < s.queue.next) (hcanceled : (s.queue.bodies e).isCanceled = true)
    (hafter : Transition.Run TracedStep (s, []) after (s', since)) :
    (s'.queue.bodies e).isCanceled = true ∧ (∀ mark ∈ since, mark.runs? ≠ some e) ∧
      notifications since e ≤ 1 := by
  have hinv : s.Inv := by
    refine hbefore.invariant (I := fun σ => σ.1.Inv) (Scheduler.Inv.initial mainThread) ?_
    exact fun σ action σ' h hstep => hstep.1.inv h
  have hsilenced : s'.Silenced since e := by
    refine hafter.invariant (I := fun σ => σ.1.Silenced σ.2 e)
      ⟨hinv, hmade, hcanceled, by simp, Or.inl rfl⟩ ?_
    rintro σ action σ' h ⟨hstep, hmarks⟩
    rw [hmarks]
    exact hstep.silenced h
  refine ⟨hsilenced.canceled, hsilenced.silent, ?_⟩
  rcases hsilenced.once with hzero | ⟨hone, -⟩ <;> omega

/-- A run goes on with a new trace. -/
lemma traced_anew {σ : Scheduler × List Mark} {actions : List Action}
    (_ : Transition.Run TracedStep σ actions (s, trace)) :
    Transition.Run TracedStep (s, []) [] (s, []) := Transition.Run.nil

/-- An event of period 5 is canceled while its thread waits, and is due at 5: it is notified, set
aside, and its thread leaves. -/
theorem cancel_silences_waiting : ∃ before s trace after s' since,
    Transition.Run TracedStep ({ mainThread_ := true }, []) before (s, trace) ∧
    Transition.Run TracedStep (s, []) after (s', since) ∧
    trace.any (fun mark => mark.runs? = some 0) = true ∧ since = [.read 7, .notified 5 0] ∧
    (s'.queue.bodies 0).periodicThread = .running .returned ∧
    (s'.queue.bodies 0).isCanceled = true ∧ (∀ mark ∈ since, mark.runs? ≠ some 0) ∧
      notifications since 0 ≤ 1 := by
  have hbefore := traced_snoc (traced_snoc (traced_snoc (traced_snoc (traced_snoc (traced_snoc
    (traced_snoc (traced_snoc (traced_snoc (traced_snoc (traced_snoc (traced_snoc (traced_snoc
    (traced_snoc (traced_snoc
    (@Transition.Run.nil _ _ TracedStep ({ mainThread_ := true }, []))
    (.schedule (some 5) 0 0)) (.insert rfl rfl (i := 0) rfl)) (.startMain rfl rfl))
    (.loop (.lock 0 rfl rfl))) (.loop (.due 0 rfl rfl (by decide))))
    (.loop (.periodic rfl rfl (by decide) rfl))) (.loop (.notStarted rfl rfl rfl)))
    (.loop (.start rfl rfl rfl rfl))) (.loop (.reschedule rfl rfl rfl rfl)))
    (.loop (.drained rfl (by decide)))) (.loop (.goRound rfl rfl)))
    (.task (e := 0) (.lock rfl))) (.task (e := 0) (.proceed rfl rfl)))
    (.task (e := 0) (.wait rfl))) (.cancel 0 (by decide))
  have hafter := traced_snoc (traced_snoc (traced_snoc (traced_snoc (traced_snoc (traced_snoc
    (traced_snoc (traced_snoc (traced_anew hbefore)
    (.loop (.due 7 rfl rfl (by decide)))) (.loop (.periodic rfl rfl (by decide) rfl)))
    (.loop (.started rfl rfl rfl))) (.loop (.notify rfl rfl rfl)))
    (.loop (.setAside rfl rfl rfl))) (.task (e := 0) (.lock rfl)))
    (.task (e := 0) (.canceled rfl rfl))) (.task (e := 0) (.leave rfl))
  exact ⟨_, _, _, _, _, _, hbefore, hafter, rfl, rfl, rfl,
    cancel_silences true hbefore (by decide) rfl hafter⟩

/-! ## Events without a period -/

/-- What the loop handles either has a period or leaves `events_`. -/
lemma LoopStep.handles (hstep : LoopStep s s') (h : s.Inv) :
    handlings (s.loopMarks s') = [] ∨ ∃ time e, handlings (s.loopMarks s') = [(time, e)] ∧
      e ∈ s.queue.pending ∧ ((s.queue.bodies e).period.isSome ∨ e ∉ s'.queue.pending) := by
  have hmem : ∀ {time e}, s.queue.events_.begin? = some (time, e) → e ∈ s.queue.pending :=
    fun hbegin => List.mem_append_right _ (Events.mem_queued_of_begin? hbegin)
  cases hstep with
  | @notify now time e hpc hbegin =>
      refine Or.inr ⟨time, e, by simp [Scheduler.loopMarks, hpc, hbegin], hmem hbegin, Or.inl ?_⟩
      exact h.found_begin (by rw [hpc]; rfl) hbegin
  | @start now time e hpc hbegin hcanceled =>
      refine Or.inr ⟨time, e, by simp [Scheduler.loopMarks, hpc, hbegin, hcanceled], hmem hbegin,
        Or.inl ?_⟩
      exact h.found_begin (by rw [hpc]; rfl) hbegin
  | @missed now time e period hpc hbegin hperiod =>
      refine Or.inr ⟨time, e, ?_, hmem hbegin, Or.inl (by simp [hperiod])⟩
      simp [Scheduler.loopMarks, Events.requeued, hpc, hbegin, hperiod]
  | @startSingle now time e hpc hbegin hcanceled =>
      refine Or.inr ⟨time, e, by simp [Scheduler.loopMarks, hpc, hbegin, hcanceled], hmem hbegin,
        Or.inr fun hpending => ?_⟩
      have hnodup := ((Events.pending_perm hbegin).append_right _).nodup_iff.mp h.sound.nodup
      exact (List.nodup_cons.mp hnodup).1 (List.mem_append_left _ hpending)
  | reschedule hpc hbegin hcanceled hperiod =>
      exact Or.inl (by simp [Scheduler.loopMarks, Events.requeued, hpc, hbegin, hperiod, hcanceled])
  | lock now hpc => exact Or.inl (by simp [Scheduler.loopMarks, hpc])
  | notToStart hpc hbegin hcanceled =>
      exact Or.inl (by simp [Scheduler.loopMarks, hpc, hbegin, hcanceled])
  | erase hpc hbegin hcanceled =>
      exact Or.inl (by simp [Scheduler.loopMarks, hpc, hbegin, hcanceled])
  | eraseSingle hpc hbegin hcanceled =>
      exact Or.inl (by simp [Scheduler.loopMarks, hpc, hbegin, hcanceled])
  | _ => exact Or.inl (by simp [Scheduler.loopMarks, *])

lemma handled_eq_zero (h : handlings marks = []) (e : ℕ) : handled marks e = 0 := by
  rw [handled, h, countOf_nil]

lemma Step.handles {action : Action} (hstep : Step s action s') (h : s.Inv) :
    handlings (s.marks action s') = [] ∨ ∃ time e, handlings (s.marks action s') = [(time, e)] ∧
      e ∈ s.queue.pending ∧ ((s.queue.bodies e).period.isSome ∨ e ∉ s'.queue.pending) := by
  by_cases hnone : handlings (s.marks action s') = []
  · exact Or.inl hnone
  · obtain ⟨entry, hmem⟩ := List.exists_mem_of_ne_nil _ hnone
    obtain ⟨hloop, rfl⟩ := hstep.loop_of_handling hmem
    exact hloop.handles h

/-- An event has a period or not for good. -/
lemma Step.period_none {action : Action} (hstep : Step s action s')
    (h : (s'.queue.bodies e).period = none) :
    (s.queue.bodies e).period = none ∨ e = s.queue.next := by
  have hset : ∀ {e' : ℕ} {b : EventBody}, ((s.queue.set e' b).bodies e).period = none →
      (b.period = none → (s.queue.bodies e').period = none) →
      (s.queue.bodies e).period = none := by
    intro e' b hnone hb
    by_cases hne : e = e'
    · subst hne
      rw [Events.bodies_set_self] at hnone
      exact hb hnone
    · rwa [Events.bodies_set_of_ne hne] at hnone
  cases hstep with
  | schedule period start now =>
      by_cases hne : e = s.queue.next
      · exact Or.inr hne
      · refine Or.inl ?_
        simp only [Events.make, Function.update_of_ne hne] at h
        exact h
  | changePeriod => exact Or.inl (hset h fun hnone => absurd hnone (by simp))
  | cancel => exact Or.inl (hset h fun hnone => hnone)
  | loop hloop => exact Or.inl ((hloop.same e).1.symm.trans h)
  | task htask => exact Or.inl (hset h htask.same.1.symm.trans)
  | stopping hstopping =>
      cases hstopping with
      | cancel => exact Or.inl (hset h (EventBody.notify_same _).1.symm.trans)
      | _ => exact Or.inl h
  | join hjoin =>
      cases hjoin with
      | event => exact Or.inl (hset h fun hnone => hnone)
      | nonPeriodic => exact Or.inl (hset h fun hnone => hnone)
      | _ => exact Or.inl h
  | _ => exact Or.inl h

structure Scheduler.HandlesOnce (s : Scheduler) (trace : List Mark) : Prop where
  inv : s.Inv
  fresh : ∀ e, s.queue.next ≤ e → handled trace e = 0
  once : ∀ e, (s.queue.bodies e).period = none →
    handled trace e ≤ 1 ∧ (e ∈ s.queue.pending → handled trace e = 0)

lemma Step.handlesOnce {action : Action} (hstep : Step s action s') (h : s.HandlesOnce trace) :
    s'.HandlesOnce (trace ++ s.marks action s') := by
  have hold : ∀ e, (s'.queue.bodies e).period = none →
      handled trace e ≤ 1 ∧ (e ∈ s'.queue.pending → handled trace e = 0) := by
    intro e hperiod
    rcases hstep.period_none hperiod with hnone | rfl
    · obtain ⟨hone, hzero⟩ := h.once e hnone
      refine ⟨hone, fun hpending => ?_⟩
      rcases hstep.pending hpending with hback | rfl
      · exact hzero hback
      · exact h.fresh _ le_rfl
    · have hzero := h.fresh _ (le_refl s.queue.next)
      exact ⟨by omega, fun _ => hzero⟩
  have hsplit : ∀ e, handled (trace ++ s.marks action s') e =
      handled trace e + handled (s.marks action s') e := by
    intro e
    simp [handled]
  refine ⟨hstep.inv h.inv, ?_, ?_⟩
  · intro e hle
    have hbefore := h.fresh e (hstep.next_le.trans hle)
    rcases hstep.handles h.inv with hnone | ⟨time, e', hone, hpending, -⟩
    · rw [hsplit, hbefore, handled_eq_zero hnone]
    · have hlt : e' < s.queue.next := h.inv.sound.fresh e' (List.mem_append_left _ hpending)
      have hne : e' ≠ e := (hlt.trans_le (hstep.next_le.trans hle)).ne
      rw [hsplit, hbefore, handled, hone, countOf_singleton_of_ne hne]
  · intro e hperiod
    obtain ⟨hone, hzero⟩ := hold e hperiod
    rcases hstep.handles h.inv with hnone | ⟨time, e', hmarks, hpending, hleaves⟩
    · rw [hsplit, handled_eq_zero hnone]
      exact ⟨hone, hzero⟩
    · by_cases hne : e' = e
      · subst hne
        -- It has not been handled before, as it was still in `events_`.
        have hlt : e' < s.queue.next := h.inv.sound.fresh e' (List.mem_append_left _ hpending)
        have hnone := (hstep.period_none hperiod).resolve_right hlt.ne
        have hgone := hleaves.resolve_left (by simp [hnone])
        have hbefore := (h.once e' hnone).2 hpending
        rw [hsplit, hbefore, handled, hmarks, countOf_singleton_self]
        exact ⟨le_rfl, fun hback => absurd hback hgone⟩
      · rw [hsplit, handled, handled, hmarks, countOf_singleton_of_ne hne, Nat.add_zero]
        exact ⟨hone, hzero⟩

/-- **Without a period**: in every run, the loop handles such an event at most once, and not before
it leaves `events_`. -/
theorem single_once (mainThread : Bool) {actions : List Action} {s : Scheduler}
    {trace : List Mark}
    (hrun : Transition.Run TracedStep ({ mainThread_ := mainThread }, []) actions (s, trace))
    (e : ℕ) (hperiod : (s.queue.bodies e).period = none) :
    handled trace e ≤ 1 ∧ (e ∈ s.queue.pending → handled trace e = 0) := by
  have hhandles : s.HandlesOnce trace := by
    refine hrun.invariant (I := fun σ => σ.1.HandlesOnce σ.2) ⟨Scheduler.Inv.initial mainThread,
      fun _ _ => rfl, fun _ _ => ⟨Nat.zero_le _, fun _ => rfl⟩⟩ ?_
    rintro σ action σ' h ⟨hstep, hmarks⟩
    rw [hmarks]
    exact hstep.handlesOnce h
  exact hhandles.once e hperiod

/-- The thread of an event without a period is started, and the loop goes round again. -/
theorem single_once_started : ∃ actions s trace,
    Transition.Run TracedStep ({ mainThread_ := true }, []) actions (s, trace) ∧
    handled trace 0 = 1 ∧ s.queue.pending = [] ∧
    (handled trace 0 ≤ 1 ∧ (0 ∈ s.queue.pending → handled trace 0 = 0)) := by
  have hrun := traced_snoc (traced_snoc (traced_snoc (traced_snoc (traced_snoc (traced_snoc
    (traced_snoc (traced_snoc (traced_snoc
    (@Transition.Run.nil _ _ TracedStep ({ mainThread_ := true }, []))
    (.schedule none 3 0)) (.insert rfl rfl (i := 0) rfl)) (.startMain rfl rfl))
    (.loop (.lock 0 rfl rfl))) (.loop (.due 4 rfl rfl (by decide))))
    (.loop (.single rfl rfl (by decide) rfl))) (.loop (.startSingle rfl rfl rfl rfl)))
    (.loop (.drained rfl (by decide)))) (.loop (.goRound rfl rfl))
  exact ⟨_, _, _, hrun, by decide, rfl, single_once true hrun 0 rfl⟩

end CpsCore.MultiThreadingScheduler

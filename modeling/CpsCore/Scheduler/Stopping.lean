import Mathlib
import CpsCore.Scheduler.Ownership

/-!
# Stopping

`stop` joins the thread of every event in `events_` without looking whether there is one, and that
of every event in `nonPeriodicEvents_` if there is one, and the invoker thread in any case.  That is
right if it is `Ready`: every event in `events_` has a thread to join, no thread is lost, and
there is an invoker thread unless the loop runs in the main thread.

* `Scheduler.Stops`: how far a `stop` has come that was ready.
* `Scheduler.Quiescent`: what it leaves behind.
-/

namespace CpsCore.MultiThreadingScheduler

/-! ## Without events -/

namespace Events

/-- Nothing is left to be run or joined. -/
def Done (q : Events) : Prop := q.events_.entries = [] ∧ ∀ e, ¬ q.Joinable e

variable {q : Events} {e : ℕ}

lemma Done.quiet (h : q.Done) {b : EventBody} (hquiet : Quiet (q.bodies e) b) : (q.set e b).Done :=
  ⟨h.1, fun e' he' => h.2 e' ((joinable_set hquiet).mp he')⟩

lemma Done.join (h : q.Done) (e : ℕ) : (q.join e).Done :=
  ⟨h.1, fun e' he' => h.2 e' (joinable_join.mp he').1⟩

lemma Done.make (h : q.Done) (period : Option ℤ) (time : ℤ) : (q.make period time).Done :=
  ⟨h.1, fun e he => h.2 e ((joinable_make (fun e he => absurd he (h.2 e)) period time e).mp he)⟩

end Events

/-- A loop without events starts no thread. -/
lemma LoopStep.done {s s' : Scheduler} (hstep : LoopStep s s') (h : s.queue.Done) :
    s'.queue.Done := by
  have hnone : s.queue.events_.begin? = none := by rw [Multimap.begin?, h.1, List.head?_nil]
  have hsome : ∀ {entry}, s.queue.events_.begin? = some entry → False := fun hbegin =>
    absurd (hnone.symm.trans hbegin) (by simp)
  cases hstep with
  | join => exact h.join _
  | notify _ hbegin => exact (hsome hbegin).elim
  | missed _ hbegin => exact (hsome hbegin).elim
  | setAside _ hbegin => exact (hsome hbegin).elim
  | start _ hbegin => exact (hsome hbegin).elim
  | reschedule _ hbegin => exact (hsome hbegin).elim
  | erase _ hbegin => exact (hsome hbegin).elim
  | startSingle _ hbegin => exact (hsome hbegin).elim
  | eraseSingle _ hbegin => exact (hsome hbegin).elim
  | _ => exact h

lemma LoopStep.keeps {s s' : Scheduler} (hstep : LoopStep s s') :
    s'.mainThread_ = s.mainThread_ ∧ s'.invokerThread_ = s.invokerThread_ ∧ s'.stop = s.stop := by
  cases hstep <;> exact ⟨rfl, rfl, rfl⟩

lemma LoopStep.runs {s s' : Scheduler} (hstep : LoopStep s s') :
    s.loop ≠ .idle ∧ (s'.loop = .idle → s'.started_ = false) := by
  cases hstep <;> simp_all

/-! ## Ready to stop -/

/-- Behind `lock.unlock()`. -/
@[simp] def StopPc.leaving : StopPc → Bool
  | .joinInvoker | .leave => true
  | _ => false

namespace Scheduler

def HasInvoker (s : Scheduler) : Prop := s.mainThread_ = true ∨ s.invokerThread_ = .joinable

structure Ready (s : Scheduler) : Prop where
  queued : ∀ e ∈ s.queue.queued, s.queue.Joinable e
  owned : s.queue.Owned
  invoker : s.HasInvoker

/-- How far `stop` has come. -/
def Stops (s : Scheduler) : Prop :=
  match s.stop with
  | .idle | .lock => True
  | .cancel _ => s.Ready
  | .join i => (∀ entry ∈ s.queue.events_.entries.drop i, s.queue.Joinable entry.2) ∧
      s.queue.Owned ∧ s.HasInvoker
  | .joinNonPeriodic i => (∀ e ∈ s.queue.nonPeriodicEvents_.take i, ¬ s.queue.Joinable e) ∧
      s.queue.Owned ∧ s.HasInvoker
  | .joinInvoker => s.queue.Done ∧ s.HasInvoker
  | .leave => s.queue.Done ∧ (s.mainThread_ = true ∨ s.loop = .idle)
  | .failed => False

variable {s s' : Scheduler}

/-- A step of somebody else, while `stop` has the mutex. -/
lemma Stops.other (h : s.Stops) (hholds : s.stop.holds = true) (hstop : s'.stop = s.stop)
    (hevents : s'.queue.events_ = s.queue.events_)
    (hnonPeriodic : s'.queue.nonPeriodicEvents_ = s.queue.nonPeriodicEvents_)
    (hjoinable : ∀ e, s'.queue.Joinable e ↔ s.queue.Joinable e)
    (hinvoker : s.HasInvoker → s'.HasInvoker) : s'.Stops := by
  have hqueued : s'.queue.queued = s.queue.queued := by rw [Events.queued, Events.queued, hevents]
  have howned : s.queue.Owned → s'.queue.Owned := fun howned e he => by
    rw [Events.Has, hqueued, hnonPeriodic]
    exact howned e ((hjoinable e).mp he)
  unfold Stops at h ⊢
  rw [hstop]
  cases hpc : s.stop with
  | cancel i =>
      simp only [hpc] at h ⊢
      refine ⟨fun e he => (hjoinable e).mpr (h.queued e (hqueued ▸ he)), howned h.owned,
        hinvoker h.invoker⟩
  | join i =>
      simp only [hpc] at h ⊢
      obtain ⟨hleft, howned', hinvoker'⟩ := h
      refine ⟨fun entry hmem => (hjoinable _).mpr (hleft entry (hevents ▸ hmem)), howned howned',
        hinvoker hinvoker'⟩
  | joinNonPeriodic i =>
      simp only [hpc] at h ⊢
      obtain ⟨hleft, howned', hinvoker'⟩ := h
      refine ⟨fun e he hnow => hleft e (hnonPeriodic ▸ he) ((hjoinable e).mp hnow), howned howned',
        hinvoker hinvoker'⟩
  | _ => exact absurd hholds (by simp [hpc])

/-- And when it no longer has it. -/
lemma Stops.leaving (h : s.Stops) (hholds : s.stop.holds = false) (hstop : s'.stop = s.stop)
    (hdone : s.queue.Done → s'.queue.Done) (hinvoker : s.HasInvoker → s'.HasInvoker)
    (hloop : s.mainThread_ = true ∨ s.loop = .idle → s'.mainThread_ = true ∨ s'.loop = .idle) :
    s'.Stops := by
  unfold Stops at h ⊢
  rw [hstop]
  cases hpc : s.stop with
  | joinInvoker =>
      simp only [hpc] at h ⊢
      exact ⟨hdone h.1, hinvoker h.2⟩
  | leave =>
      simp only [hpc] at h ⊢
      exact ⟨hdone h.1, hloop h.2⟩
  | idle => trivial
  | lock => trivial
  | failed => simp only [hpc] at h
  | _ => exact absurd hholds (by simp [hpc])

end Scheduler

lemma StopStep.stops {s s' : Scheduler} (hstep : StopStep s s') (hinv : s.Inv) (h : s.Stops) :
    s'.Stops := by
  have hjoined := hinv.joined
  cases hstep with
  | cancel hstop =>
      simp only [Scheduler.Stops, hstop] at h
      refine ⟨?_, h.owned.quiet (Events.quiet_cancelNotify _), h.invoker⟩
      intro e hqueued
      exact (Events.joinable_set (Events.quiet_cancelNotify _)).mpr (h.queued e hqueued)
  | canceled hstop =>
      simp only [Scheduler.Stops, hstop] at h
      refine ⟨?_, h.owned, h.invoker⟩
      intro entry hmem
      exact h.queued entry.2 (List.mem_map_of_mem hmem)
  | joined hstop =>
      simp only [Scheduler.Stops, hstop] at h
      exact ⟨fun _ hmem => absurd hmem List.not_mem_nil, h.2⟩
  | @skip i e hstop hi hnone =>
      simp only [Scheduler.Stops, hstop] at h
      refine ⟨?_, h.2⟩
      intro e' hmem
      rw [List.take_add_one, hi, List.mem_append] at hmem
      rcases hmem with hmem | hmem
      · exact h.1 e' hmem
      · obtain rfl : e' = e := by simpa using hmem
        exact Bool.eq_false_iff.mp hnone
  | clear hstop hend =>
      simp only [Scheduler.Stops, hstop] at h
      simp only [Scheduler.Joined, hstop] at hjoined
      rw [List.take_of_length_le (List.getElem?_eq_none_iff.mp hend)] at h
      refine ⟨⟨rfl, ?_⟩, h.2.2⟩
      intro e hjoinable
      rcases h.2.1 e hjoinable with hqueued | hnonPeriodic
      · exact hjoined e hqueued hjoinable
      · exact h.1 e hnonPeriodic hjoinable
  | main hstop hmain =>
      simp only [Scheduler.Stops, hstop] at h
      exact ⟨h.1, Or.inl hmain⟩

lemma JoinStep.stops {s s' : Scheduler} (hstep : JoinStep s s') (hinv : s.Inv) (h : s.Stops) :
    s'.Stops := by
  cases hstep with
  | @event i time e hstop hi =>
      simp only [Scheduler.Stops, hstop] at h
      refine ⟨?_, h.2.1.join e, h.2.2⟩
      show ∀ entry ∈ s.queue.events_.entries.drop (i + 1), (s.queue.join e).Joinable entry.2
      obtain ⟨hlt, hget⟩ := List.getElem?_eq_some_iff.mp hi
      rw [List.drop_eq_getElem_cons hlt, hget] at h
      intro entry hmem
      refine Events.joinable_join.mpr ⟨h.1 entry (List.mem_cons_of_mem _ hmem), ?_⟩
      -- No event has two entries.
      have hqueued : s.queue.queued.Nodup :=
        (List.nodup_append.mp (List.nodup_append.mp hinv.sound.nodup).1).2.1
      have hrest : (((time, e) :: s.queue.events_.entries.drop (i + 1)).map Prod.snd).Nodup := by
        rw [← hget, ← List.drop_eq_getElem_cons hlt]
        exact hqueued.sublist ((List.drop_sublist i _).map _)
      rintro rfl
      exact (List.nodup_cons.mp hrest).1 (List.mem_map.mpr ⟨entry, hmem, rfl⟩)
  | @notJoinable i time e hstop hi hnone =>
      simp only [Scheduler.Stops, hstop] at h
      have hmem : (time, e) ∈ s.queue.events_.entries.drop i := by
        obtain ⟨hlt, hget⟩ := List.getElem?_eq_some_iff.mp hi
        rw [List.drop_eq_getElem_cons hlt, hget]
        exact List.mem_cons_self
      exact absurd (h.1 _ hmem) (Bool.eq_false_iff.mp hnone)
  | @nonPeriodic i e hstop hi =>
      simp only [Scheduler.Stops, hstop] at h
      refine ⟨?_, h.2.1.join e, h.2.2⟩
      show ∀ e' ∈ s.queue.nonPeriodicEvents_.take (i + 1), ¬ (s.queue.join e).Joinable e'
      intro e' hmem
      rw [Events.joinable_join]
      rintro ⟨hjoinable, hne⟩
      rw [List.take_add_one, hi, List.mem_append] at hmem
      rcases hmem with hmem | hmem
      · exact h.1 e' hmem hjoinable
      · exact hne (by simpa using hmem)
  | invoker hstop _ _ hloop =>
      simp only [Scheduler.Stops, hstop] at h
      exact ⟨h.1, Or.inr hloop⟩
  | noInvoker hstop hmain hnone =>
      simp only [Scheduler.Stops, hstop] at h
      rcases h.2 with hmain' | hinvoker
      · exact absurd hmain' (by simp [hmain])
      · exact absurd hinvoker hnone

/-- `stop` is called when it is ready, and nothing is scheduled or started while it is leaving. -/
def Scheduler.Orderly (s : Scheduler) : Action → Prop
  | .lock => s.Ready
  | .insert | .start => s.stop.leaving = false
  | _ => True

lemma LoopStep.stops {s s' : Scheduler} (hstep : LoopStep s s') (hinv : s.Inv) (h : s.Stops) :
    s'.Stops := by
  obtain ⟨hstop, hfree⟩ := hstep.exclusive hinv.exclusive
  obtain ⟨hmain, hinvoker, -⟩ := hstep.keeps
  refine h.leaving hfree hstop hstep.done ?_ ?_
  · rw [Scheduler.HasInvoker, Scheduler.HasInvoker, hmain, hinvoker]
    exact id
  · rw [hmain]
    exact Or.imp_right fun hidle => absurd hidle hstep.runs.1

/-- An event is changed, and its thread not joined or started. -/
lemma Scheduler.Stops.quiet {s : Scheduler} (h : s.Stops) {e : ℕ} {b : EventBody}
    (hquiet : Events.Quiet (s.queue.bodies e) b) :
    ({ s with queue := s.queue.set e b } : Scheduler).Stops := by
  cases hholds : s.stop.holds with
  | true => exact h.other hholds rfl rfl rfl (fun _ => Events.joinable_set hquiet) id
  | false => exact h.leaving hholds rfl (fun hdone => hdone.quiet hquiet) id id

lemma Scheduler.Stops.make {s : Scheduler} (h : s.Stops) (hinv : s.Inv) (period : Option ℤ)
    (time : ℤ) : ({ s with queue := s.queue.make period time } : Scheduler).Stops := by
  cases hholds : s.stop.holds with
  | true =>
      exact h.other hholds rfl rfl rfl (Events.joinable_make hinv.sound.made period time) id
  | false => exact h.leaving hholds rfl (fun hdone => hdone.make period time) id id

lemma Scheduler.Stops.start {s s' : Scheduler} (h : s.Stops) (hleaving : s.stop.leaving = false)
    (hqueue : s'.queue = s.queue) (hstop : s'.stop = s.stop)
    (hinvoker : s.HasInvoker → s'.HasInvoker) : s'.Stops := by
  cases hholds : s.stop.holds with
  | true =>
      exact h.other hholds hstop (by rw [hqueue]) (by rw [hqueue]) (by simp [hqueue]) hinvoker
  | false =>
      unfold Scheduler.Stops at h ⊢
      rw [hstop]
      cases hpc : s.stop <;> simp_all

theorem Step.stops {s s' : Scheduler} {action : Action} (hstep : Step s action s') (hinv : s.Inv)
    (horderly : s.Orderly action) (h : s.Stops) : s'.Stops := by
  cases hstep with
  | schedule period start now => exact h.make hinv period _
  | insert hloop hstop hi =>
      unfold Scheduler.Stops at h ⊢
      cases hpc : s.stop <;> simp_all [Scheduler.Orderly]
  | cancel e => exact h.quiet (Events.quiet_cancel _)
  | changePeriod e period hperiod => exact h.quiet (Events.quiet_changePeriod hperiod period)
  | startInvoker => exact h.start horderly rfl rfl fun _ => Or.inr rfl
  | startMain => exact h.start horderly rfl rfl id
  | loop hstep => exact hstep.stops hinv h
  | task hstep => exact h.quiet hstep.quiet
  | stop => trivial
  | destroy =>
      by_cases hstarted : s.started_ = true
      · simp only [Scheduler.Stops, if_pos hstarted]
      · simp only [Scheduler.Stops, if_neg hstarted]
  | lock => exact ⟨horderly.queued, horderly.owned, horderly.invoker⟩
  | stopping hstep => exact hstep.stops hinv h
  | join hstep => exact hstep.stops hinv h
  | «return» => trivial

/-! ## Afterwards -/

/-- While the loop does not run, nothing has been started. -/
def Scheduler.Rests (s : Scheduler) : Prop := s.loop = .idle → s.started_ = false

lemma Step.rests {s s' : Scheduler} {action : Action} (hstep : Step s action s') (h : s.Rests) :
    s'.Rests := by
  cases hstep with
  | startInvoker => exact fun hidle => absurd hidle (by simp)
  | startMain => exact fun hidle => absurd hidle (by simp)
  | loop hstep => exact hstep.runs.2
  | lock => exact fun _ => rfl
  | stopping hstep => cases hstep <;> exact h
  | join hstep => cases hstep <;> exact h
  | _ => exact h

/-- Nothing is left, and who might call `stop` again has no invoker thread to join. -/
structure Scheduler.Quiescent (s : Scheduler) : Prop where
  done : s.queue.Done
  rests : s.mainThread_ = true ∨ s.loop = .idle ∧ s.started_ = false ∧ s.stop = .idle

lemma Step.done {s s' : Scheduler} {action : Action} (hstep : Step s action s')
    (h : s.queue.Done) (hinsert : action ≠ .insert) : s'.queue.Done := by
  cases hstep with
  | schedule period start now => exact h.make period _
  | insert => exact absurd rfl hinsert
  | cancel e => exact h.quiet (Events.quiet_cancel _)
  | changePeriod e period hperiod => exact h.quiet (Events.quiet_changePeriod hperiod period)
  | loop hstep => exact hstep.done h
  | task hstep => exact h.quiet hstep.quiet
  | stopping hstep =>
      cases hstep with
      | cancel => exact h.quiet (Events.quiet_cancelNotify _)
      | clear => exact ⟨rfl, h.2⟩
      | _ => exact h
  | join hstep =>
      cases hstep with
      | event => exact h.join _
      | nonPeriodic => exact h.join _
      | _ => exact h
  | _ => exact h

/-- Nothing is joined again. -/
lemma Scheduler.Quiescent.not_join {s s' : Scheduler} (h : s.Quiescent) : ¬ JoinStep s s' := by
  obtain ⟨⟨hempty, hnone⟩, hrests⟩ := h
  intro hstep
  cases hstep with
  | event _ hi => exact absurd hi (by simp [hempty])
  | notJoinable _ hi => exact absurd hi (by simp [hempty])
  | @nonPeriodic i e _ _ hreturned =>
      exact hnone e (by rw [Events.Joinable, hreturned]; rfl)
  | invoker hstop hmain => simp_all
  | noInvoker hstop hmain => simp_all

lemma Step.mainThread {s s' : Scheduler} {action : Action} (hstep : Step s action s') :
    s'.mainThread_ = s.mainThread_ := by
  cases hstep with
  | loop hstep => exact hstep.keeps.1
  | stopping hstep => cases hstep <;> rfl
  | join hstep => cases hstep <;> rfl
  | _ => rfl

lemma Step.quiescent {s s' : Scheduler} {action : Action} (hstep : Step s action s')
    (h : s.Quiescent) (hinsert : action ≠ .insert) (hstart : action ≠ .start)
    (hstop : s.mainThread_ = true ∨ action ≠ .stop) : s'.Quiescent := by
  refine ⟨hstep.done h.done hinsert, ?_⟩
  rcases h.rests with hmain | ⟨hidle, hstarted, hidle'⟩
  · exact Or.inl (hstep.mainThread.trans hmain)
  · cases hstep with
    | loop hstep => exact absurd hidle hstep.runs.1
    | lock hstop => simp_all
    | stopping hstep => cases hstep <;> simp_all
    | join hstep => exact absurd hstep h.not_join
    | _ => simp_all

/-! ## Not ready -/

/-- `stop` is on its way to an entry of `events_` that has no thread to join. -/
def Scheduler.Stuck (s : Scheduler) (k : ℕ) : Prop :=
  s.stop = .failed ∨
    (∃ entry, s.queue.events_.entries[k]? = some entry ∧ ¬ s.queue.Joinable entry.2) ∧
      ((∃ i, s.stop = .cancel i) ∨ ∃ i, s.stop = .join i ∧ i ≤ k)

lemma Scheduler.Stuck.holds {s : Scheduler} {k : ℕ} (h : s.Stuck k) (hfailed : s.stop ≠ .failed) :
    s.stop.holds = true := by
  obtain ⟨-, ⟨i, hcancel⟩ | ⟨i, hjoin, -⟩⟩ := h.resolve_left hfailed
  · rw [hcancel]
    rfl
  · rw [hjoin]
    rfl

lemma Scheduler.Stuck.mono {s s' : Scheduler} {k : ℕ} (h : s.Stuck k) (hstop : s'.stop = s.stop)
    (hevents : s'.queue.events_ = s.queue.events_)
    (hjoinable : ∀ e, s'.queue.Joinable e → s.queue.Joinable e) : s'.Stuck k := by
  rw [Scheduler.Stuck, hstop, hevents]
  refine h.imp_right (And.imp_left ?_)
  rintro ⟨entry, hk, hnone⟩
  exact ⟨entry, hk, fun hnow => hnone (hjoinable _ hnow)⟩

lemma StopStep.stuck {s s' : Scheduler} {k : ℕ} (hstep : StopStep s s') (h : s.Stuck k) :
    s'.Stuck k := by
  have hfailed : s.stop ≠ .failed := fun hfailed => by cases hstep <;> simp_all
  obtain ⟨⟨entry, hk, hnone⟩, hpc⟩ := h.resolve_left hfailed
  cases hstep with
  | cancel =>
      refine Or.inr ⟨⟨entry, hk, fun hnow => hnone ?_⟩, Or.inl ⟨_, rfl⟩⟩
      exact (Events.joinable_set (Events.quiet_cancelNotify _)).mp hnow
  | canceled => exact Or.inr ⟨⟨entry, hk, hnone⟩, Or.inr ⟨0, rfl, Nat.zero_le k⟩⟩
  | @joined i hstop hend =>
      obtain ⟨i', hcancel⟩ | ⟨i', hjoin, hle⟩ := hpc
      · exact absurd (hstop.symm.trans hcancel) (by simp)
      · obtain rfl : i = i' := by simpa using hstop.symm.trans hjoin
        have hshort := (List.getElem?_eq_none_iff.mp hend).trans hle
        exact absurd (hk.symm.trans (List.getElem?_eq_none_iff.mpr hshort)) (by simp)
  | skip hstop => simp_all
  | clear hstop => simp_all
  | main hstop => simp_all

lemma JoinStep.stuck {s s' : Scheduler} {k : ℕ} (hstep : JoinStep s s') (h : s.Stuck k) :
    s'.Stuck k := by
  have hfailed : s.stop ≠ .failed := fun hfailed => by cases hstep <;> simp_all
  obtain ⟨⟨entry, hk, hnone⟩, hpc⟩ := h.resolve_left hfailed
  cases hstep with
  | @event i time e hstop hi hreturned =>
      obtain ⟨i', hcancel⟩ | ⟨i', hjoin, hle⟩ := hpc
      · exact absurd (hstop.symm.trans hcancel) (by simp)
      · obtain rfl : i = i' := by simpa using hstop.symm.trans hjoin
        have hne : i ≠ k := by
          rintro rfl
          obtain rfl : entry = (time, e) := Option.some.inj (hk.symm.trans hi)
          exact hnone (by rw [Events.Joinable, hreturned]; rfl)
        refine Or.inr ⟨⟨entry, hk, fun hnow => hnone ?_⟩, Or.inr ⟨i + 1, rfl, by omega⟩⟩
        exact (Events.joinable_join.mp hnow).1
  | notJoinable => exact Or.inl rfl
  | nonPeriodic hstop => simp_all
  | invoker hstop => simp_all
  | noInvoker hstop => simp_all

lemma Step.stuck {s s' : Scheduler} {action : Action} {k : ℕ} (hstep : Step s action s')
    (hinv : s.Inv) (h : s.Stuck k) : s'.Stuck k := by
  cases hstep with
  | schedule period start now =>
      exact h.mono rfl rfl fun e he => (Events.joinable_make hinv.sound.made ..).mp he
  | insert hloop hstop =>
      by_cases hfailed : s.stop = .failed
      · exact Or.inl hfailed
      · exact absurd (h.holds hfailed) (Bool.eq_false_iff.mp hstop)
  | cancel e =>
      exact h.mono rfl rfl fun e he => (Events.joinable_set (Events.quiet_cancel _)).mp he
  | changePeriod e period hperiod =>
      exact h.mono rfl rfl fun e he =>
        (Events.joinable_set (Events.quiet_changePeriod hperiod period)).mp he
  | startInvoker => exact h.mono rfl rfl fun _ he => he
  | startMain => exact h.mono rfl rfl fun _ he => he
  | loop hstep =>
      obtain ⟨hstop, hfree⟩ := hstep.exclusive hinv.exclusive
      by_cases hfailed : s.stop = .failed
      · exact Or.inl (hstop.trans hfailed)
      · exact absurd (h.holds hfailed) (Bool.eq_false_iff.mp hfree)
  | task hstep => exact h.mono rfl rfl fun e he => (Events.joinable_set hstep.quiet).mp he
  | stop hstop => simp_all [Scheduler.Stuck]
  | destroy hstop => simp_all [Scheduler.Stuck]
  | lock hstop => simp_all [Scheduler.Stuck]
  | stopping hstep => exact hstep.stuck h
  | join hstep => exact hstep.stuck h
  | «return» hstop => simp_all [Scheduler.Stuck]

/-- Nobody has the event whose thread is still to be joined. -/
def Events.Lost (q : Events) (e : ℕ) : Prop := q.Joinable e ∧ ¬ q.Has e

namespace Events

variable {q q' : Events} {e : ℕ}

lemma Lost.mono (h : q.Lost e) (hjoinable : q'.Joinable e ↔ q.Joinable e)
    (hhas : q'.Has e → q.Has e) : q'.Lost e :=
  ⟨hjoinable.mpr h.1, fun hnow => h.2 (hhas hnow)⟩

lemma Lost.quiet (h : q.Lost e) {e' : ℕ} {b : EventBody} (hquiet : Quiet (q.bodies e') b) :
    (q.set e' b).Lost e := h.mono (joinable_set hquiet) id

/-- What is done to an event that somebody has is not done to this one. -/
lemma Lost.set (h : q.Lost e) {e' : ℕ} (hhas : q.Has e') (b : EventBody) : (q.set e' b).Lost e := by
  have hne : e ≠ e' := by
    rintro rfl
    exact h.2 hhas
  exact h.mono (joinable_set_of_ne hne) id

lemma has_eraseBegin (q : Events) {e : ℕ} (h : q.eraseBegin.Has e) : q.Has e := by
  refine h.imp_left fun hqueued => ?_
  rw [queued, Events.eraseBegin, Multimap.entries_eraseBegin] at hqueued
  exact ((List.tail_sublist _).map Prod.snd).subset hqueued

lemma Lost.setAside (h : q.Lost e) {time : ℤ} {e' : ℕ}
    (hbegin : q.events_.begin? = some (time, e')) : (q.setAside e').Lost e := by
  refine h.mono Iff.rfl ?_
  rintro (hqueued | hnonPeriodic)
  · exact q.has_eraseBegin (Or.inl hqueued)
  · rcases List.mem_append.mp hnonPeriodic with hmem | hmem
    · exact Or.inr hmem
    · rw [List.mem_singleton.mp hmem]
      exact Or.inl (mem_queued_of_begin? hbegin)

lemma Lost.remove (h : q.Lost e) (i : ℕ) : (q.remove i).Lost e :=
  h.mono Iff.rfl fun hnow => hnow.imp_right fun hmem => (List.eraseIdx_sublist _ i).subset hmem

lemma Lost.reschedule (h : q.Lost e) {time : ℤ} {e' : ℕ}
    (hbegin : q.events_.begin? = some (time, e')) (time' : ℤ) : (q.reschedule time' e').Lost e :=
  h.mono Iff.rfl fun hnow => hnow.imp_left (queued_reschedule hbegin time').mem_iff.mp

end Events

lemma LoopStep.lost {s s' : Scheduler} {e : ℕ} (hstep : LoopStep s s') (h : s.queue.Lost e) :
    s'.queue.Lost e := by
  cases hstep with
  | join _ hi => exact h.set (Or.inr (List.mem_of_getElem? hi)) _
  | removeCanceled => exact h.remove _
  | removeDone => exact h.remove _
  | notify => exact h.quiet (Events.quiet_notify _)
  | missed _ hbegin => exact h.reschedule hbegin _
  | setAside _ hbegin => exact h.setAside hbegin
  | start _ hbegin => exact h.set (Or.inl (Events.mem_queued_of_begin? hbegin)) _
  | reschedule _ hbegin => exact h.reschedule hbegin _
  | erase => exact h.mono Iff.rfl s.queue.has_eraseBegin
  | startSingle _ hbegin => exact (h.setAside hbegin).set (Or.inr (by simp [Events.setAside])) _
  | eraseSingle => exact h.mono Iff.rfl s.queue.has_eraseBegin
  | _ => exact h

lemma Step.lost {s s' : Scheduler} {action : Action} {e : ℕ} (hstep : Step s action s')
    (hinv : s.Inv) (h : s.queue.Lost e) (hinsert : action ≠ .insert) : s'.queue.Lost e := by
  cases hstep with
  | schedule period start now =>
      exact h.mono (Events.joinable_make hinv.sound.made period _ e) id
  | insert => exact absurd rfl hinsert
  | cancel e' => exact h.quiet (Events.quiet_cancel _)
  | changePeriod e' period hperiod => exact h.quiet (Events.quiet_changePeriod hperiod period)
  | loop hstep => exact hstep.lost h
  | task hstep => exact h.quiet hstep.quiet
  | stopping hstep =>
      cases hstep with
      | cancel => exact h.quiet (Events.quiet_cancelNotify _)
      | clear => exact h.mono Iff.rfl fun hnow => Or.inr (hnow.resolve_left List.not_mem_nil)
      | _ => exact h
  | join hstep =>
      cases hstep with
      | event _ hi =>
          exact h.set (Or.inl (List.mem_map.mpr ⟨_, List.mem_of_getElem? hi, rfl⟩)) _
      | nonPeriodic _ hi => exact h.set (Or.inr (List.mem_of_getElem? hi)) _
      | _ => exact h
  | _ => exact h

/-- `stop` is on its way to an invoker thread that is not there. -/
def Scheduler.Alone (s : Scheduler) : Prop :=
  ¬ s.HasInvoker ∧ (s.stop.holds = true ∨ s.stop = .joinInvoker ∨ s.stop = .failed)

lemma Step.alone {s s' : Scheduler} {action : Action} (hstep : Step s action s') (h : s.Alone)
    (hstart : action ≠ .start) : s'.Alone := by
  obtain ⟨hnone, hpc⟩ := h
  cases hstep with
  | loop hstep =>
      obtain ⟨hmain, hinvoker, hstop⟩ := hstep.keeps
      rw [Scheduler.Alone, Scheduler.HasInvoker, hmain, hinvoker, hstop]
      exact ⟨hnone, hpc⟩
  | startInvoker => exact absurd rfl hstart
  | startMain => exact absurd rfl hstart
  | stop hstop => simp [hstop] at hpc
  | destroy hstop => simp [hstop] at hpc
  | lock hstop => simp [hstop] at hpc
  | stopping hstep =>
      refine ⟨?_, ?_⟩
      · cases hstep <;> exact hnone
      · cases hstep with
        | main hstop hmain => exact absurd (Or.inl hmain) hnone
        | clear => exact Or.inr (Or.inl rfl)
        | _ => exact Or.inl rfl
  | join hstep =>
      cases hstep with
      | event => exact ⟨hnone, Or.inl rfl⟩
      | notJoinable => exact ⟨hnone, Or.inr (Or.inr rfl)⟩
      | nonPeriodic => exact ⟨hnone, Or.inl rfl⟩
      | invoker _ _ hinvoker => exact absurd (Or.inr hinvoker) hnone
      | noInvoker => exact ⟨hnone, Or.inr (Or.inr rfl)⟩
  | «return» hstop => simp [hstop] at hpc
  | _ => exact ⟨hnone, hpc⟩

/-- A `stop` that was not ready does not return with every thread joined. -/
lemma Scheduler.not_done_of_not_ready {s s₁ s₂ s₃ : Scheduler} {actions : List Action}
    (hinv : s.Inv) (hready : ¬ s.Ready) (hlock : Step s .lock s₁)
    (hrun : Transition.Run Step s₁ actions s₂) (hinsert : .insert ∉ actions)
    (hstart : .start ∉ actions) (hreturn : Step s₂ .return s₃) : ¬ s₃.queue.Done := by
  have hinv₁ := hlock.inv hinv
  obtain ⟨hqueue, hcancel⟩ : s₁.queue = s.queue ∧ s₁.stop = .cancel 0 := by
    cases hlock
    exact ⟨rfl, rfl⟩
  obtain ⟨hleave, hqueue'⟩ : s₂.stop = .leave ∧ s₃.queue = s₂.queue := by
    cases hreturn with
    | «return» hstop => exact ⟨hstop, rfl⟩
  have hother : ∀ action ∈ actions, action ≠ .insert ∧ action ≠ .start := fun action hmem =>
    ⟨ne_of_mem_of_not_mem hmem hinsert, ne_of_mem_of_not_mem hmem hstart⟩
  by_cases howned : s.queue.Owned
  · by_cases hinvoker : s.HasInvoker
    · have hqueued : ∃ e ∈ s.queue.queued, ¬ s.queue.Joinable e := by
        by_contra hall
        push Not at hall
        exact hready ⟨hall, howned, hinvoker⟩
      obtain ⟨e, hmem, hnone⟩ := hqueued
      obtain ⟨entry, hentry, rfl⟩ := List.mem_map.mp hmem
      obtain ⟨k, hk⟩ := List.getElem?_of_mem hentry
      have hstuck : s₁.Stuck k := by
        rw [Scheduler.Stuck, hqueue]
        exact Or.inr ⟨⟨entry, hk, hnone⟩, Or.inl ⟨0, hcancel⟩⟩
      have hstuck' := hrun.invariant (I := fun s => s.Inv ∧ s.Stuck k) ⟨hinv₁, hstuck⟩
        fun _ _ _ h hstep => ⟨hstep.inv h.1, hstep.stuck h.1 h.2⟩
      simp [Scheduler.Stuck, hleave] at hstuck'
    · have halone : s₁.Alone := by
        refine ⟨?_, Or.inl (by rw [hcancel]; rfl)⟩
        cases hlock
        exact hinvoker
      have halone' := hrun.invariant_of (I := Scheduler.Alone) hother halone
        fun _ _ _ hother h hstep => hstep.alone h hother.2
      simp [Scheduler.Alone, hleave] at halone'
  · obtain ⟨e, hlost⟩ : ∃ e, s₁.queue.Lost e := by
      rw [hqueue]
      simpa [Events.Owned, Events.Lost] using howned
    have hlost' := hrun.invariant_of (I := fun s => s.Inv ∧ s.queue.Lost e) hother ⟨hinv₁, hlost⟩
      fun _ _ _ hother h hstep => ⟨hstep.inv h.1, hstep.lost h.1 h.2 hother.1⟩
    rw [hqueue']
    exact fun hdone => hdone.2 e hlost'.2.1

/-- Afterwards nothing is joined again. -/
lemma Scheduler.Quiescent.run {s s' : Scheduler} {actions : List Action} (h : s.Quiescent)
    (hrun : Transition.Run Step s actions s') (hinsert : .insert ∉ actions)
    (hstart : .start ∉ actions) (hstop : s.mainThread_ = true ∨ .stop ∉ actions) :
    .join ∉ actions := by
  have hquiescent : s'.Quiescent ∧ s'.mainThread_ = s.mainThread_ ∧ .join ∉ actions := by
    induction hrun with
    | nil => exact ⟨h, rfl, List.not_mem_nil⟩
    | @snoc actions s' s'' action _ hlast ih =>
        simp only [List.mem_append, List.mem_singleton, not_or] at hinsert hstart hstop
        obtain ⟨hbefore, hmain, hjoin⟩ := ih hinsert.1 hstart.1 (hstop.imp_right And.left)
        refine ⟨hlast.quiescent hbefore (Ne.symm hinsert.2) (Ne.symm hstart.2) ?_,
          hlast.mainThread.trans hmain, ?_⟩
        · rw [hmain]
          exact hstop.imp_right fun hstop => Ne.symm hstop.2
        · simp only [List.mem_append, List.mem_singleton, not_or]
          refine ⟨hjoin, ?_⟩
          rintro rfl
          cases hlast with
          | join hstep => exact hbefore.not_join hstep
  exact hquiescent.2.2

/-- A step of a run in which every `stop` is ready and is left alone. -/
def StepOrderly (s : Scheduler) (action : Action) (s' : Scheduler) : Prop :=
  Step s action s' ∧ s.Orderly action

/-- **A `stop` that is ready** joins every thread there is, and nothing that is not there; it leaves
nothing to be joined by the destructor or, in the main thread, by another `stop`.  One that is not
ready does not return with every thread joined. -/
theorem stop_joins_all_iff_ready (mainThread : Bool) {actions : List Action} {s : Scheduler}
    (hrun : Transition.Run StepOrderly { mainThread_ := mainThread } actions s) :
    s.stop ≠ .failed ∧
    (∀ s', Step s .return s' → s'.queue.Done ∧
      ∀ actions' s'', Transition.Run Step s' actions' s'' →
        .insert ∉ actions' → .start ∉ actions' → (mainThread = true ∨ .stop ∉ actions') →
        .join ∉ actions') ∧
    (¬ s.Ready → ∀ s₁ actions' s₂ s₃, Step s .lock s₁ → Transition.Run Step s₁ actions' s₂ →
      .insert ∉ actions' → .start ∉ actions' → Step s₂ .return s₃ → ¬ s₃.queue.Done) := by
  have hkept : s.Inv ∧ s.Stops ∧ s.Rests ∧ s.mainThread_ = mainThread :=
    hrun.invariant (I := fun s => s.Inv ∧ s.Stops ∧ s.Rests ∧ s.mainThread_ = mainThread)
      ⟨Scheduler.Inv.initial mainThread, trivial, fun _ => rfl, rfl⟩
      fun _ _ _ ⟨hinv, hstops, hrests, hmain⟩ ⟨hstep, horderly⟩ =>
        ⟨hstep.inv hinv, hstep.stops hinv horderly hstops, hstep.rests hrests,
          hstep.mainThread.trans hmain⟩
  obtain ⟨hinv, hstops, hrests, hmain⟩ := hkept
  refine ⟨?_, ?_, ?_⟩
  · intro hfailed
    simp only [Scheduler.Stops, hfailed] at hstops
  · intro s' hreturn
    obtain ⟨hleave, rfl⟩ : s.stop = .leave ∧ s' = { s with stop := .idle } := by
      cases hreturn with
      | «return» hstop => exact ⟨hstop, rfl⟩
    simp only [Scheduler.Stops, hleave] at hstops
    obtain ⟨hdone, hidle⟩ := hstops
    have hquiescent : ({ s with stop := .idle } : Scheduler).Quiescent :=
      ⟨hdone, hidle.imp_right fun hidle => ⟨hidle, hrests hidle, rfl⟩⟩
    refine ⟨hdone, ?_⟩
    intro actions' s'' hrun' hinsert hstart hstop
    exact hquiescent.run hrun' hinsert hstart (hstop.imp_left hmain.trans)
  · intro hready s₁ actions' s₂ s₃ hlock hrun' hinsert hstart hreturn
    exact Scheduler.not_done_of_not_ready hinv hready hlock hrun' hinsert hstart hreturn

/-- A periodic event whose thread waits for its next time. -/
def waiting : Scheduler where
  queue := {
    bodies := Function.update (fun _ => {}) 0
      { period := some 5, isStarted := true, periodicThread := .running .wait }
    next := 1
    events_ := ({} : Multimap ℤ ℕ).insert 5 0 }
  started_ := true
  mainThread_ := true
  loop := .waitUntil

lemma run_waiting : ∃ actions,
    Transition.Run StepOrderly { mainThread_ := true } actions waiting := by
  have hrun := ((((((((((((((((@Transition.Run.nil _ _ StepOrderly { mainThread_ := true }).snoc
    ⟨.schedule (some 5) 0 0, trivial⟩).snoc
    ⟨.insert rfl rfl (i := 0) rfl, rfl⟩).snoc
    ⟨.startMain rfl rfl, rfl⟩).snoc
    ⟨.loop (.lock 0 rfl rfl), trivial⟩).snoc
    ⟨.loop (.due 0 rfl rfl (by decide)), trivial⟩).snoc
    ⟨.loop (.periodic rfl rfl (by decide) rfl), trivial⟩).snoc
    ⟨.loop (.notStarted rfl rfl rfl), trivial⟩).snoc
    ⟨.loop (.start rfl rfl rfl rfl), trivial⟩).snoc
    ⟨.loop (.reschedule rfl rfl rfl rfl), trivial⟩).snoc
    ⟨.loop (.drained rfl fun entry hentry => (Option.some.inj hentry) ▸ by decide), trivial⟩).snoc
    ⟨.loop (.goRound rfl rfl), trivial⟩).snoc
    ⟨.loop (.early 0 rfl rfl (by decide)), trivial⟩).snoc
    ⟨.loop (.cleaned rfl rfl), trivial⟩).snoc
    ⟨.task (e := 0) (.lock rfl), trivial⟩).snoc
    ⟨.task (e := 0) (.proceed rfl rfl), trivial⟩).snoc
    ⟨.task (e := 0) (.wait rfl), trivial⟩
  have hlast : ∀ {actions s}, Transition.Run StepOrderly { mainThread_ := true } actions s →
      s.queue.bodies = waiting.queue.bodies →
      { s with queue := { s.queue with bodies := waiting.queue.bodies } } = waiting →
      ∃ actions, Transition.Run StepOrderly { mainThread_ := true } actions waiting := by
    intro actions s hrun hbodies hrest
    rw [← hbodies] at hrest
    exact ⟨actions, hrest ▸ hrun⟩
  refine hlast hrun ?_ rfl
  funext e
  simp [waiting, Events.set, Events.insert, Events.make, Events.reschedule]

lemma ready_waiting : waiting.Ready := by
  refine ⟨?_, ?_, Or.inl rfl⟩
  · intro e hmem
    obtain rfl : e = 0 := List.mem_singleton.mp hmem
    rfl
  · intro e hjoinable
    by_cases hne : e = 0
    · exact Or.inl (List.mem_singleton.mpr hne)
    · simp [waiting, Events.Joinable, Function.update_of_ne hne] at hjoinable

theorem stop_joins_all_waiting : ∃ actions s s',
    Transition.Run StepOrderly { mainThread_ := true } actions s ∧ .join ∈ actions ∧
    Step s .return s' ∧ s'.queue.Done := by
  obtain ⟨actions, hrun⟩ := run_waiting
  have hstop := ((((((((((hrun.snoc
    ⟨.stop rfl, trivial⟩).snoc
    ⟨.lock rfl rfl, ⟨ready_waiting.queued, ready_waiting.owned, ready_waiting.invoker⟩⟩).snoc
    ⟨.stopping (.cancel rfl rfl rfl), trivial⟩).snoc
    ⟨.task (e := 0) (.lock rfl), trivial⟩).snoc
    ⟨.task (e := 0) (.canceled rfl rfl), trivial⟩).snoc
    ⟨.task (e := 0) (.leave rfl), trivial⟩).snoc
    ⟨.stopping (.canceled rfl rfl), trivial⟩).snoc
    ⟨.join (.event rfl rfl rfl), trivial⟩).snoc
    ⟨.stopping (.joined rfl rfl), trivial⟩).snoc
    ⟨.stopping (.clear rfl rfl), trivial⟩).snoc
    ⟨.stopping (.main rfl rfl), trivial⟩
  obtain ⟨actions', s, hjoin, hleave, hrun'⟩ : ∃ actions' s, .join ∈ actions' ∧ s.stop = .leave ∧
      Transition.Run StepOrderly { mainThread_ := true } actions' s :=
    ⟨_, _, by simp, rfl, hstop⟩
  have hreturn : Step s .return { s with stop := .idle } := .return hleave
  exact ⟨actions', s, _, hrun', hjoin, hreturn,
    ((stop_joins_all_iff_ready true hrun').2.1 _ hreturn).1⟩

/-- An event that is not due has no thread to join. -/
theorem stop_fails : ¬ ∀ mainThread actions s,
    Transition.Run Step { mainThread_ := mainThread } actions s →
    s.stop ≠ .failed ∧
    ∀ s', Step s .return s' → s'.queue.Done ∧
      ∀ actions' s'', Transition.Run Step s' actions' s'' →
        .insert ∉ actions' → .start ∉ actions' → .join ∉ actions' := by
  intro hjoins
  have hrun := (((((((((((@Transition.Run.nil _ _ Step { mainThread_ := true }).snoc
    (.schedule none 10 0)).snoc
    (.insert rfl rfl (i := 0) rfl)).snoc
    (.startMain rfl rfl)).snoc
    (.loop (.lock 0 rfl rfl))).snoc
    (.loop (.early 0 rfl rfl (by decide)))).snoc
    (.loop (.cleaned rfl rfl))).snoc
    (.stop rfl)).snoc
    (.lock rfl rfl)).snoc
    (.stopping (.cancel rfl rfl rfl))).snoc
    (.stopping (.canceled rfl rfl))).snoc
    (.join (.notJoinable rfl rfl rfl))
  exact (hjoins true _ _ hrun).1 rfl

end CpsCore.MultiThreadingScheduler

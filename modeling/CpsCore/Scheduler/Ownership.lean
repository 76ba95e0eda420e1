import Mathlib
import CpsCore.Scheduler.MultiThreadingScheduler

/-!
# Who has the threads

The thread of an event can be joined as long as the event is in `events_` or in
`nonPeriodicEvents_`.  The loop takes an event out of both while there is a thread to join in two
places (`Scheduler.LetsGo`), and nowhere else.

* `Events.Owned`: every thread that is still to be joined is that of an event in one of the two.
* `Events.Sound`: no event is anywhere twice.
* `Scheduler.Inv`: what every step keeps.
-/

namespace CpsCore.MultiThreadingScheduler

namespace Events

/-- The thread of the event has been started and not joined. -/
def Joinable (q : Events) (e : ℕ) : Prop := (q.bodies e).periodicThread.joinable = true

def queued (q : Events) : List ℕ := q.events_.entries.map Prod.snd

def Has (q : Events) (e : ℕ) : Prop := e ∈ q.queued ∨ e ∈ q.nonPeriodicEvents_

def Owned (q : Events) : Prop := ∀ e, q.Joinable e → q.Has e

/-- The events that have not been taken out of `events_`, those still to be inserted included. -/
def pending (q : Events) : List ℕ := q.scheduling.map Prod.snd ++ q.queued

structure Sound (q : Events) : Prop where
  nodup : (q.pending ++ q.nonPeriodicEvents_).Nodup
  fresh : ∀ e ∈ q.pending ++ q.nonPeriodicEvents_, e < q.next
  made : ∀ e, q.Joinable e → e < q.next
  single : ∀ e ∈ q.pending, (q.bodies e).period = none → ¬ q.Joinable e

variable {q q' : Events} {e : ℕ}

/-! ## Bodies -/

@[simp] lemma bodies_set_self (q : Events) (e : ℕ) (b : EventBody) : (q.set e b).bodies e = b :=
  Function.update_self ..

lemma bodies_set_of_ne {b : EventBody} {e' : ℕ} (hne : e' ≠ e) :
    (q.set e b).bodies e' = q.bodies e' := Function.update_of_ne hne ..

lemma joinable_set_of_ne {b : EventBody} {e' : ℕ} (hne : e' ≠ e) :
    (q.set e b).Joinable e' ↔ q.Joinable e' := by
  rw [Joinable, Joinable, bodies_set_of_ne hne]

lemma joinable_set_self {b : EventBody} :
    (q.set e b).Joinable e ↔ b.periodicThread.joinable = true := by
  rw [Joinable, bodies_set_self]

/-- A step of others that leaves the event what it is. -/
def Quiet (b b' : EventBody) : Prop :=
  b'.periodicThread.joinable = b.periodicThread.joinable ∧ b'.period.isSome = b.period.isSome

lemma joinable_set {b : EventBody} (h : Quiet (q.bodies e) b) {e' : ℕ} :
    (q.set e b).Joinable e' ↔ q.Joinable e' := by
  by_cases hne : e' = e
  · rw [hne, joinable_set_self, h.1, Joinable]
  · exact joinable_set_of_ne hne

lemma joinable_join {e' : ℕ} : (q.join e).Joinable e' ↔ q.Joinable e' ∧ e' ≠ e := by
  by_cases hne : e' = e
  · rw [hne, join, joinable_set_self]
    simp
  · rw [join, joinable_set_of_ne hne]
    simp [hne]

lemma joinable_make (h : ∀ e, q.Joinable e → e < q.next) (period : Option ℤ) (time : ℤ) (e : ℕ) :
    (q.make period time).Joinable e ↔ q.Joinable e := by
  by_cases hne : e = q.next
  · subst hne
    have hnew : ¬ (q.make period time).Joinable q.next := fun hjoinable =>
      absurd (joinable_set_self.mp hjoinable) Bool.false_ne_true
    exact iff_of_false hnew fun hjoinable => lt_irrefl _ (h _ hjoinable)
  · exact joinable_set_of_ne hne

lemma quiet_notify (b : EventBody) : Quiet b b.notify := by
  unfold Quiet EventBody.notify
  split
  case isTrue hwait => simp [hwait]
  case isFalse => exact ⟨rfl, rfl⟩

lemma quiet_cancel (b : EventBody) : Quiet b { b with isCanceled := true } := ⟨rfl, rfl⟩

/-- `stop` cancels and notifies. -/
lemma quiet_cancelNotify (b : EventBody) :
    Quiet b ({ b with isCanceled := true } : EventBody).notify :=
  quiet_notify { b with isCanceled := true }

lemma quiet_changePeriod {b : EventBody} (h : b.period.isSome) (period : ℤ) :
    Quiet b { b with period := some period } := ⟨rfl, h.symm⟩

end Events

lemma TaskStep.quiet {b b' : EventBody} (h : TaskStep b b') : Events.Quiet b b' := by
  cases h <;> simp_all [Events.Quiet]

namespace Events

variable {q q' : Events} {e : ℕ}

/-! ## Every operation keeps it sound -/

lemma sound_initial : ({} : Events).Sound where
  nodup := List.nodup_nil
  fresh _ hmem := absurd hmem List.not_mem_nil
  made _ hjoinable := absurd hjoinable Bool.false_ne_true
  single _ hmem := absurd hmem List.not_mem_nil

/-- Where events only move. -/
lemma Sound.move (h : q.Sound) (hbodies : q'.bodies = q.bodies) (hnext : q'.next = q.next)
    (hpending : q'.pending ⊆ q.pending)
    (hall : (q'.pending ++ q'.nonPeriodicEvents_).Subperm (q.pending ++ q.nonPeriodicEvents_)) :
    q'.Sound := by
  have hsame : ∀ e, q'.Joinable e ↔ q.Joinable e := fun e => by rw [Joinable, Joinable, hbodies]
  constructor
  · obtain ⟨_, hperm, hsublist⟩ := hall
    exact hperm.nodup_iff.mp (h.nodup.sublist hsublist)
  · intro e he
    rw [hnext]
    exact h.fresh e (hall.subset he)
  · intro e he
    rw [hnext]
    exact h.made e ((hsame e).mp he)
  · intro e he hperiod hjoinable
    exact h.single e (hpending he) (hbodies ▸ hperiod) ((hsame e).mp hjoinable)

lemma Sound.set (h : q.Sound) {b : EventBody}
    (hmade : b.periodicThread.joinable = true → e < q.next)
    (hsingle : e ∈ q.pending → b.period = none → b.periodicThread.joinable = false) :
    (q.set e b).Sound := by
  refine ⟨h.nodup, h.fresh, ?_, ?_⟩
  · intro e' hjoinable
    by_cases hne : e' = e
    · subst hne
      exact hmade (joinable_set_self.mp hjoinable)
    · exact h.made e' ((joinable_set_of_ne hne).mp hjoinable)
  · intro e' hmem hperiod hjoinable
    by_cases hne : e' = e
    · subst hne
      rw [bodies_set_self] at hperiod
      rw [joinable_set_self, hsingle hmem hperiod] at hjoinable
      exact Bool.false_ne_true hjoinable
    · rw [bodies_set_of_ne hne] at hperiod
      exact h.single e' hmem hperiod ((joinable_set_of_ne hne).mp hjoinable)

lemma Sound.quiet (h : q.Sound) {b : EventBody} (hquiet : Quiet (q.bodies e) b) :
    (q.set e b).Sound := by
  refine h.set ?_ ?_
  · intro hjoinable
    exact h.made e (hquiet.1.symm.trans hjoinable)
  · intro hmem hperiod
    have hold := h.single e hmem (by simpa [hperiod] using hquiet.2.symm)
    rw [hquiet.1]
    exact Bool.eq_false_iff.mpr hold

lemma Sound.join (h : q.Sound) (e : ℕ) : (q.join e).Sound :=
  h.set (fun hjoinable => absurd hjoinable Bool.false_ne_true) fun _ _ => rfl

lemma Sound.make (h : q.Sound) (period : Option ℤ) (time : ℤ) : (q.make period time).Sound := by
  have hnew : q.next ∉ q.pending ++ q.nonPeriodicEvents_ := fun hmem =>
    lt_irrefl _ (h.fresh _ hmem)
  have hset : (q.set q.next { period := period }).Sound :=
    h.set (fun hjoinable => absurd hjoinable Bool.false_ne_true) fun _ _ => rfl
  have hpending : (q.make period time).pending.Perm (q.next :: q.pending) := by
    rw [pending, pending, Events.make, List.map_append, List.append_assoc]
    exact List.perm_middle
  have hall : ((q.make period time).pending ++ q.nonPeriodicEvents_).Perm
      (q.next :: (q.pending ++ q.nonPeriodicEvents_)) := hpending.append_right _
  refine ⟨hall.nodup_iff.mpr (List.nodup_cons.mpr ⟨hnew, h.nodup⟩), ?_, ?_, ?_⟩
  · intro e he
    rcases List.mem_cons.mp (hall.mem_iff.mp he) with rfl | he
    · exact Nat.lt_succ_self _
    · exact Nat.lt_succ_of_lt (h.fresh e he)
  · intro e hjoinable
    exact Nat.lt_succ_of_lt (hset.made e hjoinable)
  · intro e he hperiod hjoinable
    rcases List.mem_cons.mp (hpending.mem_iff.mp he) with rfl | he
    · exact absurd (joinable_set_self.mp hjoinable) Bool.false_ne_true
    · exact hset.single e he hperiod hjoinable

/-- The first entry, and the others. -/
lemma queued_of_begin? {time : ℤ} (hbegin : q.events_.begin? = some (time, e)) :
    q.queued = e :: q.eraseBegin.queued := by
  rw [queued, Multimap.entries_of_begin? hbegin]
  rfl

lemma mem_queued_of_begin? {time : ℤ} (hbegin : q.events_.begin? = some (time, e)) :
    e ∈ q.queued := by
  rw [queued_of_begin? hbegin]
  exact List.mem_cons_self

lemma pending_perm {time : ℤ} (hbegin : q.events_.begin? = some (time, e)) :
    q.pending.Perm (e :: q.eraseBegin.pending) := by
  rw [pending, queued_of_begin? hbegin]
  exact List.perm_middle

lemma queued_insert (i : ℕ) (time : ℤ) (e : ℕ) :
    (q.insert i time e).queued.Perm (e :: q.queued) :=
  (q.events_.insert_perm time e).map Prod.snd

lemma queued_reschedule {time : ℤ} (hbegin : q.events_.begin? = some (time, e)) (time' : ℤ) :
    (q.reschedule time' e).queued.Perm q.queued :=
  Multimap.insert_eraseBegin_perm hbegin time'

lemma Sound.insert (h : q.Sound) {i : ℕ} {time : ℤ} (hi : q.scheduling[i]? = some (time, e)) :
    (q.insert i time e).Sound := by
  have hpending : (q.insert i time e).pending.Perm q.pending := by
    have hcaller : ((time, e) :: q.scheduling.eraseIdx i).Perm q.scheduling := by
      obtain ⟨hlt, hget⟩ := List.getElem?_eq_some_iff.mp hi
      rw [← hget]
      exact List.getElem_cons_eraseIdx_perm hlt
    have hcallers := (hcaller.map Prod.snd).append_right q.queued
    refine List.Perm.trans ?_ hcallers
    exact ((queued_insert i time e).append_left _).trans List.perm_middle
  exact h.move rfl rfl hpending.subset (hpending.append_right _).subperm

lemma Sound.eraseBegin (h : q.Sound) : q.eraseBegin.Sound := by
  have hqueued : q.eraseBegin.queued.Sublist q.queued := by
    rw [queued, Events.eraseBegin, Multimap.entries_eraseBegin]
    exact (List.tail_sublist _).map _
  have hpending := (List.Sublist.refl (q.scheduling.map Prod.snd)).append hqueued
  exact h.move rfl rfl hpending.subset (hpending.append (List.Sublist.refl _)).subperm

lemma Sound.reschedule (h : q.Sound) {time : ℤ} (hbegin : q.events_.begin? = some (time, e))
    (time' : ℤ) : (q.reschedule time' e).Sound := by
  have hpending := (queued_reschedule hbegin time').append_left (q.scheduling.map Prod.snd)
  exact h.move rfl rfl hpending.subset (hpending.append_right _).subperm

lemma Sound.setAside (h : q.Sound) {time : ℤ} (hbegin : q.events_.begin? = some (time, e)) :
    (q.setAside e).Sound := by
  have hpending := pending_perm hbegin
  refine h.move rfl rfl ?_ ?_
  · exact fun e' he' => hpending.mem_iff.mpr (List.mem_cons_of_mem _ he')
  · have hmoved : (q.eraseBegin.pending ++ (q.nonPeriodicEvents_ ++ [e])).Perm
        (e :: (q.eraseBegin.pending ++ q.nonPeriodicEvents_)) := by
      rw [← List.append_assoc]
      exact List.perm_append_singleton _ _
    exact (hmoved.trans (hpending.append_right _).symm).subperm

/-- The thread of an event without a period is started when the event has left `events_`. -/
lemma Sound.startSingle (h : q.Sound) {time : ℤ} (hbegin : q.events_.begin? = some (time, e))
    (b : EventBody) : ((q.set e b).setAside e).Sound := by
  have haside := h.setAside hbegin
  have hmem : e ∈ (q.setAside e).nonPeriodicEvents_ :=
    List.mem_append_right _ (List.mem_singleton_self e)
  show ((q.setAside e).set e b).Sound
  refine haside.set (fun _ => haside.fresh e (List.mem_append_right _ hmem)) ?_
  intro hpending
  exact absurd rfl ((List.nodup_append.mp haside.nodup).2.2 e hpending e hmem)

lemma Sound.remove (h : q.Sound) (i : ℕ) : (q.remove i).Sound :=
  h.move rfl rfl (List.Subset.refl _)
    ((List.Sublist.refl _).append (List.eraseIdx_sublist _ i)).subperm

lemma Sound.clear (h : q.Sound) : q.clear.Sound := by
  have hpending : q.clear.pending.Sublist q.pending :=
    (List.Sublist.refl _).append (List.nil_sublist _)
  exact h.move rfl rfl hpending.subset (hpending.append (List.Sublist.refl _)).subperm

/-! ## Every operation but two keeps the threads owned -/

lemma Owned.mono (h : q.Owned) (hjoinable : ∀ e, q'.Joinable e → q.Joinable e ∨ q'.Has e)
    (hhas : ∀ e, q'.Joinable e → q.Has e → q'.Has e) : q'.Owned := by
  intro e he
  rcases hjoinable e he with hold | hhas'
  · exact hhas e he (h e hold)
  · exact hhas'

lemma Owned.quiet (h : q.Owned) {b : EventBody} (hquiet : Quiet (q.bodies e) b) :
    (q.set e b).Owned :=
  h.mono (fun _ he => Or.inl ((joinable_set hquiet).mp he)) fun _ _ hhas => hhas

lemma Owned.set (h : q.Owned) {b : EventBody} (hhas : q.Has e) : (q.set e b).Owned := by
  refine h.mono ?_ fun _ _ hhas => hhas
  intro e' he'
  by_cases hne : e' = e
  · exact Or.inr (hne ▸ hhas)
  · exact Or.inl ((joinable_set_of_ne hne).mp he')

lemma Owned.join (h : q.Owned) (e : ℕ) : (q.join e).Owned :=
  h.mono (fun _ he' => Or.inl (joinable_join.mp he').1) fun _ _ hhas => hhas

lemma Owned.make (h : q.Owned) (hsound : q.Sound) (period : Option ℤ) (time : ℤ) :
    (q.make period time).Owned :=
  h.mono (fun e he => Or.inl ((joinable_make hsound.made period time e).mp he))
    fun _ _ hhas => hhas

lemma Owned.insert (h : q.Owned) (i : ℕ) (time : ℤ) (e : ℕ) : (q.insert i time e).Owned :=
  h.mono (fun _ he => Or.inl he) fun _ _ hhas =>
    hhas.imp_left fun hmem => (queued_insert i time e).mem_iff.mpr (List.mem_cons_of_mem _ hmem)

lemma Owned.reschedule (h : q.Owned) {time : ℤ} (hbegin : q.events_.begin? = some (time, e))
    (time' : ℤ) : (q.reschedule time' e).Owned :=
  h.mono (fun _ he => Or.inl he) fun _ _ hhas =>
    hhas.imp_left (queued_reschedule hbegin time').mem_iff.mpr

lemma Owned.setAside (h : q.Owned) {time : ℤ} (hbegin : q.events_.begin? = some (time, e)) :
    (q.setAside e).Owned := by
  refine h.mono (fun _ he => Or.inl he) ?_
  rintro e' - (hqueued | hnonPeriodic)
  · rw [queued_of_begin? hbegin] at hqueued
    rcases List.mem_cons.mp hqueued with rfl | hqueued
    · exact Or.inr (List.mem_append_right _ (List.mem_singleton_self _))
    · exact Or.inl hqueued
  · exact Or.inr (List.mem_append_left _ hnonPeriodic)

lemma Owned.clear (h : q.Owned) (hjoined : ∀ e ∈ q.queued, ¬ q.Joinable e) : q.clear.Owned :=
  h.mono (fun _ he => Or.inl he) fun e he hhas => hhas.elim (fun hmem => absurd he (hjoined e hmem))
    Or.inr

/-- The first entry is erased without being kept elsewhere. -/
lemma Owned.eraseBegin_iff (h : q.Owned) (hsound : q.Sound) {time : ℤ}
    (hbegin : q.events_.begin? = some (time, e)) : q.eraseBegin.Owned ↔ ¬ q.Joinable e := by
  constructor
  · intro howned hjoinable
    have hnodup := (((pending_perm hbegin).append_right _).nodup_iff.mp hsound.nodup)
    refine (List.nodup_cons.mp hnodup).1 ?_
    rcases howned e hjoinable with hqueued | hnonPeriodic
    · exact List.mem_append_left _ (List.mem_append_right _ hqueued)
    · exact List.mem_append_right _ hnonPeriodic
  · intro hjoined
    refine h.mono (fun _ he' => Or.inl he') ?_
    rintro e' he' (hqueued | hnonPeriodic)
    · rw [queued_of_begin? hbegin] at hqueued
      rcases List.mem_cons.mp hqueued with rfl | hqueued
      · exact absurd he' hjoined
      · exact Or.inl hqueued
    · exact Or.inr hnonPeriodic

lemma Owned.remove_iff (h : q.Owned) (hsound : q.Sound) {i : ℕ}
    (hi : q.nonPeriodicEvents_[i]? = some e) : (q.remove i).Owned ↔ ¬ q.Joinable e := by
  obtain ⟨hlt, hget⟩ := List.getElem?_eq_some_iff.mp hi
  have hmem : e ∈ q.nonPeriodicEvents_ := List.mem_of_getElem? hi
  have hnodup := hsound.nodup
  rw [List.nodup_append] at hnodup
  obtain ⟨-, hnonPeriodic, hdisjoint⟩ := hnodup
  have herased : ∀ e', e' ∈ q.nonPeriodicEvents_.eraseIdx i ↔
      e' ≠ e ∧ e' ∈ q.nonPeriodicEvents_ := by
    intro e'
    rw [← hnonPeriodic.erase_getElem i hlt, hget, hnonPeriodic.mem_erase_iff]
  constructor
  · intro howned hjoinable
    rcases howned e hjoinable with hqueued | hleft
    · exact hdisjoint e (List.mem_append_right _ hqueued) e hmem rfl
    · exact ((herased e).mp hleft).1 rfl
  · intro hjoined
    refine h.mono (fun _ he' => Or.inl he') ?_
    intro e' he' hhas
    refine hhas.imp_right fun hmem => (herased e').mpr ⟨?_, hmem⟩
    rintro rfl
    exact hjoined he'

end Events

/-! ## What every step keeps -/

/-- Whether the first entry, when the loop is at it, has been found to have a period. -/
@[simp] def LoopPc.found : LoopPc → Option Bool
  | .periodic _ | .tryLock _ | .notified _ | .start _ | .reschedule _ => some true
  | .single _ => some false
  | _ => none

namespace Scheduler

/-- What `stop` has joined so far. -/
def Joined (s : Scheduler) : Prop :=
  match s.stop with
  | .join i => ∀ entry ∈ s.queue.events_.entries.take i, ¬ s.queue.Joinable entry.2
  | .joinNonPeriodic _ => ∀ e ∈ s.queue.queued, ¬ s.queue.Joinable e
  | _ => True

structure Inv (s : Scheduler) : Prop where
  sound : s.queue.Sound
  exclusive : s.loop.holds = true → s.stop.holds = false
  found : ∀ periodic, s.loop.found = some periodic →
    ∃ time e, s.queue.events_.begin? = some (time, e) ∧
      (s.queue.bodies e).period.isSome = periodic
  joined : s.Joined

variable {s s' : Scheduler}

lemma Inv.initial (mainThread : Bool) : ({ mainThread_ := mainThread } : Scheduler).Inv :=
  ⟨Events.sound_initial, fun hholds => absurd hholds Bool.false_ne_true,
    fun _ hfound => absurd hfound (by simp), trivial⟩

lemma joined_of_not_holds (h : s.stop.holds = false) : s.Joined := by
  unfold Joined
  split
  case h_1 hstop => simp [hstop] at h
  case h_2 hstop => simp [hstop] at h
  case h_3 => trivial

lemma Joined.mono (h : s.Joined) (hstop : s'.stop = s.stop)
    (hevents : s'.queue.events_ = s.queue.events_)
    (hjoinable : ∀ e, s'.queue.Joinable e → s.queue.Joinable e) : s'.Joined := by
  unfold Joined at h ⊢
  rw [hstop]
  split
  case h_1 i hjoin =>
    rw [hjoin] at h
    intro entry hmem hnow
    exact h entry (hevents ▸ hmem) (hjoinable _ hnow)
  case h_2 i hjoin =>
    rw [hjoin] at h
    intro e hmem hnow
    rw [Events.queued, hevents] at hmem
    exact h e hmem (hjoinable _ hnow)
  case h_3 => trivial

/-- A step of somebody else, who starts no thread. -/
lemma Inv.other (h : s.Inv) (hloop : s'.loop = s.loop) (hstop : s'.stop = s.stop)
    (hevents : s'.queue.events_ = s.queue.events_) (hsound : s'.queue.Sound)
    (hperiod : ∀ e ∈ s.queue.queued,
      (s'.queue.bodies e).period.isSome = (s.queue.bodies e).period.isSome)
    (hjoinable : ∀ e, s'.queue.Joinable e → s.queue.Joinable e) : s'.Inv := by
  refine ⟨hsound, ?_, ?_, h.joined.mono hstop hevents hjoinable⟩
  · rw [hloop, hstop]
    exact h.exclusive
  · intro periodic hfound
    rw [hloop] at hfound
    obtain ⟨time, e, hbegin, hsome⟩ := h.found periodic hfound
    exact ⟨time, e, hevents ▸ hbegin,
      (hperiod e (Events.mem_queued_of_begin? hbegin)).trans hsome⟩

lemma Inv.make (h : s.Inv) (period : Option ℤ) (time : ℤ) :
    ({ s with queue := s.queue.make period time } : Scheduler).Inv := by
  refine h.other rfl rfl rfl (h.sound.make period time) ?_ ?_
  · intro e hmem
    have hlt := h.sound.fresh e (List.mem_append_left _ (List.mem_append_right _ hmem))
    show (Function.update s.queue.bodies s.queue.next _ e).period.isSome = _
    rw [Function.update_of_ne hlt.ne]
  · exact fun e hjoinable => (Events.joinable_make h.sound.made period time e).mp hjoinable

lemma Inv.quiet (h : s.Inv) {e : ℕ} {b : EventBody} (hquiet : Events.Quiet (s.queue.bodies e) b) :
    ({ s with queue := s.queue.set e b } : Scheduler).Inv := by
  refine h.other rfl rfl rfl (h.sound.quiet hquiet) ?_ ?_
  · intro e' _
    show ((s.queue.set e b).bodies e').period.isSome = _
    by_cases hne : e' = e
    · rw [hne, Events.bodies_set_self, hquiet.2]
    · rw [Events.bodies_set_of_ne hne]
  · exact fun e' hjoinable => (Events.joinable_set hquiet).mp hjoinable

end Scheduler

/-! ## The loop -/

/-- The loop is about to let go of an event whose thread is still to be joined: of one that has
been canceled since it was notified or started, or has been canceled or done since the clean-up
looked whether it was done. -/
def Scheduler.LetsGo (s : Scheduler) : Prop :=
  match s.loop with
  | .cleanCanceled i => ∃ e, s.queue.nonPeriodicEvents_[i]? = some e ∧
      (s.queue.bodies e).isCanceled = true ∧ s.queue.Joinable e
  | .cleanDone i => ∃ e, s.queue.nonPeriodicEvents_[i]? = some e ∧
      (s.queue.bodies e).isDone = true ∧ s.queue.Joinable e
  | .reschedule _ => ∃ time e, s.queue.events_.begin? = some (time, e) ∧
      (s.queue.bodies e).isCanceled = true ∧ s.queue.Joinable e
  | _ => False

/-- The loop takes its steps with the mutex. -/
lemma LoopStep.exclusive {s s' : Scheduler} (hstep : LoopStep s s')
    (h : s.loop.holds = true → s.stop.holds = false) :
    s'.stop = s.stop ∧ s.stop.holds = false := by
  cases hstep with
  | lock _ _ hstop => exact ⟨rfl, hstop⟩
  | waitedUntil _ _ hstop => exact ⟨rfl, hstop⟩
  | waited _ hstop => exact ⟨rfl, hstop⟩
  | _ => exact ⟨rfl, h (by simp [*])⟩

/-- The first entry is still the one that has been looked at. -/
lemma Scheduler.Inv.found_begin {s : Scheduler} (h : s.Inv) {periodic : Bool} {time : ℤ} {e : ℕ}
    (hfound : s.loop.found = some periodic) (hbegin : s.queue.events_.begin? = some (time, e)) :
    (s.queue.bodies e).period.isSome = periodic := by
  obtain ⟨time', e', hbegin', hsome⟩ := h.found periodic hfound
  obtain ⟨rfl, rfl⟩ : time = time' ∧ e = e' := by simpa using hbegin.symm.trans hbegin'
  exact hsome

lemma LoopStep.sound {s s' : Scheduler} (hstep : LoopStep s s') (h : s.Inv) : s'.queue.Sound := by
  cases hstep with
  | join => exact h.sound.join _
  | removeCanceled => exact h.sound.remove _
  | removeDone => exact h.sound.remove _
  | notify => exact h.sound.quiet (Events.quiet_notify _)
  | missed _ hbegin => exact h.sound.reschedule hbegin _
  | setAside _ hbegin => exact h.sound.setAside hbegin
  | reschedule _ hbegin => exact h.sound.reschedule hbegin _
  | erase => exact h.sound.eraseBegin
  | eraseSingle => exact h.sound.eraseBegin
  | @start now time e hpc hbegin =>
      have hsome := h.found_begin (by rw [hpc]; rfl) hbegin
      refine h.sound.set (fun _ => h.sound.fresh e ?_) ?_
      · exact List.mem_append_left _
          (List.mem_append_right _ (Events.mem_queued_of_begin? hbegin))
      · intro _ hperiod
        have hnone : (s.queue.bodies e).period = none := hperiod
        exact absurd hsome (by simp [hnone])
  | startSingle _ hbegin => exact h.sound.startSingle hbegin _
  | _ => exact h.sound

lemma LoopStep.inv {s s' : Scheduler} (hstep : LoopStep s s') (h : s.Inv) : s'.Inv := by
  obtain ⟨hstop, hfree⟩ := hstep.exclusive h.exclusive
  have hjoined : s'.Joined := Scheduler.joined_of_not_holds (hstop ▸ hfree)
  refine ⟨hstep.sound h, fun _ => hstop ▸ hfree, ?_, hjoined⟩
  intro periodic hfound
  cases hstep with
  | periodic _ hbegin _ hperiod => exact ⟨_, _, hbegin, hperiod.trans (by simpa using hfound)⟩
  | single _ hbegin _ hperiod => exact ⟨_, _, hbegin, by simpa [hperiod] using hfound⟩
  | started hpc => exact h.found periodic (by rw [hpc]; exact hfound)
  | notStarted hpc => exact h.found periodic (by rw [hpc]; exact hfound)
  | goOn hpc => exact h.found periodic (by rw [hpc]; exact hfound)
  | notToStart hpc => exact h.found periodic (by rw [hpc]; exact hfound)
  | @notify now time e hpc hbegin =>
      refine ⟨time, e, hbegin, ?_⟩
      show ((s.queue.set e _).bodies e).period.isSome = periodic
      rw [Events.bodies_set_self, (Events.quiet_notify _).2]
      exact h.found_begin (by rw [hpc]; exact hfound) hbegin
  | @start now time e hpc hbegin =>
      refine ⟨time, e, hbegin, ?_⟩
      show ((s.queue.set e _).bodies e).period.isSome = periodic
      rw [Events.bodies_set_self]
      exact h.found_begin (by rw [hpc]; exact hfound) hbegin
  | _ => exact absurd hfound (by simp)

/-- **The loop** keeps the threads owned, except where it lets go. -/
lemma LoopStep.owned_iff {s s' : Scheduler} (hstep : LoopStep s s') (h : s.Inv)
    (howned : s.queue.Owned) : s'.queue.Owned ↔ ¬ s.LetsGo := by
  cases hstep with
  -- Where it may let go.
  | removeCanceled hpc hi hcanceled =>
      refine (howned.remove_iff h.sound hi).trans (not_congr ?_)
      simp [Scheduler.LetsGo, hpc, hi, hcanceled]
  | notCanceled hpc hi hcanceled =>
      exact iff_of_true howned (by simp [Scheduler.LetsGo, hpc, hi, hcanceled])
  | removeDone hpc hi hdone =>
      refine (howned.remove_iff h.sound hi).trans (not_congr ?_)
      simp [Scheduler.LetsGo, hpc, hi, hdone]
  | keep hpc hi hdone => exact iff_of_true howned (by simp [Scheduler.LetsGo, hpc, hi, hdone])
  | erase hpc hbegin hcanceled =>
      refine (howned.eraseBegin_iff h.sound hbegin).trans (not_congr ?_)
      simp [Scheduler.LetsGo, hpc, hbegin, hcanceled]
  | reschedule hpc hbegin hcanceled =>
      exact iff_of_true (howned.reschedule hbegin _)
        (by simp [Scheduler.LetsGo, hpc, hbegin, hcanceled])
  -- Where it cannot.
  | join hpc => exact iff_of_true (howned.join _) (by simp [Scheduler.LetsGo, hpc])
  | notify hpc =>
      exact iff_of_true (howned.quiet (Events.quiet_notify _)) (by simp [Scheduler.LetsGo, hpc])
  | missed hpc hbegin =>
      exact iff_of_true (howned.reschedule hbegin _) (by simp [Scheduler.LetsGo, hpc])
  | setAside hpc hbegin =>
      exact iff_of_true (howned.setAside hbegin) (by simp [Scheduler.LetsGo, hpc])
  | start hpc hbegin =>
      exact iff_of_true (howned.set (Or.inl (Events.mem_queued_of_begin? hbegin)))
        (by simp [Scheduler.LetsGo, hpc])
  | @startSingle now time e hpc hbegin =>
      refine iff_of_true ?_ (by simp [Scheduler.LetsGo, hpc])
      show ((s.queue.setAside e).set e _).Owned
      exact (howned.setAside hbegin).set
        (Or.inr (List.mem_append_right _ (List.mem_singleton_self e)))
  | @eraseSingle now time e hpc hbegin =>
      refine iff_of_true ((howned.eraseBegin_iff h.sound hbegin).mpr ?_)
        (by simp [Scheduler.LetsGo, hpc])
      refine h.sound.single e (List.mem_append_right _ (Events.mem_queued_of_begin? hbegin)) ?_
      have hnone := h.found_begin (by rw [hpc]; rfl) hbegin
      rwa [Option.isSome_eq_false_iff, Option.isNone_iff_eq_none] at hnone
  | _ => exact iff_of_true howned (by simp [Scheduler.LetsGo, *])

/-! ## Stopping -/

lemma LoopPc.holds_of_found {pc : LoopPc} {periodic : Bool} (h : pc.found = some periodic) :
    pc.holds = true := by
  cases pc <;> simp_all

/-- A step of `stop`, which changes the events only as long as it has the mutex. -/
lemma Scheduler.Inv.stopping {s s' : Scheduler} (h : s.Inv) (hloop : s'.loop = s.loop)
    (hholds : s'.stop.holds = true → s.stop.holds = true)
    (hqueue : s.stop.holds = true ∨ s'.queue = s.queue) (hsound : s'.queue.Sound)
    (hjoined : s'.Joined) : s'.Inv := by
  refine ⟨hsound, ?_, ?_, hjoined⟩
  · intro hnow
    rw [hloop] at hnow
    exact Bool.eq_false_iff.mpr fun hstop =>
      Bool.eq_false_iff.mp (h.exclusive hnow) (hholds hstop)
  · intro periodic hfound
    rw [hloop] at hfound
    have hfree := h.exclusive (LoopPc.holds_of_found hfound)
    rw [hqueue.resolve_left (Bool.eq_false_iff.mp hfree)]
    exact h.found periodic hfound

lemma StopStep.inv {s s' : Scheduler} (hstep : StopStep s s') (h : s.Inv) : s'.Inv := by
  cases hstep with
  | cancel hstop =>
      exact h.stopping rfl (by simp [hstop]) (Or.inl (by simp [hstop]))
        (h.sound.quiet (Events.quiet_cancelNotify _)) trivial
  | canceled hstop =>
      refine h.stopping rfl (by simp [hstop]) (Or.inr rfl) h.sound ?_
      intro entry hmem
      exact absurd hmem List.not_mem_nil
  | joined hstop hend =>
      refine h.stopping rfl (by simp [hstop]) (Or.inr rfl) h.sound ?_
      have hjoined := h.joined
      simp only [Scheduler.Joined, hstop] at hjoined
      rw [List.take_of_length_le (List.getElem?_eq_none_iff.mp hend)] at hjoined
      intro e hmem
      obtain ⟨entry, hentry, rfl⟩ := List.mem_map.mp hmem
      exact hjoined entry hentry
  | skip hstop =>
      have hjoined := h.joined
      simp only [Scheduler.Joined, hstop] at hjoined
      exact h.stopping rfl (by simp [hstop]) (Or.inr rfl) h.sound hjoined
  | clear hstop =>
      exact h.stopping rfl (by simp) (Or.inl (by simp [hstop])) h.sound.clear trivial
  | main => exact h.stopping rfl (by simp) (Or.inr rfl) h.sound trivial

lemma JoinStep.inv {s s' : Scheduler} (hstep : JoinStep s s') (h : s.Inv) : s'.Inv := by
  have hjoined := h.joined
  cases hstep with
  | @event i time e hstop hi =>
      refine h.stopping rfl (by simp [hstop]) (Or.inl (by simp [hstop])) (h.sound.join e) ?_
      simp only [Scheduler.Joined, hstop] at hjoined
      show ∀ entry ∈ s.queue.events_.entries.take (i + 1), ¬ (s.queue.join e).Joinable entry.2
      intro entry hmem
      rw [Events.joinable_join]
      rintro ⟨hjoinable, hne⟩
      rw [List.take_add_one, hi, List.mem_append] at hmem
      rcases hmem with hmem | hmem
      · exact hjoined entry hmem hjoinable
      · obtain rfl : entry = (time, e) := by simpa using hmem
        exact hne rfl
  | notJoinable => exact h.stopping rfl (by simp) (Or.inr rfl) h.sound trivial
  | @nonPeriodic i e hstop hi =>
      refine h.stopping rfl (by simp [hstop]) (Or.inl (by simp [hstop])) (h.sound.join e) ?_
      simp only [Scheduler.Joined, hstop] at hjoined
      intro e' hmem hjoinable
      exact hjoined e' hmem (Events.joinable_join.mp hjoinable).1
  | invoker => exact h.stopping rfl (by simp) (Or.inr rfl) h.sound trivial
  | noInvoker => exact h.stopping rfl (by simp) (Or.inr rfl) h.sound trivial

lemma StopStep.owned {s s' : Scheduler} (hstep : StopStep s s') (h : s.Inv)
    (howned : s.queue.Owned) : s'.queue.Owned := by
  cases hstep with
  | cancel => exact howned.quiet (Events.quiet_cancelNotify _)
  | clear hstop =>
      have hjoined := h.joined
      simp only [Scheduler.Joined, hstop] at hjoined
      exact howned.clear hjoined
  | _ => exact howned

lemma JoinStep.owned {s s' : Scheduler} (hstep : JoinStep s s') (howned : s.queue.Owned) :
    s'.queue.Owned := by
  cases hstep with
  | event => exact howned.join _
  | nonPeriodic => exact howned.join _
  | _ => exact howned

/-! ## All together -/

lemma Scheduler.Inv.insert {s : Scheduler} (h : s.Inv) {i : ℕ} {time : ℤ} {e : ℕ}
    (hloop : s.loop.holds = false) (hstop : s.stop.holds = false)
    (hi : s.queue.scheduling[i]? = some (time, e)) :
    ({ s with queue := s.queue.insert i time e } : Scheduler).Inv := by
  refine ⟨h.sound.insert hi, h.exclusive, ?_, Scheduler.joined_of_not_holds hstop⟩
  intro periodic hfound
  exact absurd (LoopPc.holds_of_found hfound) (Bool.eq_false_iff.mp hloop)

theorem Step.inv {s s' : Scheduler} {action : Action} (hstep : Step s action s') (h : s.Inv) :
    s'.Inv := by
  have hidle : ∀ {s' : Scheduler}, s'.loop.holds = false → s'.queue = s.queue → s'.stop = s.stop →
      s'.Inv := by
    intro s' hloop hqueue hstop
    refine ⟨hqueue ▸ h.sound, fun hholds => absurd hholds (Bool.eq_false_iff.mp hloop), ?_,
      h.joined.mono hstop (by rw [hqueue]) (by simp [hqueue])⟩
    intro periodic hfound
    exact absurd (LoopPc.holds_of_found hfound) (Bool.eq_false_iff.mp hloop)
  cases hstep with
  | schedule period start now => exact h.make period _
  | insert hloop hstop hi => exact h.insert hloop hstop hi
  | cancel e => exact h.quiet (Events.quiet_cancel _)
  | changePeriod e period hperiod => exact h.quiet (Events.quiet_changePeriod hperiod period)
  | startInvoker => exact hidle rfl rfl rfl
  | startMain => exact hidle rfl rfl rfl
  | loop hstep => exact hstep.inv h
  | task hstep => exact h.quiet hstep.quiet
  | stop => exact h.stopping rfl (by simp) (Or.inr rfl) h.sound trivial
  | destroy =>
      have hfree : (if s.started_ = true then StopPc.lock else .idle).holds = false := by
        split <;> rfl
      exact h.stopping rfl (fun hholds => absurd hholds (Bool.eq_false_iff.mp hfree)) (Or.inr rfl)
        h.sound (Scheduler.joined_of_not_holds hfree)
  | lock hstop hloop =>
      refine ⟨h.sound, fun hholds => absurd hholds (Bool.eq_false_iff.mp hloop), ?_, trivial⟩
      intro periodic hfound
      exact absurd (LoopPc.holds_of_found hfound) (Bool.eq_false_iff.mp hloop)
  | stopping hstep => exact hstep.inv h
  | join hstep => exact hstep.inv h
  | «return» => exact h.stopping rfl (by simp) (Or.inr rfl) h.sound trivial

theorem Step.owned_iff {s s' : Scheduler} {action : Action} (hstep : Step s action s')
    (h : s.Inv) (howned : s.queue.Owned) :
    s'.queue.Owned ↔ ¬ (action = .loop ∧ s.LetsGo) := by
  have hkept : s'.queue.Owned → action ≠ .loop →
      (s'.queue.Owned ↔ ¬ (action = .loop ∧ s.LetsGo)) := fun howned' hother =>
    iff_of_true howned' fun hgoes => hother hgoes.1
  cases hstep with
  | loop hstep => simpa using hstep.owned_iff h howned
  | schedule period start now => exact hkept (howned.make h.sound period _) (by simp)
  | @insert i time e => exact hkept (howned.insert i time e) (by simp)
  | cancel e => exact hkept (howned.quiet (Events.quiet_cancel _)) (by simp)
  | changePeriod e period hperiod =>
      exact hkept (howned.quiet (Events.quiet_changePeriod hperiod period)) (by simp)
  | task hstep => exact hkept (howned.quiet hstep.quiet) (by simp)
  | stopping hstep => exact hkept (hstep.owned h howned) (by simp)
  | join hstep => exact hkept (hstep.owned howned) (by simp)
  | _ => exact hkept howned (by simp)

/-- A step of a run in which the loop does not let go. -/
def StepKeeping (s : Scheduler) (action : Action) (s' : Scheduler) : Prop :=
  Step s action s' ∧ ¬ (action = .loop ∧ s.LetsGo)

/-- **The threads are owned** in every state of a run in which the loop does not let go, and are
not after the first step at which it does. -/
theorem owned_until_let_go (mainThread : Bool) {actions : List Action} {s : Scheduler}
    (hrun : Transition.Run StepKeeping { mainThread_ := mainThread } actions s) :
    s.queue.Owned ∧ ∀ s', Step s .loop s' → s.LetsGo → ¬ s'.queue.Owned := by
  have hkept : s.Inv ∧ s.queue.Owned := by
    refine hrun.invariant (I := fun s => s.Inv ∧ s.queue.Owned)
      ⟨Scheduler.Inv.initial mainThread, ?_⟩ ?_
    · intro e hjoinable
      exact absurd hjoinable Bool.false_ne_true
    · rintro s action s' ⟨hinv, howned⟩ ⟨hstep, hkeeping⟩
      exact ⟨hstep.inv hinv, (hstep.owned_iff hinv howned).mpr hkeeping⟩
  refine ⟨hkept.2, ?_⟩
  intro s' hstep hgoes howned'
  exact (hstep.owned_iff hkept.1 hkept.2).mp howned' ⟨rfl, hgoes⟩

/-- A periodic event is started, and canceled before the loop looks whether to reschedule it. -/
lemma run_canceled : ∃ actions s, Transition.Run StepKeeping { mainThread_ := true } actions s ∧
    s.queue.Joinable 0 ∧ s.LetsGo ∧ ∃ s', Step s .loop s' ∧ s'.queue.Joinable 0 ∧
      s'.queue.queued = [] ∧ s'.queue.nonPeriodicEvents_ = [] := by
  have hrun := ((((((((@Transition.Run.nil _ _ StepKeeping { mainThread_ := true }).snoc
    ⟨.schedule (some 5) 0 0, fun h => h.2⟩).snoc
    ⟨.insert rfl rfl (i := 0) rfl, fun h => h.2⟩).snoc
    ⟨.startMain rfl rfl, fun h => h.2⟩).snoc
    ⟨.loop (.lock 0 rfl rfl), fun h => h.2⟩).snoc
    ⟨.loop (.due 0 rfl rfl (by decide)), fun h => h.2⟩).snoc
    ⟨.loop (.periodic rfl rfl (by decide) rfl), fun h => h.2⟩).snoc
    ⟨.loop (.notStarted rfl rfl rfl), fun h => h.2⟩).snoc
    ⟨.loop (.start rfl rfl rfl rfl), fun h => h.2⟩
  refine ⟨_, _, hrun.snoc ⟨.cancel 0 (by decide), fun h => Action.noConfusion h.1⟩, rfl,
    ⟨_, _, rfl, rfl, rfl⟩, _, .loop (.erase rfl rfl rfl), rfl, rfl, rfl⟩

theorem owned_until_canceled : ∃ actions s,
    Transition.Run StepKeeping { mainThread_ := true } actions s ∧ s.queue.Joinable 0 ∧
    s.queue.Owned ∧ ∃ s', Step s .loop s' ∧ ¬ s'.queue.Owned := by
  obtain ⟨actions, s, hrun, hjoinable, hgoes, s', hstep, -⟩ := run_canceled
  have howned := owned_until_let_go true hrun
  exact ⟨actions, s, hrun, hjoinable, howned.1, s', hstep, howned.2 s' hstep hgoes⟩

theorem owned_fails : ¬ ∀ mainThread actions s,
    Transition.Run Step { mainThread_ := mainThread } actions s → s.queue.Owned := by
  intro howned
  obtain ⟨actions, s, hrun, -, -, s', hstep, hjoinable, hqueued, hnonPeriodic⟩ := run_canceled
  have hlost := howned true _ s' ((hrun.mono fun _ _ _ h => h.1).snoc hstep) 0 hjoinable
  rw [Events.Has, hqueued, hnonPeriodic] at hlost
  simp at hlost

end CpsCore.MultiThreadingScheduler

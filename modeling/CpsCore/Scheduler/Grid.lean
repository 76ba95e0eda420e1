import Mathlib
import CpsCore.Scheduler.Trace

/-!
# The grid of a periodic event

A periodic event that is put back is put back a period later, whatever the clock shows, so that its
key is the one it was queued at first and a period for each time the loop has handled it.

* `Events.Recorded`: the entries of `events_` are among those recorded, with ties in the order of
  the record.
* `Scheduler.Counted`: each event in `events_` has been put there once more than it has been
  handled, unless the loop is at it.
* `Scheduler.Clocked`: the loop goes by what it has read.
-/

namespace CpsCore.MultiThreadingScheduler

open Multimap

/-! ## The order -/

/-- The entries of `events_` are the latest ones of `recorded`, in their order. -/
structure Events.Recorded (q : Events) (recorded : List (ℤ × ℕ)) : Prop where
  fresh : ∀ entry ∈ recorded, entry.2 < q.next ∧ entry.2 ∉ q.scheduling.map Prod.snd
  stable : ∀ time, (q.events_.entries.filter fun entry => entry.1 = time).Sublist
    (recorded.filter fun entry => entry.1 = time)
  latest : ∀ entry ∈ recorded, ∀ time, (time, entry.2) ∈ q.events_.entries → entry.1 ≤ time
  once : recorded.Nodup

namespace Events

variable {q q' : Events} {recorded : List (ℤ × ℕ)} {e : ℕ}

lemma recorded_initial : ({} : Events).Recorded [] where
  fresh _ hmem := absurd hmem List.not_mem_nil
  stable _ := List.Sublist.refl _
  latest _ hmem := absurd hmem List.not_mem_nil
  once := List.nodup_nil

/-- Entries may be taken away. -/
lemma Recorded.mono (h : q.Recorded recorded)
    (hentries : q'.events_.entries.Sublist q.events_.entries)
    (hscheduling : q'.scheduling = q.scheduling) (hnext : q'.next = q.next) :
    q'.Recorded recorded where
  fresh := by
    rw [hscheduling, hnext]
    exact h.fresh
  stable time := (hentries.filter _).trans (h.stable time)
  latest entry hmem time hentry := h.latest entry hmem time (hentries.subset hentry)
  once := h.once

lemma Recorded.make (h : q.Recorded recorded) (period : Option ℤ) (time : ℤ) :
    (q.make period time).Recorded recorded where
  fresh entry hmem := by
    obtain ⟨hlt, hnot⟩ := h.fresh entry hmem
    refine ⟨Nat.lt_succ_of_lt hlt, ?_⟩
    simp only [Events.make, List.map_append, List.mem_append, not_or]
    exact ⟨hnot, by simpa using hlt.ne⟩
  stable := h.stable
  latest := h.latest
  once := h.once

/-- An entry comes in that is later than all before of its event. -/
lemma Recorded.push (h : q.Recorded recorded) {time : ℤ} (hqueued : e ∉ q.queued)
    (hlater : ∀ entry ∈ recorded, entry.2 = e → entry.1 < time)
    (hevents : q'.events_ = q.events_.insert time e)
    (hscheduling : q'.scheduling.map Prod.snd ⊆ q.scheduling.map Prod.snd)
    (hnext : q'.next = q.next) (hfresh : e < q.next ∧ e ∉ q'.scheduling.map Prod.snd) :
    q'.Recorded (recorded ++ [(time, e)]) := by
  have hentries : q'.events_.entries = insertUpper (time, e) q.events_.entries := by
    rw [hevents]
    rfl
  have hmem : ∀ entry ∈ recorded ++ [(time, e)], entry ∈ recorded ∨ entry = (time, e) := by simp
  refine ⟨?_, ?_, ?_, ?_⟩
  · intro entry hentry
    rw [hnext]
    rcases hmem entry hentry with hold | rfl
    · exact ⟨(h.fresh entry hold).1, fun hin => (h.fresh entry hold).2 (hscheduling hin)⟩
    · exact hfresh
  · intro key
    rw [hentries, filter_insertUpper key _ q.events_.sorted, List.filter_append, List.filter_append]
    exact (h.stable key).append_right _
  · intro entry hentry key hkey
    rw [hentries, mem_insertUpper] at hkey
    rcases hmem entry hentry with hold | rfl
    · rcases hkey with hnew | hkey
      · obtain ⟨rfl, hsame⟩ := Prod.mk.inj hnew
        exact (hlater entry hold hsame).le
      · exact h.latest entry hold key hkey
    · rcases hkey with hnew | hkey
      · exact (Prod.mk.inj hnew).1.ge
      · exact absurd (List.mem_map_of_mem (f := Prod.snd) hkey) hqueued
  · refine List.nodup_append.mpr ⟨h.once, List.nodup_singleton _, ?_⟩
    rintro entry hold other hother rfl
    obtain rfl := List.mem_singleton.mp hother
    exact lt_irrefl _ (hlater _ hold rfl)

lemma mem_scheduling {i : ℕ} {time : ℤ} (hi : q.scheduling[i]? = some (time, e)) :
    e ∈ q.scheduling.map Prod.snd :=
  List.mem_map_of_mem (f := Prod.snd) (List.mem_of_getElem? hi)

/-- What is still to be inserted is not recorded. -/
lemma Recorded.not_recorded (h : q.Recorded recorded) {i : ℕ} {time : ℤ}
    (hi : q.scheduling[i]? = some (time, e)) : ∀ entry ∈ recorded, entry.2 ≠ e := by
  rintro entry hentry rfl
  exact (h.fresh entry hentry).2 (mem_scheduling hi)

lemma Sound.queued_nodup (h : q.Sound) : q.queued.Nodup :=
  (List.nodup_append.mp (List.nodup_append.mp h.nodup).1).2.1

lemma Sound.scheduling_nodup (h : q.Sound) : (q.scheduling.map Prod.snd).Nodup :=
  (List.nodup_append.mp (List.nodup_append.mp h.nodup).1).1

lemma Sound.not_queued (h : q.Sound) (hmem : e ∈ q.scheduling.map Prod.snd) : e ∉ q.queued :=
  fun hqueued => (List.nodup_append.mp (List.nodup_append.mp h.nodup).1).2.2 e hmem e hqueued rfl

lemma Recorded.insert (h : q.Recorded recorded) (hsound : q.Sound) {i : ℕ} {time : ℤ}
    (hi : q.scheduling[i]? = some (time, e)) :
    (q.insert i time e).Recorded (recorded ++ [(time, e)]) := by
  obtain ⟨hlt, hget⟩ := List.getElem?_eq_some_iff.mp hi
  have hperm : ((time, e) :: q.scheduling.eraseIdx i).Perm q.scheduling :=
    hget ▸ List.getElem_cons_eraseIdx_perm hlt
  have hin := mem_scheduling hi
  refine h.push (hsound.not_queued hin) ?_ rfl ?_ rfl ⟨?_, ?_⟩
  · exact fun entry hentry hsame => absurd hsame (h.not_recorded hi entry hentry)
  · exact ((List.eraseIdx_sublist _ i).map Prod.snd).subset
  · exact hsound.fresh e (List.mem_append_left _ (List.mem_append_left _ hin))
  · have hnodup := (hperm.map Prod.snd).nodup_iff.mpr hsound.scheduling_nodup
    exact (List.nodup_cons.mp hnodup).1

/-- The others, where the first event is in there once. -/
lemma Sound.not_mem_eraseBegin (h : q.Sound) {time : ℤ}
    (hbegin : q.events_.begin? = some (time, e)) : e ∉ q.eraseBegin.queued := by
  have hqueued := h.queued_nodup
  rw [queued_of_begin? hbegin] at hqueued
  exact (List.nodup_cons.mp hqueued).1

lemma Recorded.eraseBegin (h : q.Recorded recorded) : q.eraseBegin.Recorded recorded := by
  refine h.mono ?_ rfl rfl
  rw [Events.eraseBegin, entries_eraseBegin]
  exact List.tail_sublist _

lemma mem_of_begin? {time : ℤ} (hbegin : q.events_.begin? = some (time, e)) :
    (time, e) ∈ q.events_.entries := by
  rw [entries_of_begin? hbegin]
  exact List.mem_cons_self

lemma Recorded.reschedule (h : q.Recorded recorded) (hsound : q.Sound) {time period : ℤ}
    (hbegin : q.events_.begin? = some (time, e)) (hperiod : 0 < period) :
    (q.reschedule (time + period) e).Recorded (recorded ++ [(time + period, e)]) := by
  have hmem := mem_queued_of_begin? hbegin
  refine h.eraseBegin.push (hsound.not_mem_eraseBegin hbegin) ?_ ?_ (List.Subset.refl _) rfl
    ⟨?_, ?_⟩
  · rintro entry hentry rfl
    have hle := h.latest entry hentry time (mem_of_begin? hbegin)
    omega
  · exact eraseBegin_insert_of_le hbegin (by simp [hperiod.le]) e
  · exact hsound.fresh e (List.mem_append_left _ (List.mem_append_right _ hmem))
  · exact fun hin => hsound.not_queued hin hmem

lemma Recorded.mem (h : q.Recorded recorded) {entry : ℤ × ℕ} (hmem : entry ∈ q.events_.entries) :
    entry ∈ recorded := by
  have hfilter : entry ∈ q.events_.entries.filter fun other => other.1 = entry.1 :=
    List.mem_filter.mpr ⟨hmem, by simp⟩
  exact (List.mem_filter.mp ((h.stable entry.1).subset hfilter)).1

/-- **The first entry** has the least key, and among those with its key it has been inserted
first. -/
lemma Recorded.first (h : q.Recorded recorded) {time time' : ℤ} {e' : ℕ}
    (hbegin : q.events_.begin? = some (time, e)) (hmem : (time', e') ∈ q.events_.entries)
    (hne : (time', e') ≠ (time, e)) :
    time < time' ∨ time = time' ∧ [(time, e), (time', e')].Sublist recorded := by
  rcases (begin?_le hbegin hmem).lt_or_eq with hlt | heq
  · exact Or.inl hlt
  · refine Or.inr ⟨heq, ?_⟩
    obtain rfl : time = time' := heq
    have htail : (time, e') ∈ q.events_.eraseBegin.entries := by
      rw [entries_of_begin? hbegin] at hmem
      exact (List.mem_cons.mp hmem).resolve_left hne
    have hpair : [(time, e), (time, e')].Sublist
        (q.events_.entries.filter fun entry => entry.1 = time) := by
      rw [entries_of_begin? hbegin, List.filter_cons_of_pos (by simp)]
      exact List.cons_sublist_cons.mpr
        (List.singleton_sublist.mpr (List.mem_filter.mpr ⟨htail, by simp⟩))
    exact (hpair.trans (h.stable time)).trans List.filter_sublist

/-! ## The grid -/

def PositivePeriods (q : Events) : Prop :=
  ∀ e period, (q.bodies e).period = some period → 0 < period

/-- A period behind its key is where an event has been queued at first, and a period for each time
it has been queued. -/
def OnGrid (q : Events) (trace : List Mark) : Prop :=
  ∀ time e period, (time, e) ∈ q.events_.entries → (q.bodies e).period = some period →
    ∃ first, firstQueued trace e = some first ∧
      time + period = first + countOf e (insertions trace) * period

variable {trace marks : List Mark}

lemma OnGrid.mono (h : q.OnGrid trace) (hentries : q'.events_.entries ⊆ q.events_.entries)
    (hperiod : ∀ entry ∈ q'.events_.entries,
      (q'.bodies entry.2).period = (q.bodies entry.2).period)
    (hmarks : insertions marks = []) : q'.OnGrid (trace ++ marks) := by
  intro time e period hmem hsome
  rw [hperiod _ hmem] at hsome
  obtain ⟨first, hfirst, htime⟩ := h time e period (hentries hmem) hsome
  exact ⟨first, firstQueued_append hfirst, by simpa [hmarks] using htime⟩

/-- The other events. -/
lemma OnGrid.of_ne (h : q.OnGrid trace) {time time' period : ℤ} {e' : ℕ}
    (hmem : (time', e') ∈ q.events_.entries) (hperiod : (q.bodies e').period = some period)
    (hne : e' ≠ e) (hmarks : insertions marks = [(time, e)]) :
    ∃ first, firstQueued (trace ++ marks) e' = some first ∧
      time' + period = first + countOf e' (insertions (trace ++ marks)) * period := by
  obtain ⟨first, hfirst, htime⟩ := h time' e' period hmem hperiod
  refine ⟨first, firstQueued_append hfirst, ?_⟩
  simpa [hmarks, countOf_singleton_of_ne hne.symm] using htime

lemma OnGrid.insert (h : q.OnGrid trace) (hrecorded : q.Recorded (insertions trace))
    {i : ℕ} {time : ℤ} (hi : q.scheduling[i]? = some (time, e))
    (hmarks : insertions marks = [(time, e)]) : (q.insert i time e).OnGrid (trace ++ marks) := by
  have hnew := hrecorded.not_recorded hi
  intro time' e' period hmem hperiod
  rcases mem_insertUpper.mp hmem with hsame | hold
  · obtain ⟨rfl, rfl⟩ := Prod.mk.inj hsame
    refine ⟨time', firstQueued_of_insertions hnew hmarks, ?_⟩
    simp [hmarks, countOf_eq_zero hnew]
  · exact h.of_ne hold hperiod (hnew _ (hrecorded.mem hold)) hmarks

lemma OnGrid.reschedule (h : q.OnGrid trace) (hsound : q.Sound) (hpositive : q.PositivePeriods)
    {time period : ℤ} (hbegin : q.events_.begin? = some (time, e))
    (hperiod : (q.bodies e).period = some period)
    (hmarks : insertions marks = [(time + period, e)]) :
    (q.reschedule (time + period) e).OnGrid (trace ++ marks) := by
  have hlt := hpositive e period hperiod
  intro time' e' period' hmem hperiod'
  have hevents := eraseBegin_insert_of_le hbegin (k := time + period) (by simp [hlt.le]) e
  have hcases : (time', e') = (time + period, e) ∨ (time', e') ∈ q.eraseBegin.events_.entries := by
    rw [Events.reschedule, hevents] at hmem
    exact mem_insertUpper.mp hmem
  rcases hcases with hsame | hold
  -- The entry put back: its key has grown by a period, the count by one.
  · obtain ⟨rfl, rfl⟩ := Prod.mk.inj hsame
    obtain rfl : period = period' := Option.some.inj (hperiod.symm.trans hperiod')
    obtain ⟨first, hfirst, htime⟩ := h time e' period (mem_of_begin? hbegin) hperiod
    refine ⟨first, firstQueued_append hfirst, ?_⟩
    rw [insertions_append, countOf_append, hmarks, countOf_singleton_self, htime]
    push_cast
    ring
  · have hne : e' ≠ e := by
      rintro rfl
      exact hsound.not_mem_eraseBegin hbegin (List.mem_map_of_mem (f := Prod.snd) hold)
    have hentry : (time', e') ∈ q.events_.entries := by
      rw [entries_of_begin? hbegin]
      exact List.mem_cons_of_mem _ hold
    exact h.of_ne hentry hperiod' hne hmarks

end Events

/-! ## How often -/

/-- An event in `events_` has been put there once more than it has been handled, unless the loop
is past it and has not put it back. -/
structure Scheduler.Counted (s : Scheduler) (trace : List Mark) : Prop where
  bounded : ∀ e, handled trace e ≤ countOf e (insertions trace)
  counted : ∀ e ∈ s.queue.queued, handled trace e + 1 = countOf e (insertions trace) ∨
    s.Handling e ∧ handled trace e = countOf e (insertions trace)
  exact : ∀ e, s.Handling e → (s.queue.bodies e).isCanceled = false →
    handled trace e = countOf e (insertions trace)

variable {s s' : Scheduler} {trace marks : List Mark} {e : ℕ}

@[simp] lemma handled_append :
    handled (trace ++ marks) e = handled trace e + countOf e (handlings marks) := by
  simp [handled]

namespace Scheduler

lemma counted_initial (mainThread : Bool) :
    ({ mainThread_ := mainThread } : Scheduler).Counted [] where
  bounded _ := le_rfl
  counted _ hmem := absurd hmem List.not_mem_nil
  exact _ hhandling := absurd hhandling.1 Bool.false_ne_true

lemma Handling.eq {time : ℤ} {e' : ℕ} (h : s.Handling e')
    (hbegin : s.queue.events_.begin? = some (time, e)) : e' = e := by
  obtain ⟨-, time', hbegin'⟩ := h
  exact (Prod.mk.inj (Option.some.inj (hbegin'.symm.trans hbegin))).2

lemma Counted.waiting (h : s.Counted trace) (hmem : e ∈ s.queue.queued)
    (hnot : ¬ s.Handling e) : handled trace e + 1 = countOf e (insertions trace) :=
  (h.counted e hmem).resolve_right fun hhandling => hnot hhandling.1

lemma not_handling (h : s.loop.past = false) (e : ℕ) : ¬ s.Handling e := fun hhandling =>
  Bool.eq_false_iff.mp h hhandling.1

/-- At most the first event, which has not been handled, is. -/
lemma Counted.bounded_append (h : s.Counted trace)
    (hmarks : handlings marks = [] ∨ ∃ time e, handlings marks = [(time, e)] ∧
      handled trace e + 1 = countOf e (insertions trace)) (e' : ℕ) :
    handled (trace ++ marks) e' ≤ countOf e' (insertions (trace ++ marks)) := by
  have hbounded := h.bounded e'
  rw [handled_append, insertions_append, countOf_append]
  rcases hmarks with hnone | ⟨time, e, hone, hwaiting⟩
  · rw [hnone, countOf_nil]
    omega
  · rw [hone]
    by_cases hne : e = e'
    · subst hne
      rw [countOf_singleton_self]
      omega
    · rw [countOf_singleton_of_ne hne]
      omega

/-- A step that leaves the events where they are. -/
lemma Counted.quiet (h : s.Counted trace) (hevents : s'.queue.events_ = s.queue.events_)
    (hpersists : ∀ e, s.Handling e → s'.Handling e)
    (hnew : ∀ e, s'.Handling e → (s'.queue.bodies e).isCanceled = false →
      s.Handling e ∧ (s.queue.bodies e).isCanceled = false)
    (hinsertions : insertions marks = []) (hhandlings : handlings marks = []) :
    s'.Counted (trace ++ marks) := by
  refine ⟨h.bounded_append (Or.inl hhandlings), ?_, ?_⟩
  · intro e hmem
    rw [Events.queued, hevents] at hmem
    rw [handled_append, hhandlings, insertions_append, hinsertions]
    refine (h.counted e hmem).imp ?_ ?_
    · simp
    · rintro ⟨hhandling, hsame⟩
      exact ⟨hpersists e hhandling, by simpa using hsame⟩
  · intro e hhandling hnot
    obtain ⟨hhandling, hnot⟩ := hnew e hhandling hnot
    simpa [hinsertions, hhandlings] using h.exact e hhandling hnot

lemma Counted.handle (h : s.Counted trace) {time : ℤ} (hpast : s.loop.past = false)
    (hpast' : s'.loop.past = true) (hbegin : s.queue.events_.begin? = some (time, e))
    (hevents : s'.queue.events_ = s.queue.events_) (hinsertions : insertions marks = [])
    (hhandlings : handlings marks = [(time, e)]) : s'.Counted (trace ++ marks) := by
  have hbegin' : s'.queue.events_.begin? = some (time, e) := hevents ▸ hbegin
  have hwaiting := h.waiting (Events.mem_queued_of_begin? hbegin) (not_handling hpast e)
  have hfirst : handled (trace ++ marks) e = countOf e (insertions (trace ++ marks)) := by
    simpa [hinsertions, hhandlings] using hwaiting
  refine ⟨h.bounded_append (Or.inr ⟨time, e, hhandlings, hwaiting⟩), ?_, ?_⟩
  · intro e' hmem
    rw [Events.queued, hevents] at hmem
    by_cases hne : e' = e
    · subst hne
      exact Or.inr ⟨⟨hpast', time, hbegin'⟩, hfirst⟩
    · refine Or.inl ?_
      simpa [hinsertions, hhandlings, countOf_singleton_of_ne (Ne.symm hne)] using
        h.waiting hmem (not_handling hpast e')
  · intro e' hhandling _
    rw [hhandling.eq hbegin']
    exact hfirst

/-- The first event is put back, and has been handled once before. -/
lemma Counted.reschedule (h : s.Counted trace) {time time' : ℤ}
    (hbegin : s.queue.events_.begin? = some (time, e)) (hpast' : s'.loop.past = false)
    (hqueue : s'.queue = s.queue.reschedule time' e) (hinsertions : insertions marks = [(time', e)])
    (hhandlings : s.loop.past = false ∧ handlings marks = [(time, e)] ∨
      s.loop.past = true ∧ (s.queue.bodies e).isCanceled = false ∧ handlings marks = []) :
    s'.Counted (trace ++ marks) := by
  have hfirst : handled (trace ++ marks) e = countOf e (insertions trace) := by
    rcases hhandlings with ⟨hpast, hone⟩ | ⟨hpast, hnot, hnone⟩
    · simpa [hone] using h.waiting (Events.mem_queued_of_begin? hbegin) (not_handling hpast e)
    · simpa [hnone] using h.exact e ⟨hpast, time, hbegin⟩ hnot
  -- Nothing is recorded of the other events.
  have hothers : ∀ e', e' ≠ e → handled (trace ++ marks) e' = handled trace e' := by
    intro e' hne
    rcases hhandlings with ⟨-, hone⟩ | ⟨-, -, hnone⟩
    · simp [hone, countOf_singleton_of_ne (Ne.symm hne)]
    · simp [hnone]
  refine ⟨?_, ?_, ?_⟩
  · intro e'
    rw [insertions_append, countOf_append]
    by_cases hne : e' = e
    · subst hne
      omega
    · have hbounded := h.bounded e'
      rw [hothers e' hne]
      omega
  · intro e' hmem
    rw [hqueue, (Events.queued_reschedule hbegin time').mem_iff] at hmem
    rw [insertions_append, countOf_append, hinsertions]
    by_cases hne : e' = e
    · subst hne
      rw [hfirst, countOf_singleton_self]
      exact Or.inl rfl
    · rw [hothers e' hne, countOf_singleton_of_ne (Ne.symm hne)]
      exact Or.inl (h.waiting hmem fun hhandling => hne (hhandling.eq hbegin))
  · exact fun e' hhandling => absurd hhandling (not_handling hpast' e')

lemma Counted.insert (h : s.Counted trace) (hrecorded : s.queue.Recorded (insertions trace))
    {i : ℕ} {time : ℤ} (hpast : s.loop.past = false) (hpast' : s'.loop.past = false)
    (hi : s.queue.scheduling[i]? = some (time, e)) (hqueue : s'.queue = s.queue.insert i time e)
    (hinsertions : insertions marks = [(time, e)]) (hhandlings : handlings marks = []) :
    s'.Counted (trace ++ marks) := by
  have hnew : countOf e (insertions trace) = 0 := countOf_eq_zero (hrecorded.not_recorded hi)
  refine ⟨h.bounded_append (Or.inl hhandlings), ?_, ?_⟩
  · intro e' hmem
    refine Or.inl ?_
    rw [handled_append, hhandlings, countOf_nil, insertions_append, countOf_append, hinsertions]
    by_cases hne : e' = e
    · subst hne
      have hbounded := h.bounded e'
      rw [countOf_singleton_self]
      omega
    · rw [hqueue, (Events.queued_insert i time e).mem_iff] at hmem
      rw [countOf_singleton_of_ne (Ne.symm hne)]
      exact h.waiting ((List.mem_cons.mp hmem).resolve_left hne) (not_handling hpast e')
  · exact fun e' hhandling => absurd hhandling (not_handling hpast' e')

lemma Counted.pop (h : s.Counted trace) (hsound : s.queue.Sound) {time : ℤ}
    (hpast' : s'.loop.past = false) (hbegin : s.queue.events_.begin? = some (time, e))
    (hevents : s'.queue.events_ = s.queue.events_.eraseBegin) (hinsertions : insertions marks = [])
    (hhandlings : handlings marks = [] ∨
      s.loop.past = false ∧ handlings marks = [(time, e)]) : s'.Counted (trace ++ marks) := by
  refine ⟨h.bounded_append ?_, ?_, ?_⟩
  · refine hhandlings.imp_right ?_
    rintro ⟨hpast, hone⟩
    exact ⟨time, e, hone,
      h.waiting (Events.mem_queued_of_begin? hbegin) (not_handling hpast e)⟩
  · intro e' hmem
    have hrest : e' ∈ s.queue.eraseBegin.queued := by
      rw [Events.queued, hevents] at hmem
      exact hmem
    have hne : e' ≠ e := by
      rintro rfl
      exact hsound.not_mem_eraseBegin hbegin hrest
    have hmem' : e' ∈ s.queue.queued := by
      rw [Events.queued_of_begin? hbegin]
      exact List.mem_cons_of_mem e hrest
    have hcount : countOf e' (handlings marks) = 0 := by
      rcases hhandlings with hnone | ⟨-, hone⟩
      · rw [hnone, countOf_nil]
      · rw [hone, countOf_singleton_of_ne hne.symm]
    refine Or.inl ?_
    simpa [hinsertions, hcount] using
      h.waiting hmem' fun hhandling => hne (hhandling.eq hbegin)
  · exact fun e' hhandling => absurd hhandling (not_handling hpast' e')

/-! ## The clock -/

/-- The loop goes by a reading of the clock, and has found the first entry due by it. -/
structure Clocked (s : Scheduler) (trace : List Mark) : Prop where
  read : ∀ now, s.loop.now? = some now → now ∈ readings trace
  due : s.loop.found.isSome → ∀ now time e, s.loop.now? = some now →
    s.queue.events_.begin? = some (time, e) → s.startingTime_ + time ≤ now

lemma clocked_initial (mainThread : Bool) :
    ({ mainThread_ := mainThread } : Scheduler).Clocked [] where
  read _ hnow := absurd hnow (by simp)
  due hfound := absurd hfound (by simp)

/-- A step of somebody else. -/
lemma Clocked.other (h : s.Clocked trace) (hloop : s'.loop = s.loop)
    (hstarting : s'.startingTime_ = s.startingTime_)
    (hevents : s.loop.holds = true → s'.queue.events_ = s.queue.events_) :
    s'.Clocked (trace ++ marks) where
  read now hnow := by
    rw [readings_append]
    exact List.mem_append_left _ (h.read now (hloop ▸ hnow))
  due hfound now time e hnow hbegin := by
    rw [hloop] at hfound hnow
    obtain ⟨periodic, hperiodic⟩ := Option.isSome_iff_exists.mp hfound
    rw [hevents (LoopPc.holds_of_found hperiodic)] at hbegin
    rw [hstarting]
    exact h.due hfound now time e hnow hbegin

end Scheduler

lemma LoopStep.clocked (hstep : LoopStep s s') (h : s.Clocked trace) :
    s'.Clocked (trace ++ s.loopMarks s') := by
  have hold : s'.loop.now? = s.loop.now? ∨ s'.loop.now? = none →
      ∀ now, s'.loop.now? = some now → now ∈ readings (trace ++ s.loopMarks s') := by
    rintro (hsame | hnone) now hnow
    · rw [readings_append]
      exact List.mem_append_left _ (h.read now (hsame ▸ hnow))
    · exact absurd (hnone.symm.trans hnow) (by simp)
  have hread : s.loopMarks s' = s'.loop.now?.toList.map .read →
      ∀ now, s'.loop.now? = some now → now ∈ readings (trace ++ s.loopMarks s') := by
    intro hmarks now hnow
    rw [readings_append, hmarks, hnow]
    exact List.mem_append_right _ (List.mem_singleton_self now)
  constructor
  -- Where the loop reads the clock, its variable has what it has read.
  · cases hstep with
    | empty now hpc => exact hread (by simp [Scheduler.loopMarks, hpc])
    | due now hpc => exact hread (by simp [Scheduler.loopMarks, hpc])
    | waitedUntil now hpc => exact hread (by simp [Scheduler.loopMarks, hpc])
    | _ => exact hold (by simp [*])
  · intro hfound now time e hnow hbegin
    cases hstep with
    | periodic hpc hbegin' hdue =>
        obtain ⟨rfl, rfl⟩ := Prod.mk.inj (Option.some.inj (hbegin'.symm.trans hbegin))
        exact hdue.trans_eq (Option.some.inj hnow)
    | single hpc hbegin' hdue =>
        obtain ⟨rfl, rfl⟩ := Prod.mk.inj (Option.some.inj (hbegin'.symm.trans hbegin))
        exact hdue.trans_eq (Option.some.inj hnow)
    | started hpc => exact h.due (by simp [hpc]) now time e (by rw [hpc]; exact hnow) hbegin
    | notStarted hpc => exact h.due (by simp [hpc]) now time e (by rw [hpc]; exact hnow) hbegin
    | notify hpc => exact h.due (by simp [hpc]) now time e (by rw [hpc]; exact hnow) hbegin
    | goOn hpc => exact h.due (by simp [hpc]) now time e (by rw [hpc]; exact hnow) hbegin
    | start hpc => exact h.due (by simp [hpc]) now time e (by rw [hpc]; exact hnow) hbegin
    | notToStart hpc => exact h.due (by simp [hpc]) now time e (by rw [hpc]; exact hnow) hbegin
    | _ => exact absurd hfound (by simp)

lemma Step.clocked {action : Action} (hstep : Step s action s') (hinv : s.Inv)
    (h : s.Clocked trace) : s'.Clocked (trace ++ s.marks action s') := by
  have hidle : s'.loop.now? = none → s'.loop.found = none →
      s'.Clocked (trace ++ s.marks action s') := by
    intro hnow hfound
    refine ⟨fun now hnow' => absurd (hnow.symm.trans hnow') (by simp), fun hfound' => ?_⟩
    rw [hfound] at hfound'
    exact absurd hfound' Bool.false_ne_true
  cases hstep with
  | insert hloop =>
      exact h.other rfl rfl fun hholds => absurd hholds (Bool.eq_false_iff.mp hloop)
  | startInvoker => exact hidle rfl rfl
  | startMain => exact hidle rfl rfl
  | loop hstep => exact hstep.clocked h
  | stopping hstep =>
      cases hstep with
      | clear hstop =>
          refine h.other rfl rfl fun hholds => ?_
          exact absurd (hinv.exclusive hholds) (by simp [hstop])
      | _ => exact h.other rfl rfl fun _ => rfl
  | join hstep =>
      cases hstep with
      | event => exact h.other rfl rfl fun _ => rfl
      | nonPeriodic => exact h.other rfl rfl fun _ => rfl
      | _ => exact h.other rfl rfl fun _ => rfl
  | _ => exact h.other rfl rfl fun _ => rfl

/-! ## All together -/

structure Scheduler.Gridded (s : Scheduler) (trace : List Mark) : Prop where
  inv : s.Inv
  positive : s.queue.PositivePeriods
  recorded : s.queue.Recorded (insertions trace)
  onGrid : s.queue.OnGrid trace
  counted : s.Counted trace
  clocked : s.Clocked trace

lemma Scheduler.gridded_initial (mainThread : Bool) :
    ({ mainThread_ := mainThread } : Scheduler).Gridded [] where
  inv := Inv.initial mainThread
  positive _ _ hperiod := absurd hperiod (by simp)
  recorded := Events.recorded_initial
  onGrid _ _ _ hmem := absurd hmem List.not_mem_nil
  counted := counted_initial mainThread
  clocked := clocked_initial mainThread

lemma Effect.positive (heffect : Effect s marks s') (h : s.queue.PositivePeriods) :
    s'.queue.PositivePeriods := by
  have hkeeps : (∀ e, (s'.queue.bodies e).period = (s.queue.bodies e).period) →
      s'.queue.PositivePeriods := fun hsame e period hperiod => h e period (hsame e ▸ hperiod)
  cases heffect with
  | quiet hkept => exact hkeeps hkept.period
  | @make period time hpositive hqueue =>
      intro e p hperiod
      rw [hqueue] at hperiod
      by_cases hne : e = s.queue.next
      · subst hne
        exact hpositive p (by simpa [Events.make] using hperiod)
      · exact h e p (by simpa [Events.make, Function.update_of_ne hne] using hperiod)
  | insert _ _ _ hqueue => exact hkeeps fun e => by rw [hqueue]; rfl
  | handle _ _ _ hkept => exact hkeeps hkept.period
  | missed _ _ _ _ hqueue => exact hkeeps fun e => by rw [hqueue]; rfl
  | reschedule _ _ _ _ _ hqueue => exact hkeeps fun e => by rw [hqueue]; rfl
  | pop _ _ hkept => exact hkeeps hkept.period
  | clear _ hkept => exact hkeeps hkept.period

lemma Effect.recorded (heffect : Effect s marks s') (h : s.Gridded trace) :
    s'.queue.Recorded (insertions (trace ++ marks)) := by
  rw [insertions_append]
  cases heffect with
  | quiet hkept hevents _ _ hmarks =>
      rw [hmarks, List.append_nil]
      exact h.recorded.mono (by rw [hevents]) hkept.scheduling hkept.next
  | make _ hqueue _ hmarks =>
      rw [hmarks, List.append_nil, hqueue]
      exact h.recorded.make _ _
  | insert _ _ hi hqueue hmarks =>
      rw [hmarks, hqueue]
      exact h.recorded.insert h.inv.sound hi
  | handle _ _ _ hkept hevents hmarks =>
      rw [hmarks, List.append_nil]
      exact h.recorded.mono (by rw [hevents]) hkept.scheduling hkept.next
  | missed _ _ hbegin hperiod hqueue hmarks =>
      rw [hmarks, hqueue]
      exact h.recorded.reschedule h.inv.sound hbegin (h.positive _ _ hperiod)
  | reschedule _ _ hbegin _ hperiod hqueue hmarks =>
      rw [hmarks, hqueue]
      exact h.recorded.reschedule h.inv.sound hbegin (h.positive _ _ hperiod)
  | pop _ _ hkept hevents hmarks =>
      rw [hmarks, List.append_nil]
      refine h.recorded.mono ?_ hkept.scheduling hkept.next
      rw [hevents, entries_eraseBegin]
      exact List.tail_sublist _
  | clear _ hkept hevents hmarks =>
      rw [hmarks, List.append_nil]
      refine h.recorded.mono ?_ hkept.scheduling hkept.next
      rw [hevents]
      exact List.nil_sublist _

lemma Effect.onGrid (heffect : Effect s marks s') (h : s.Gridded trace) :
    s'.queue.OnGrid (trace ++ marks) := by
  cases heffect with
  | quiet hkept hevents _ _ hmarks =>
      exact h.onGrid.mono (by rw [hevents]; exact List.Subset.refl _)
        (fun entry _ => hkept.period entry.2) hmarks
  | make _ hqueue _ hmarks =>
      rw [hqueue]
      refine h.onGrid.mono (List.Subset.refl _) ?_ hmarks
      intro entry hmem
      have hlt := (h.recorded.fresh entry (h.recorded.mem hmem)).1
      simp [Events.make, Function.update_of_ne hlt.ne]
  | insert _ _ hi hqueue hmarks =>
      rw [hqueue]
      exact h.onGrid.insert h.recorded hi hmarks
  | handle _ _ _ hkept hevents hmarks =>
      exact h.onGrid.mono (by rw [hevents]; exact List.Subset.refl _)
        (fun entry _ => hkept.period entry.2) hmarks
  | missed _ _ hbegin hperiod hqueue hmarks =>
      rw [hqueue]
      exact h.onGrid.reschedule h.inv.sound h.positive hbegin hperiod hmarks
  | reschedule _ _ hbegin _ hperiod hqueue hmarks =>
      rw [hqueue]
      exact h.onGrid.reschedule h.inv.sound h.positive hbegin hperiod hmarks
  | pop _ _ hkept hevents hmarks =>
      refine h.onGrid.mono ?_ (fun entry _ => hkept.period entry.2) hmarks
      rw [hevents, entries_eraseBegin]
      exact List.tail_subset _
  | clear _ hkept hevents hmarks =>
      refine h.onGrid.mono ?_ (fun entry _ => hkept.period entry.2) hmarks
      rw [hevents]
      exact List.nil_subset _

lemma Effect.counted (heffect : Effect s marks s') (h : s.Gridded trace) :
    s'.Counted (trace ++ marks) := by
  cases heffect with
  | quiet _ hevents hpersists hnew hinsertions hhandlings =>
      exact h.counted.quiet hevents hpersists hnew hinsertions hhandlings
  | make _ hqueue hloop hinsertions hhandlings =>
      have hevents : s'.queue.events_ = s.queue.events_ := by rw [hqueue]; rfl
      have hsame : ∀ e, s'.Handling e ↔ s.Handling e := fun e => by
        rw [Scheduler.Handling, Scheduler.Handling, hloop, hevents]
      refine h.counted.quiet hevents (fun e => (hsame e).mpr) ?_ hinsertions hhandlings
      intro e hhandling hnot
      have hhandling' := (hsame e).mp hhandling
      obtain ⟨-, time, hbegin⟩ := hhandling'
      have hlt := (h.recorded.fresh _ (h.recorded.mem (Events.mem_of_begin? hbegin))).1
      refine ⟨(hsame e).mp hhandling, ?_⟩
      simpa [hqueue, Events.make, Function.update_of_ne hlt.ne] using hnot
  | insert hpast hpast' hi hqueue hinsertions hhandlings =>
      exact h.counted.insert h.recorded hpast hpast' hi hqueue hinsertions hhandlings
  | handle hpast hpast' hbegin _ hevents hinsertions hhandlings =>
      exact h.counted.handle hpast hpast' hbegin hevents hinsertions hhandlings
  | missed hpast hpast' hbegin _ hqueue hinsertions hhandlings =>
      exact h.counted.reschedule hbegin hpast' hqueue hinsertions (Or.inl ⟨hpast, hhandlings⟩)
  | reschedule hpast hpast' hbegin hnot _ hqueue hinsertions hhandlings =>
      exact h.counted.reschedule hbegin hpast' hqueue hinsertions
        (Or.inr ⟨hpast, hnot, hhandlings⟩)
  | pop hpast' hbegin _ hevents hinsertions hhandlings =>
      exact h.counted.pop h.inv.sound hpast' hbegin hevents hinsertions hhandlings
  | clear hpast' _ hevents _ hhandlings =>
      refine ⟨h.counted.bounded_append (Or.inl hhandlings), ?_, ?_⟩
      · intro e hmem
        rw [Events.queued, hevents] at hmem
        exact absurd hmem List.not_mem_nil
      · exact fun e hhandling => absurd hhandling (Scheduler.not_handling hpast' e)

lemma Step.gridded {action : Action} (hstep : Step s action s') (hregular : action.Regular)
    (h : s.Gridded trace) : s'.Gridded (trace ++ s.marks action s') := by
  have heffect := hstep.effect h.inv hregular
  exact ⟨hstep.inv h.inv, heffect.positive h.positive, heffect.recorded h, heffect.onGrid h,
    heffect.counted h, hstep.clocked h.inv h.clocked⟩

/-! ## What the loop handles -/

lemma Effect.handling {time : ℤ} (heffect : Effect s marks s')
    (hmem : (time, e) ∈ handlings marks) :
    s.loop.past = false ∧ s.queue.events_.begin? = some (time, e) := by
  have hone : ∀ {time' : ℤ} {e' : ℕ}, s.loop.past = false →
      s.queue.events_.begin? = some (time', e') → handlings marks = [(time', e')] →
      s.loop.past = false ∧ s.queue.events_.begin? = some (time, e) := by
    intro time' e' hpast hbegin hmarks
    rw [hmarks, List.mem_singleton] at hmem
    exact ⟨hpast, hmem ▸ hbegin⟩
  have hnone : handlings marks ≠ [] := List.ne_nil_of_mem hmem
  cases heffect with
  | quiet _ _ _ _ _ hmarks => exact absurd hmarks hnone
  | make _ _ _ _ hmarks => exact absurd hmarks hnone
  | insert _ _ _ _ _ hmarks => exact absurd hmarks hnone
  | handle hpast _ hbegin _ _ _ hmarks => exact hone hpast hbegin hmarks
  | missed hpast _ hbegin _ _ _ hmarks => exact hone hpast hbegin hmarks
  | reschedule _ _ _ _ _ _ _ hmarks => exact absurd hmarks hnone
  | pop _ hbegin _ _ _ hmarks =>
      obtain ⟨hpast, hmarks⟩ := hmarks.resolve_left hnone
      exact hone hpast hbegin hmarks
  | clear _ _ _ _ hmarks => exact absurd hmarks hnone

lemma Scheduler.found_of_handling {entry : ℤ × ℕ} (hmem : entry ∈ handlings (s.loopMarks s')) :
    s.loop.found.isSome := by
  have hreading : entry ∉ handlings (s'.loop.now?.toList.map .read) := by
    cases s'.loop.now? <;> simp
  cases hpc : s.loop with
  | top => exact absurd hmem (by simpa [Scheduler.loopMarks, hpc] using hreading)
  | waitUntil => exact absurd hmem (by simpa [Scheduler.loopMarks, hpc] using hreading)
  | periodic => rfl
  | tryLock => rfl
  | notified => rfl
  | start => rfl
  | reschedule => rfl
  | single => rfl
  | _ => simp [Scheduler.loopMarks, hpc] at hmem

/-- The key of a periodic event is where it has been queued at first, and a period for each time
the loop has handled it; from when it handles it to when it puts it back, the key is still that of
before. -/
def Scheduler.KeepsGrid (s : Scheduler) (trace : List Mark) : Prop :=
  ∀ time e period, (time, e) ∈ s.queue.events_.entries → (s.queue.bodies e).period = some period →
    ∃ first, firstQueued trace e = some first ∧
      (time = first + handled trace e * period ∨
        s.Handling e ∧ time + period = first + handled trace e * period)

/-- The loop may handle the entry. -/
structure Scheduler.InTurn (s : Scheduler) (trace : List Mark) (time : ℤ) (e : ℕ) : Prop where
  queued : (time, e) ∈ s.queue.events_.entries
  due : ∃ now, (readings trace).getLast? = some now ∧ s.startingTime_ + time ≤ now
  onGrid : ∀ period, (s.queue.bodies e).period = some period →
    ∃ first, firstQueued trace e = some first ∧ time = first + handled trace e * period
  first : ∀ time' e', (time', e') ∈ s.queue.events_.entries → (time', e') ≠ (time, e) →
    time < time' ∨ time = time' ∧ [(time, e), (time', e')].Sublist (insertions trace)

lemma Scheduler.Gridded.keepsGrid (h : s.Gridded trace) : s.KeepsGrid trace := by
  intro time e period hmem hperiod
  obtain ⟨first, hfirst, htime⟩ := h.onGrid time e period hmem hperiod
  refine ⟨first, hfirst, ?_⟩
  refine (h.counted.counted e (List.mem_map_of_mem (f := Prod.snd) hmem)).imp ?_ ?_
  · intro hcount
    rw [← hcount] at htime
    push_cast at htime
    linarith
  · rintro ⟨hhandling, hcount⟩
    exact ⟨hhandling, by rw [hcount]; exact htime⟩

lemma Scheduler.Gridded.inTurn {action : Action} {time : ℤ} (h : s.Gridded trace)
    (hclock : (readings trace).Pairwise (· ≤ ·)) (hstep : Step s action s')
    (hmem : (time, e) ∈ handlings (s.marks action s')) : s.InTurn trace time e := by
  obtain ⟨hloop, rfl⟩ := hstep.loop_of_handling hmem
  obtain ⟨hpast, hbegin⟩ := hloop.effect.handling hmem
  have hfound := Scheduler.found_of_handling hmem
  have hentry := Events.mem_of_begin? hbegin
  refine ⟨hentry, ?_, ?_, fun time' e' => h.recorded.first hbegin⟩
  · obtain ⟨now, hnow⟩ : ∃ now, s.loop.now? = some now := by
      cases hpc : s.loop <;> simp_all
    have hread := h.clocked.read now hnow
    obtain ⟨front, last, hfront⟩ :=
      (List.eq_nil_or_concat (readings trace)).resolve_left (List.ne_nil_of_mem hread)
    rw [List.concat_eq_append] at hfront
    refine ⟨last, by rw [hfront, List.getLast?_concat],
      (h.clocked.due hfound now time e hnow hbegin).trans ?_⟩
    rw [hfront] at hread hclock
    rcases List.mem_append.mp hread with hread | hread
    · exact (List.pairwise_append.mp hclock).2.2 now hread last (List.mem_singleton_self last)
    · exact (List.mem_singleton.mp hread).le
  · intro period hperiod
    obtain ⟨first, hfirst, htime⟩ := h.keepsGrid time e period hentry hperiod
    exact ⟨first, hfirst, htime.resolve_right fun hhandling =>
      Scheduler.not_handling hpast e hhandling.1⟩

/-- **On the grid**: in every state of a run with positive periods, over clock readings that never
decrease, no event is in `events_` twice, the periodic ones have the keys of their grids, and
whatever the loop then handles is due, on its grid, and the first of all. -/
theorem on_grid (mainThread : Bool) {actions : List Action} {s : Scheduler} {trace : List Mark}
    (hrun : Transition.Run TracedStep ({ mainThread_ := mainThread }, []) actions (s, trace))
    (hactions : ∀ action ∈ actions, action.Regular)
    (hclock : (readings trace).Pairwise (· ≤ ·)) :
    s.queue.queued.Nodup ∧ s.KeepsGrid trace ∧ (insertions trace).Nodup ∧
      ∀ action s' time e, Step s action s' → (time, e) ∈ handlings (s.marks action s') →
        s.InTurn trace time e := by
  have hgridded : s.Gridded trace := by
    refine hrun.invariant_of (I := fun σ => σ.1.Gridded σ.2) hactions
      (Scheduler.gridded_initial mainThread) ?_
    rintro σ action σ' hregular h ⟨hstep, hmarks⟩
    rw [hmarks]
    exact hstep.gridded hregular h
  exact ⟨hgridded.inv.sound.queued_nodup, hgridded.keepsGrid, hgridded.recorded.once,
    fun action s' time e => hgridded.inTurn hclock⟩

/-- An event of period 5 is started at 0, and its second deadline is missed, at 7. -/
theorem on_grid_missed : ∃ actions s trace,
    Transition.Run TracedStep ({ mainThread_ := true }, []) actions (s, trace) ∧
    s.queue.events_.entries = [(5, 0)] ∧ firstQueued trace 0 = some 0 ∧ handled trace 0 = 1 ∧
    s.queue.queued.Nodup ∧ s.KeepsGrid trace ∧ s.InTurn trace 5 0 ∧
    ∃ s', Step s .loop s' ∧ handlings (s.marks .loop s') = [(5, 0)] ∧
      s'.queue.events_.entries = [(10, 0)] := by
  have hrun := traced_snoc (traced_snoc (traced_snoc (traced_snoc (traced_snoc (traced_snoc
    (traced_snoc (traced_snoc (traced_snoc (traced_snoc (traced_snoc (traced_snoc (traced_snoc
    (traced_snoc (@Transition.Run.nil _ _ TracedStep ({ mainThread_ := true }, []))
    (.schedule (some 5) 0 0)) (.insert rfl rfl (i := 0) rfl)) (.startMain rfl rfl))
    (.loop (.lock 0 rfl rfl))) (.loop (.due 0 rfl rfl (by decide))))
    (.loop (.periodic rfl rfl (by decide) rfl))) (.loop (.notStarted rfl rfl rfl)))
    (.loop (.start rfl rfl rfl rfl))) (.loop (.reschedule rfl rfl rfl rfl)))
    (.loop (.drained rfl (by decide)))) (.loop (.goRound rfl rfl)))
    (.loop (.due 7 rfl rfl (by decide)))) (.loop (.periodic rfl rfl (by decide) rfl)))
    (.loop (.started rfl rfl rfl))
  obtain ⟨hnodup, hgrid, -, hturn⟩ :=
    on_grid true hrun (by simp [Action.Regular]) (by decide)
  refine ⟨_, _, _, hrun, rfl, rfl, rfl, hnodup, hgrid, ?_, _, .loop (.missed rfl rfl rfl), rfl, rfl⟩
  exact hturn .loop _ 5 0 (.loop (.missed rfl rfl rfl)) (by decide)

end CpsCore.MultiThreadingScheduler

import Mathlib
import CpsCore.Scheduler.Splitting

/-!
# Does the simulation end?

The queue does not shrink while there are periodic events, but the time does: each pass takes the
first entry, and inserts it again, if at all, for a later time.

* `MicroSimulator.remaining`: the sum of the times that the entries still have.
* `TimesFit`: the last time for which each of them is inserted is one a `TimePoint` can hold.
* `loop_returns`: with more fuel than that the loop returns, and no time has overflowed.
* `Endless`: a due event of period 0 is due again.  The progress event has the period `duration /
  100`, which is 0 for durations up to 99.
-/

namespace CpsCore

open Multimap

variable {T W : Type}

/-! ## Tasks that leave the queue alone -/

/-- The task neither schedules nor re-times nor stops; the events it cancels are among the first
`handles`. -/
def Program.Passive (handles : ℕ) : Program T W → Prop
  | .done _ => True
  | .schedule _ _ _ _ => False
  | .cancel event next => event < handles ∧ next.Passive handles
  | .changePeriod _ _ _ => False
  | .isCanceled _ next => ∀ canceled, (next canceled).Passive handles
  | .now next => ∀ time, (next time).Passive handles
  | .stop _ => False

/-- What the loop looks at is as it was, except that some of the first `handles` events may have
been canceled. -/
structure Unscheduled (handles : ℕ) (s s' : MicroSimulator T) : Prop extends Undisturbed s s' where
  events : s'.events = s.events
  period : ∀ event, s'.period event = s.period event
  active : ∀ event, handles ≤ event → s'.isCanceled event = s.isCanceled event
  canceled : ∀ event, s.isCanceled event = true → s'.isCanceled event = true

namespace Unscheduled

variable {handles : ℕ}

lemma refl (s : MicroSimulator T) : Unscheduled handles s s :=
  ⟨.refl s, rfl, fun _ => rfl, fun _ _ => rfl, fun _ h => h⟩

lemma trans {s m s' : MicroSimulator T} (h : Unscheduled handles s m)
    (h' : Unscheduled handles m s') : Unscheduled handles s s' :=
  ⟨h.toUndisturbed.trans h'.toUndisturbed, h'.events.trans h.events,
    fun event => (h'.period event).trans (h.period event),
    fun event hevent => (h'.active event hevent).trans (h.active event hevent),
    fun event hcanceled => h'.canceled event (h.canceled event hcanceled)⟩

lemma cancel (s : MicroSimulator T) {event : ℕ} (hevent : event < handles) :
    Unscheduled handles s (Event.cancel s event) := by
  have hsame := Undisturbed.cancel s event
  unfold Event.cancel at hsame ⊢
  cases hlock : Event.lock s event with
  | none => exact refl s
  | some body =>
      have hbody := Event.lock_eq_some hlock
      obtain ⟨hlt, -⟩ := List.getElem?_eq_some_iff.mp hbody
      simp only [hlock] at hsame
      refine ⟨hsame, rfl, ?_, ?_, ?_⟩
      · intro other
        by_cases hother : event = other
        · subst hother
          rw [MicroSimulator.period, MicroSimulator.period, List.getElem?_set_self hlt, hbody]
          rfl
        · simp [MicroSimulator.period, hother]
      · intro other hle
        have hother : event ≠ other := (lt_of_lt_of_le hevent hle).ne
        simp [MicroSimulator.isCanceled, hother]
      · intro other hcanceled
        by_cases hother : event = other
        · subst hother
          rw [MicroSimulator.isCanceled, List.getElem?_set_self hlt]
          rfl
        · rwa [MicroSimulator.isCanceled, List.getElem?_set_ne hother]

end Unscheduled

lemma Program.Passive.unscheduled {handles : ℕ} {program : Program T W}
    (h : program.Passive handles) (s : MicroSimulator T) :
    Unscheduled handles s (program.run s).2.2 := by
  induction program generalizing s with
  | done world => exact .refl s
  | schedule task initialFromNow period next ih => exact h.elim
  | cancel event next ih => exact (Unscheduled.cancel s h.1).trans (ih h.2 _)
  | changePeriod event period next ih => exact h.elim
  | isCanceled event next ih => exact ih _ (h _) s
  | now next ih => exact ih _ (h _) s
  | stop next ih => exact h.elim

/-! ## A pass -/

/-- What an entry of the event is inserted again for. -/
def MicroSimulator.again (s : MicroSimulator T) (event : ℕ) : Option ℤ :=
  if s.isCanceled event then none else s.period event

/-- What the queue is after a pass that takes this entry. -/
def MicroSimulator.requeue (s : MicroSimulator T) (entry : ℤ × ℕ) : Multimap ℤ ℕ :=
  match s.again entry.2 with
  | some period => (s.events.insert (entry.1 + period) entry.2).eraseBegin
  | none => s.events.eraseBegin

lemma MicroSimulator.period_of_again {s : MicroSimulator T} {event : ℕ} {period : ℤ}
    (h : s.again event = some period) : s.period event = some period := by
  rw [again] at h
  split at h
  · exact absurd h (by simp)
  · exact h

/-- A pass of tasks that leave the queue alone. -/
structure Advances (handles : ℕ) (s s' : MicroSimulator T) (entry : ℤ × ℕ) : Prop where
  now : s'.now = entry.1
  stopped : s'.stopped = s.stopped
  events : s'.events = s.requeue entry
  period : ∀ event, s'.period event = s.period event
  active : ∀ event, handles ≤ event → s'.isCanceled event = s.isCanceled event
  canceled : ∀ event, s.isCanceled event = true → s'.isCanceled event = true

/-- No event comes back that was not inserted again before. -/
lemma Advances.again_of_again {handles : ℕ} {s s' : MicroSimulator T} {entry : ℤ × ℕ}
    (h : Advances handles s s' entry) {event : ℕ} {period : ℤ}
    (hagain : s'.again event = some period) : s.again event = some period := by
  rw [MicroSimulator.again] at hagain
  split at hagain
  case isTrue => exact absurd hagain (by simp)
  case isFalse hactive =>
    rw [MicroSimulator.again, if_neg fun hcanceled => hactive (h.canceled event hcanceled),
      ← h.period]
    exact hagain

lemma MicroSimulator.iterate_advances {exec : T → W → Program T W} {handles : ℕ}
    (hpassive : ∀ task world, (exec task world).Passive handles) (s : MicroSimulator T) (world : W)
    (entry : ℤ × ℕ) : Advances handles s (s.iterate exec world entry).2.2 entry := by
  rw [iterate]
  cases hbody : s.bodies[entry.2]? with
  | none =>
      have hagain : s.again entry.2 = none := by simp [again, isCanceled, period, hbody]
      exact ⟨rfl, rfl, by simp [requeue, hagain], fun _ => rfl, fun _ _ => rfl, fun _ h => h⟩
  | some body =>
      have hisCanceled : s.isCanceled entry.2 = body.isCanceled := by simp [isCanceled, hbody]
      cases hcanceled : body.isCanceled with
      | true =>
          have hagain : s.again entry.2 = none := by simp [again, hisCanceled, hcanceled]
          exact ⟨by simp [hcanceled], by simp [hcanceled], by simp [hcanceled, requeue, hagain],
            fun _ => by simp [hcanceled, period], fun _ _ => by simp [hcanceled, isCanceled],
            fun _ h => by simpa [hcanceled, isCanceled] using h⟩
      | false =>
          have hran := (hpassive body.body world).unscheduled { s with now := entry.1 }
          have hagain : s.again entry.2 = s.period entry.2 := by
            simp [again, hisCanceled, hcanceled]
          have hperiod : ((exec body.body world).run { s with now := entry.1 }).2.2.period entry.2 =
              s.period entry.2 := hran.period entry.2
          simp only [hcanceled, Bool.false_eq_true, if_false, execute, hperiod]
          cases hnext : s.period entry.2 with
          | none =>
              exact ⟨hran.now, hran.stopped, by simp [requeue, hagain, hnext, hran.events],
                hran.period, hran.active, hran.canceled⟩
          | some period =>
              exact ⟨hran.now, hran.stopped,
                by simp [requeue, hagain, hnext, hran.events, hran.now], hran.period, hran.active,
                hran.canceled⟩

/-- The times for which such a pass inserts an event. -/
def Iteration.TimesFit (it : Iteration) : Prop :=
  ∀ execution ∈ it.execution, ∀ time ∈ execution.again, TimePoint.Fits time

lemma MicroSimulator.timesFit_iterate {exec : T → W → Program T W} {handles : ℕ}
    (hpassive : ∀ task world, (exec task world).Passive handles) {s : MicroSimulator T} (world : W)
    {entry : ℤ × ℕ}
    (hagain : ∀ period, s.again entry.2 = some period → TimePoint.Fits (entry.1 + period)) :
    (s.iterate exec world entry).1.TimesFit := by
  rw [iterate]
  cases hbody : s.bodies[entry.2]? with
  | none => exact fun execution hexecution => absurd hexecution (Option.not_mem_none _)
  | some body =>
      cases hcanceled : body.isCanceled with
      | true =>
          simp only [hcanceled, if_true]
          exact fun execution hexecution => absurd hexecution (Option.not_mem_none _)
      | false =>
          have hran := (hpassive body.body world).unscheduled { s with now := entry.1 }
          have hperiod : ((exec body.body world).run { s with now := entry.1 }).2.2.period entry.2 =
              s.period entry.2 := hran.period entry.2
          have hsame : s.again entry.2 = s.period entry.2 := by
            simp [again, isCanceled, hbody, hcanceled]
          simp only [hcanceled, Bool.false_eq_true, if_false, execute, hperiod]
          rintro execution hexecution time htime
          cases hnext : s.period entry.2 with
          | none =>
              simp only [hnext, Option.mem_some_iff] at hexecution
              rw [← hexecution] at htime
              exact absurd htime (Option.not_mem_none _)
          | some period =>
              simp only [hnext, Option.mem_some_iff] at hexecution
              rw [← hexecution, Option.mem_some_iff, hran.now] at htime
              rw [← htime]
              exact hagain period (hsame.trans hnext)

/-! ## Where every period is positive -/

namespace MicroSimulator

/-- The events in the queue that have a period have a positive one. -/
def Progresses (s : MicroSimulator T) : Prop :=
  ∀ x ∈ s.events.entries, ∀ period, s.period x.2 = some period → 0 < period

/-- The last time for which a periodic event is inserted again: the first behind the end. -/
def lastTime (endSim time period : ℤ) : ℤ := time + ((endSim - time) / period + 1) * period

/-- No time overflows on the way to the end. -/
def TimesFit (endSim : ℤ) (s : MicroSimulator T) : Prop :=
  ∀ x ∈ s.events.entries, TimePoint.Fits x.1 ∧
    ∀ period, s.again x.2 = some period → x.1 ≤ endSim →
      TimePoint.Fits (lastTime endSim x.1 period)

/-- How much time an entry has up to the end, which is itself included. -/
def timeLeft (endSim : ℤ) (x : ℤ × ℕ) : ℕ := (endSim + 1 - x.1).toNat

def remaining (endSim : ℤ) (s : MicroSimulator T) : ℕ :=
  (s.events.entries.map (timeLeft endSim)).sum

variable {handles : ℕ} {endSim : ℤ} {s s' : MicroSimulator T} {entry : ℤ × ℕ}

/-- Behind the entry taken there is at most one new one. -/
lemma requeue_perm (hs : s.Progresses) (hbegin : s.events.begin? = some entry) :
    (s.requeue entry).entries.Perm s.events.eraseBegin.entries ∨
      ∃ period, s.again entry.2 = some period ∧ 0 < period ∧ (s.requeue entry).entries.Perm
        ((entry.1 + period, entry.2) :: s.events.eraseBegin.entries) := by
  have hmem : entry ∈ s.events.entries := by
    rw [entries_of_begin? hbegin]
    exact List.mem_cons_self
  rw [requeue]
  cases hagain : s.again entry.2 with
  | none => exact Or.inl (List.Perm.refl _)
  | some period =>
      have hpositive := hs entry hmem period (period_of_again hagain)
      have hlater : entry.1 ≤ entry.1 + period := by omega
      refine Or.inr ⟨period, rfl, hpositive, ?_⟩
      dsimp only
      rw [eraseBegin_insert_of_le hbegin hlater]
      exact insert_perm _ _ _

lemma Progresses.advances (hs : s.Progresses) (hbegin : s.events.begin? = some entry)
    (h : Advances handles s s' entry) : s'.Progresses := by
  intro x hx period hperiod
  rw [h.period] at hperiod
  have hold : ∃ y ∈ s.events.entries, y.2 = x.2 := by
    rw [h.events] at hx
    rw [entries_of_begin? hbegin]
    rcases requeue_perm hs hbegin with hperm | ⟨p, -, -, hperm⟩
    · exact ⟨x, List.mem_cons_of_mem _ (hperm.mem_iff.mp hx), rfl⟩
    · rcases List.mem_cons.mp (hperm.mem_iff.mp hx) with rfl | hx
      · exact ⟨entry, List.mem_cons_self, rfl⟩
      · exact ⟨x, List.mem_cons_of_mem _ hx, rfl⟩
  obtain ⟨y, hy, hsame⟩ := hold
  exact hs y hy period (hsame ▸ hperiod)

/-- **The measure.**  A pass makes it smaller. -/
lemma remaining_lt (hs : s.Progresses) (hbegin : s.events.begin? = some entry)
    (hdue : entry.1 ≤ endSim) (h : Advances handles s s' entry) :
    s'.remaining endSim < s.remaining endSim := by
  rw [remaining, remaining, h.events, entries_of_begin? hbegin, List.map_cons, List.sum_cons]
  have hfirst : 0 < timeLeft endSim entry := by
    rw [timeLeft]
    omega
  rcases requeue_perm hs hbegin with hperm | ⟨period, -, hpositive, hperm⟩
  · rw [(hperm.map _).sum_eq]
    omega
  · have hless : timeLeft endSim (entry.1 + period, entry.2) < timeLeft endSim entry := by
      simp only [timeLeft]
      omega
    rw [(hperm.map _).sum_eq, List.map_cons, List.sum_cons]
    omega

/-- The next time of the entry taken is one of those up to its last. -/
lemma TimesFit.again (h : s.TimesFit endSim) (hs : s.Progresses)
    (hbegin : s.events.begin? = some entry) (hdue : entry.1 ≤ endSim) (period : ℤ)
    (hagain : s.again entry.2 = some period) : TimePoint.Fits (entry.1 + period) := by
  have hmem : entry ∈ s.events.entries := by
    rw [entries_of_begin? hbegin]
    exact List.mem_cons_self
  obtain ⟨⟨hlow, -⟩, hlast⟩ := h entry hmem
  have hpositive : 0 < period := hs entry hmem period (period_of_again hagain)
  have hhigh := (hlast period hagain hdue).2
  have htimes : 0 ≤ (endSim - entry.1) / period * period :=
    mul_nonneg (Int.ediv_nonneg (by omega) hpositive.le) hpositive.le
  rw [lastTime, add_mul, one_mul] at hhigh
  exact ⟨by omega, by omega⟩

lemma TimesFit.advances (h : s.TimesFit endSim) (hs : s.Progresses)
    (hbegin : s.events.begin? = some entry) (hdue : entry.1 ≤ endSim)
    (hpass : Advances handles s s' entry) : s'.TimesFit endSim := by
  have hentries := entries_of_begin? hbegin
  have hold : ∀ x ∈ s.events.entries, TimePoint.Fits x.1 ∧
      ∀ period, s'.again x.2 = some period → x.1 ≤ endSim →
        TimePoint.Fits (lastTime endSim x.1 period) := fun x hx =>
    ⟨(h x hx).1, fun period hperiod => (h x hx).2 period (hpass.again_of_again hperiod)⟩
  intro x hx
  rw [hpass.events] at hx
  rcases requeue_perm hs hbegin with hperm | ⟨period, hagain, hpositive, hperm⟩
  · exact hold x (hentries ▸ List.mem_cons_of_mem _ (hperm.mem_iff.mp hx))
  · rcases List.mem_cons.mp (hperm.mem_iff.mp hx) with rfl | hx
    · refine ⟨h.again hs hbegin hdue period hagain, fun p hp hlater => ?_⟩
      obtain rfl : period = p :=
        Option.some.inj (hagain.symm.trans (hpass.again_of_again hp))
      -- one period later there is one period less to go
      have hlast := (h entry (hentries ▸ List.mem_cons_self)).2 period hagain hdue
      have hless : (endSim - (entry.1 + period)) / period = (endSim - entry.1) / period - 1 := by
        rw [← sub_sub, Int.sub_ediv_of_dvd _ dvd_rfl, Int.ediv_self hpositive.ne']
      have hsame : lastTime endSim (entry.1 + period) period = lastTime endSim entry.1 period := by
        rw [lastTime, lastTime, hless]
        ring
      rwa [hsame]
    · exact hold x (hentries ▸ List.mem_cons_of_mem _ hx)

theorem loop_returns {exec : T → W → Program T W}
    (hpassive : ∀ task world, (exec task world).Passive handles) {fuel : ℕ} (world : W)
    (hs : s.Progresses) (hfit : s.TimesFit endSim) (hfuel : s.remaining endSim < fuel) :
    ∃ result, s.loop exec endSim fuel world = some result ∧ ∀ it ∈ result.1, it.TimesFit := by
  have hnone : ∀ it ∈ ([] : List Iteration), it.TimesFit := fun _ hit =>
    absurd hit List.not_mem_nil
  induction fuel generalizing s world with
  | zero => exact absurd hfuel (Nat.not_lt_zero _)
  | succ fuel ih =>
      rw [loop]
      split
      case isFalse => exact ⟨_, rfl, hnone⟩
      case isTrue =>
        split
        case h_1 => exact ⟨_, rfl, hnone⟩
        case h_2 entry hbegin =>
          split
          case isTrue => exact ⟨_, rfl, hnone⟩
          case isFalse hdue =>
            split
            case isTrue => exact ⟨_, rfl, hnone⟩
            case isFalse =>
              have hdue := not_lt.mp hdue
              have hpass := iterate_advances hpassive s world entry
              have hless := remaining_lt hs hbegin hdue hpass
              obtain ⟨result, hresult, hrest⟩ := @ih _ (s.iterate exec world entry).2.1
                (hs.advances hbegin hpass) (hfit.advances hs hbegin hdue hpass) (by omega)
              refine ⟨_, congrArg (Option.map _) hresult, List.forall_mem_cons.mpr ⟨?_, hrest⟩⟩
              exact timesFit_iterate hpassive world (hfit.again hs hbegin hdue)

/-! ## Where one period is 0 -/

/-- A due event that nobody cancels has the period 0. -/
def Endless (handles : ℕ) (endSim : ℤ) (s : MicroSimulator T) : Prop :=
  ∃ x ∈ s.events.entries, x.1 ≤ endSim ∧ handles ≤ x.2 ∧ s.isCanceled x.2 = false ∧
    s.period x.2 = some 0

lemma Endless.advances (hs : s.Endless handles endSim) (hbegin : s.events.begin? = some entry)
    (h : Advances handles s s' entry) : s'.Endless handles endSim := by
  obtain ⟨x, hx, hdue, hhandles, hactive, hperiod⟩ := hs
  refine ⟨x, ?_, hdue, hhandles, (h.active _ hhandles).trans hactive, (h.period _).trans hperiod⟩
  rw [h.events]
  rw [entries_of_begin? hbegin] at hx
  rcases List.mem_cons.mp hx with rfl | hx
  · have hagain : s.again x.2 = some 0 := by simp [again, hactive, hperiod]
    rw [requeue, hagain]
    simp only [add_zero]
    rw [eraseBegin_insert_of_le hbegin le_rfl]
    exact mem_insert_self _ _ _
  · rw [requeue]
    cases s.again entry.2 with
    | none => exact hx
    | some period => exact mem_eraseBegin_insert hx _ _

theorem loop_endless {exec : T → W → Program T W}
    (hpassive : ∀ task world, (exec task world).Passive handles) (fuel : ℕ) {world : W}
    (hs : s.Endless handles endSim) (hstopped : s.stopped = false) (hnow : s.now ≤ endSim) :
    s.loop exec endSim fuel world = none := by
  induction fuel generalizing s world with
  | zero => rfl
  | succ fuel ih =>
      obtain ⟨x, hx, hlast, -⟩ := id hs
      obtain ⟨entry, hbegin⟩ := exists_begin?_of_mem hx
      have hdue : entry.1 ≤ endSim := (begin?_le hbegin hx).trans hlast
      have hpass := iterate_advances hpassive s world entry
      rw [loop, if_pos hnow]
      simp only [hbegin, not_lt.mpr hdue, hstopped, if_false, Bool.false_eq_true]
      rw [ih (hs.advances hbegin hpass) (hpass.stopped.trans hstopped) (hpass.now.trans_le hdue),
        Option.map_none]

/-! ## The progress event -/

lemma period_schedule (task : T) (initialFromNow period : ℤ) (event : ℕ) :
    (s.schedule task initialFromNow (some period)).2.period event =
      if event = s.bodies.length then some period else s.period event := by
  simp only [MicroSimulator.schedule, MicroSimulator.period]
  rcases lt_trichotomy event s.bodies.length with hlt | rfl | hgt
  · rw [List.getElem?_append_left hlt, if_neg hlt.ne]
  · simp
  · rw [if_neg hgt.ne', List.getElem?_eq_none (by simp; omega), List.getElem?_eq_none hgt.le]

lemma Progresses.schedule (hs : s.Progresses) (task : T) (initialFromNow : ℤ) {period : ℤ}
    (hperiod : 0 < period) : (s.schedule task initialFromNow (some period)).2.Progresses := by
  intro x hx p hp
  rw [period_schedule] at hp
  split at hp
  case isTrue =>
    obtain rfl := Option.some.inj hp
    exact hperiod
  case isFalse hne =>
    have hold : x ∈ s.events.entries := by
      rcases mem_insertUpper.mp hx with rfl | hx
      · exact absurd rfl hne
      · exact hx
    exact hs x hold p hp

lemma TimesFit.schedule (h : s.TimesFit endSim)
    (hallocated : ∀ x ∈ s.events.entries, x.2 < s.bodies.length) (task : T)
    {initialFromNow period : ℤ} (hfirst : TimePoint.Fits (s.now + initialFromNow))
    (hlast : TimePoint.Fits (lastTime endSim (s.now + initialFromNow) period)) :
    (s.schedule task initialFromNow (some period)).2.TimesFit endSim := by
  intro x hx
  rcases mem_insertUpper.mp hx with rfl | hx
  · refine ⟨hfirst, fun p hp _ => ?_⟩
    have hperiod := period_of_again hp
    rw [period_schedule, if_pos rfl] at hperiod
    rwa [← Option.some.inj hperiod]
  · obtain ⟨hfits, hold⟩ := h x hx
    refine ⟨hfits, fun p hp => hold p ?_⟩
    have hlt := hallocated x hx
    have hactive : (s.schedule task initialFromNow (some period)).2.isCanceled x.2 =
        s.isCanceled x.2 := by
      simp [MicroSimulator.schedule, isCanceled, List.getElem?_append_left hlt]
    rwa [MicroSimulator.again, hactive, period_schedule, if_neg hlt.ne] at hp

lemma endless_schedule (s : MicroSimulator T) (task : T) (hnow : s.now ≤ endSim) :
    (s.schedule task 0 (some 0)).2.Endless s.bodies.length endSim := by
  refine ⟨(s.now + 0, s.bodies.length), mem_insert_self _ _ _, ?_, le_rfl, ?_, ?_⟩
  · simpa using hnow
  · simp [MicroSimulator.schedule, isCanceled]
  · simp [MicroSimulator.schedule, MicroSimulator.period]

end MicroSimulator

/-! ## The simulation -/

/-- It is the progress event, of a period of a hundredth of the duration, that keeps a simulation
of less than a hundred nanoseconds from its end. -/
lemma simulate_endless {exec : T → W → Program T W} {logProgress : ℤ → ℤ → T}
    {s : MicroSimulator T} {duration : ℤ}
    (hpassive : ∀ task world, (exec task world).Passive s.bodies.length)
    (hstopped : s.stopped = false) (hduration : 0 ≤ duration) (hprogress : s.showProgress = true)
    (hshort : duration < 100) (fuel : ℕ) (world : W) :
    s.simulate exec logProgress fuel world duration = none := by
  have hpercent : duration.tdiv 100 = 0 := Int.tdiv_eq_zero_of_lt hduration hshort
  simp only [MicroSimulator.simulate, hprogress, if_true, hpercent]
  rw [Option.map_eq_none_iff]
  refine MicroSimulator.loop_endless hpassive fuel ?_ hstopped ?_
  · exact MicroSimulator.endless_schedule { s with runs := 0 } _ (by simpa using hduration)
  · simpa [MicroSimulator.schedule] using hduration

/-- No time overflows in a simulation: neither its end, nor the last time of an event in the queue
or of the progress event. -/
structure MicroSimulator.InRange (s : MicroSimulator T) (duration : ℤ) : Prop where
  now : TimePoint.Fits s.now
  endSim : TimePoint.Fits (s.now + duration)
  events : s.TimesFit (s.now + duration)
  progress : s.showProgress = true → TimePoint.Fits
    (lastTime (s.now + duration) (s.now + duration.tdiv 100) (duration.tdiv 100))

/-- **Termination.**  Where tasks leave the queue alone, periods are positive and no time is out of
range, `simulate` returns, and no time has overflowed on the way, unless it shows the progress of
less than a hundred nanoseconds. -/
theorem simulate_returns_iff {exec : T → W → Program T W} {logProgress : ℤ → ℤ → T}
    {s : MicroSimulator T} {duration : ℤ}
    (hpassive : ∀ task world, (exec task world).Passive s.bodies.length) (hs : s.Progresses)
    (hallocated : ∀ x ∈ s.events.entries, x.2 < s.bodies.length) (hstopped : s.stopped = false)
    (hduration : 0 ≤ duration) (hrange : s.InRange duration) (world : W) :
    (∃ fuel result, s.simulate exec logProgress fuel world duration = some result ∧
      ∀ it ∈ result.2.1, it.TimesFit) ↔
      s.showProgress = false ∨ 100 ≤ duration := by
  constructor
  · rintro ⟨fuel, result, hreturns, -⟩
    by_contra! hcond
    have hprogress : s.showProgress = true := by simpa using hcond.1
    rw [simulate_endless hpassive hstopped hduration hprogress hcond.2] at hreturns
    exact absurd hreturns (by simp)
  · intro hcond
    have hreset : ({ s with runs := 0 } : MicroSimulator T).Progresses := hs
    have hfit : ({ s with runs := 0 } : MicroSimulator T).TimesFit (s.now + duration) :=
      hrange.events
    by_cases hprogress : s.showProgress = true
    · have hlong : 100 ≤ duration := hcond.resolve_left (by simp [hprogress])
      have hpercent : duration.tdiv 100 = duration / 100 := Int.tdiv_eq_ediv_of_nonneg hduration
      have hfirst : TimePoint.Fits (s.now + duration.tdiv 100) := by
        have hlow := hrange.now.1
        have hhigh := hrange.endSim.2
        exact ⟨by omega, by omega⟩
      obtain ⟨result, hresult, htimes⟩ := MicroSimulator.loop_returns hpassive world
        (hreset.schedule (logProgress (s.now + duration) duration) (duration.tdiv 100)
          (show 0 < duration.tdiv 100 by omega))
        (hfit.schedule hallocated _ hfirst (hrange.progress hprogress)) (Nat.lt_succ_self _)
      simp only [MicroSimulator.simulate, if_pos hprogress]
      exact ⟨_, _, congrArg (Option.map _) hresult, htimes⟩
    · obtain ⟨result, hresult, htimes⟩ := MicroSimulator.loop_returns hpassive world
        hreset hfit (Nat.lt_succ_self _)
      simp only [MicroSimulator.simulate, if_neg hprogress]
      exact ⟨_, _, congrArg (Option.map _) hresult, htimes⟩

/-- An event every 10 from 5 on, simulated for 200 with progress. -/
theorem simulate_returns_progress : ∃ fuel result,
    ((⟨{}, [], 0, 0, false, true⟩ : MicroSimulator Unit).schedule () 5 (some 10)).2.simulate
      (fun _ world => .done world) (fun _ _ => ()) fuel () 200 = some result ∧
      ∀ it ∈ result.2.1, it.TimesFit := by
  have hempty : (⟨{}, [], 0, 0, false, true⟩ : MicroSimulator Unit).Progresses := by
    intro x hx
    exact absurd hx List.not_mem_nil
  have hprogresses := hempty.schedule () 5 (show (0 : ℤ) < 10 by omega)
  have hnone : (⟨{}, [], 0, 0, false, true⟩ : MicroSimulator Unit).TimesFit 200 := by
    intro x hx
    exact absurd hx List.not_mem_nil
  have hfit := @MicroSimulator.TimesFit.schedule _ _ _ hnone
    (fun _ hx => absurd hx List.not_mem_nil) () 5 10 (by decide) (by decide)
  exact (@simulate_returns_iff Unit Unit (fun _ world => .done world) (fun _ _ => ()) _ 200
    (fun _ _ => trivial) hprogresses (by decide) rfl (by omega)
    ⟨by decide, by decide, hfit, fun _ => by decide⟩ ()).mpr (Or.inr (by omega))

/-- An empty queue, and no time at all: the simulation does nothing but show its progress. -/
theorem simulate_hangs : ¬ ∀ (exec : Unit → Unit → Program Unit Unit) (logProgress : ℤ → ℤ → Unit)
    (s : MicroSimulator Unit) (duration : ℤ) (world : Unit),
    (∀ task world, (exec task world).Passive s.bodies.length) → s.Progresses →
    s.stopped = false → 0 ≤ duration →
    ∃ fuel, (s.simulate exec logProgress fuel world duration).isSome := by
  intro hreturns
  obtain ⟨fuel, hfuel⟩ := hreturns (fun _ world => .done world) (fun _ _ => ())
    ⟨{}, [], 0, 0, false, true⟩ 0 () (fun _ _ => trivial)
    (fun _ hx => absurd hx List.not_mem_nil) rfl le_rfl
  have hnone := @simulate_endless Unit Unit (fun _ world => .done world) (fun _ _ => ())
    ⟨{}, [], 0, 0, false, true⟩ 0 (fun _ _ => trivial) rfl le_rfl rfl (by omega) fuel ()
  rw [hnone] at hfuel
  exact absurd hfuel (by simp)

end CpsCore

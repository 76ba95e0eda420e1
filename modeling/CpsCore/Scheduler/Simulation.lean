import Mathlib
import CpsCore.Scheduler.DiscreteEvents

/-!
# The simulation

`simulate` is a discrete-event simulation (`simulate_discreteEvents`): it takes all entries up to
the end of the time, and no other, in the order of their times, and calls each body at its time.

The queue grows while it is emptied.  `Loops.stable_sort` says what that comes to: the entries
taken, followed by those left, are the stable sort of the entries there were and those inserted
since.
-/

namespace CpsCore

open Multimap

variable {T W : Type}

/-- The passes of a simulation that has returned. -/
inductive Loops (endSim : ℤ) : MicroSimulator T → List Iteration → MicroSimulator T → Prop
  | done {s} : (∀ x ∈ s.events.entries, endSim < x.1) → Loops endSim s [] { s with now := endSim }
  | pass {s m s' it its} : Passes s m it → it.entry.1 ≤ endSim → Loops endSim m its s' →
      Loops endSim s (it :: its) s'

lemma MicroSimulator.loop_loops {exec : T → W → Program T W}
    {endSim : ℤ} {fuel : ℕ} {s s' : MicroSimulator T} {world world' : W} {its : List Iteration}
    (hlegal : ∀ it ∈ its, ∀ call ∈ it.calls, call.2.Legal call.1) (hs : s.WellFormed)
    (hstopped : s.stopped = false) (hnow : s.now ≤ endSim)
    (h : s.loop exec endSim fuel world = some (its, world', s')) : Loops endSim s its s' := by
  induction fuel generalizing s world its with
  | zero => simp [MicroSimulator.loop] at h
  | succ fuel ih =>
      rw [MicroSimulator.loop, if_pos hnow] at h
      split at h
      case h_1 hbegin =>
        obtain ⟨rfl, -, rfl⟩ := by simpa using h
        have hempty : s.events.entries = [] := List.head?_eq_none_iff.mp hbegin
        exact Loops.done (by simp [hempty])
      case h_2 entry hbegin =>
        split at h
        case isTrue hlate =>
          obtain ⟨rfl, -, rfl⟩ := by simpa using h
          exact Loops.done fun x hx => lt_of_lt_of_le hlate (begin?_le hbegin hx)
        case isFalse hdue =>
          rw [if_neg (by simp [hstopped])] at h
          obtain ⟨⟨its, rest⟩, hloop, hresult⟩ := Option.map_eq_some_iff.mp h
          obtain ⟨rfl, rfl⟩ := by simpa using hresult
          obtain ⟨hfirst, hrest⟩ := List.forall_mem_cons.mp hlegal
          have hpass := s.iterate_passes world hs hbegin hfirst
          have hentry : (s.iterate exec world entry).1.entry = entry := s.iterate_entry exec world entry
          refine Loops.pass hpass (by rw [hentry]; omega) (ih hrest hpass.wellFormed ?_ ?_ hloop)
          · rw [hpass.stopped, hstopped]
          · rw [hpass.now, hentry]
            omega

/-! ## The order of the entries -/

lemma Loops.inserted_later {endSim : ℤ} {s s' : MicroSimulator T} {its : List Iteration}
    (h : Loops endSim s its s') : ∀ x ∈ its.flatMap Iteration.inserted, s.now ≤ x.1 := by
  induction h with
  | done _ => simp
  | pass hpass _ _ ih =>
      intro x hx
      rw [List.flatMap_cons, List.mem_append] at hx
      have hentry := hpass.entry_le
      rcases hx with hx | hx
      · exact hentry.trans (hpass.later x hx)
      · have hlater := ih x hx
        rw [hpass.now] at hlater
        exact hentry.trans hlater

/-- **The stable sort**: the entries taken and those left are those there were and those inserted. -/
theorem Loops.stable_sort {endSim : ℤ} {s s' : MicroSimulator T} {its : List Iteration}
    (h : Loops endSim s its s') : its.map Iteration.entry ++ s'.events.entries =
      insertAll s.events.entries (its.flatMap Iteration.inserted) := by
  induction h with
  | done _ => simp
  | @pass s m s' it its hpass _ hloops ih =>
      obtain ⟨rest, hrest, hentries⟩ := hpass.entries
      have hlater : ∀ x ∈ it.inserted ++ its.flatMap Iteration.inserted, it.entry.1 ≤ x.1 := by
        intro x hx
        rcases List.mem_append.mp hx with hx | hx
        · exact hpass.later x hx
        · rw [← hpass.now]
          exact hloops.inserted_later x hx
      rw [List.map_cons, List.cons_append, ih, hentries, List.flatMap_cons, hrest,
        insertAll_cons_of_le hlater, insertAll_append]

/-! ## Which entries are executed -/

theorem Loops.executed {endSim : ℤ} {s s' : MicroSimulator T} {its : List Iteration}
    (h : Loops endSim s its s') {before after : List Iteration} {it : Iteration}
    (hits : its = before ++ it :: after) :
    it.execution = none ↔ s.isCanceled it.entry.2 = true ∨
      ∃ earlier ∈ before, Cancels earlier.calls it.entry.2 := by
  induction h generalizing before with
  | done _ => simp at hits
  | pass hpass _ _ ih =>
      cases before with
      | nil =>
          obtain ⟨rfl, -⟩ := by simpa using hits
          simpa using hpass.execution
      | cons first before =>
          obtain ⟨rfl, hrest⟩ := by simpa using hits
          rw [ih hrest, hpass.canceled]
          simp [or_assoc]

lemma Loops.onTime {endSim : ℤ} {s s' : MicroSimulator T} {its : List Iteration}
    (h : Loops endSim s its s') : ∀ it ∈ its, it.OnTime ∧ it.entry.1 ≤ endSim := by
  induction h with
  | done _ => simp
  | pass hpass hdue _ ih =>
      rw [List.forall_mem_cons]
      exact ⟨⟨hpass.onTime, hdue⟩, ih⟩

lemma Loops.runs {endSim : ℤ} {s s' : MicroSimulator T} {its : List Iteration}
    (h : Loops endSim s its s') :
    s'.runs = s.runs + its.countP fun it => it.execution.isSome := by
  induction h with
  | done _ => simp
  | pass hpass _ _ ih =>
      rw [ih, hpass.runs, List.countP_cons]
      omega

lemma Loops.final {endSim : ℤ} {s s' : MicroSimulator T} {its : List Iteration}
    (h : Loops endSim s its s') :
    s'.now = endSim ∧ ∀ x ∈ s'.events.entries, endSim < x.1 := by
  induction h with
  | done hlate => exact ⟨by simp, hlate⟩
  | pass _ _ _ ih => exact ih

lemma Loops.wellFormed {endSim : ℤ} {s s' : MicroSimulator T} {its : List Iteration}
    (h : Loops endSim s its s') (hs : s.WellFormed) : s'.WellFormed := by
  induction h with
  | done hlate => exact ⟨fun x hx => (hlate x hx).le, hs.allocated, hs.nodup, hs.periods⟩
  | pass hpass _ _ ih => exact ih hpass.wellFormed

/-! ## Periodic events -/

/-- The times at which an event is executed. -/
def runTimes (event : ℕ) (its : List Iteration) : List ℤ :=
  (its.filter fun it => it.entry.2 = event ∧ it.execution.isSome).map fun it => it.entry.1

/-- A list of times is the course `start, start + period, …` up to the end. -/
def IsCourse (start period endSim : ℤ) (times : List ℤ) : Prop :=
  times.Pairwise (· < ·) ∧ ∀ t, t ∈ times ↔ ∃ k : ℕ, t = start + k * period ∧ t ≤ endSim

lemma IsCourse.nil {start period endSim : ℤ} (hperiod : 0 < period) (hlate : endSim < start) :
    IsCourse start period endSim [] := by
  refine ⟨List.Pairwise.nil, fun t => ⟨by simp, ?_⟩⟩
  rintro ⟨k, rfl, hle⟩
  have hnonneg : 0 ≤ (k : ℤ) * period := by positivity
  omega

lemma IsCourse.cons {start period endSim : ℤ} {times : List ℤ} (hperiod : 0 < period)
    (hdue : start ≤ endSim) (h : IsCourse (start + period) period endSim times) :
    IsCourse start period endSim (start :: times) := by
  refine ⟨List.pairwise_cons.mpr ⟨?_, h.1⟩, ?_⟩
  · intro t ht
    obtain ⟨k, rfl, -⟩ := (h.2 t).mp ht
    have hnonneg : 0 ≤ (k : ℤ) * period := by positivity
    omega
  · intro t
    rw [List.mem_cons, h.2]
    constructor
    · rintro (rfl | ⟨k, rfl, hle⟩)
      · exact ⟨0, by simp, hdue⟩
      · exact ⟨k + 1, by push_cast; ring, hle⟩
    · rintro ⟨k, rfl, hle⟩
      cases k with
      | zero => simp
      | succ k => exact Or.inr ⟨k, by push_cast; ring, hle⟩

/-- A periodic event in the queue. -/
theorem Loops.queued_course {endSim start period : ℤ} {event : ℕ} {s s' : MicroSimulator T}
    {its : List Iteration} (h : Loops endSim s its s') (hs : s.WellFormed)
    (hqueued : (start, event) ∈ s.events.entries) (hperiod : s.period event = some period)
    (hactive : s.isCanceled event = false)
    (hkept : ∀ it ∈ its, ¬ Cancels it.calls event ∧ ¬ Retimes it.calls event) :
    IsCourse start period endSim (runTimes event its) := by
  have hpositive : 0 < period := by
    obtain ⟨body, hbody, hperiod⟩ := Option.bind_eq_some_iff.mp hperiod
    exact hs.periods body (List.mem_of_getElem? hbody) period hperiod
  induction h generalizing start with
  | done hlate => exact IsCourse.nil hpositive (hlate _ hqueued)
  | @pass s m s' it its hpass hdue hloops ih =>
      rw [List.forall_mem_cons] at hkept
      obtain ⟨⟨hcancels, hretimes⟩, hkept⟩ := hkept
      obtain ⟨rest, hrest, hentries⟩ := hpass.entries
      have hperiod' : m.period event = some period := by
        rw [hpass.period event (hs.allocated _ hqueued) hretimes, hperiod]
      have hactive' : m.isCanceled event = false := by
        rw [← Bool.not_eq_true, hpass.canceled, not_or]
        exact ⟨by simp [hactive], hcancels⟩
      by_cases heq : it.entry.2 = event
      · -- the event is due: it is executed, and is in the queue for its next time
        have hentry : it.entry = (start, event) :=
          List.inj_on_of_nodup_map hs.nodup (by simp [hrest]) hqueued heq
        have hexecuted : it.execution ≠ none := by
          rw [Ne, hpass.execution, heq]
          simp [hactive]
        have hnext : (start + period, event) ∈ m.events.entries := by
          have hagain := hpass.again hexecuted period (by rw [heq, hperiod'])
          rw [hentries, mem_insertAll]
          exact Or.inr (by simpa [hentry] using hagain)
        have htimes : runTimes event (it :: its) = start :: runTimes event its := by
          have hsome : it.execution.isSome = true := Option.isSome_iff_ne_none.mpr hexecuted
          simp [runTimes, hsome, hentry]
        rw [htimes]
        exact IsCourse.cons hpositive (by simpa [hentry] using hdue)
          (ih hpass.wellFormed hnext hperiod' hactive' hkept)
      · have hstays : (start, event) ∈ m.events.entries := by
          rw [hrest, List.mem_cons] at hqueued
          rw [hentries, mem_insertAll]
          exact Or.inl (hqueued.resolve_left fun hfirst => heq (by rw [← hfirst]))
        have htimes : runTimes event (it :: its) = runTimes event its := by
          simp [runTimes, heq]
        rw [htimes]
        exact ih hpass.wellFormed hstays hperiod' hactive' hkept

lemma Loops.fresh {endSim : ℤ} {s s' : MicroSimulator T} {its : List Iteration}
    (h : Loops endSim s its s') :
    ∀ it ∈ its, ∀ x ∈ entriesOf it.calls, s.bodies.length ≤ x.2 := by
  induction h with
  | done _ => simp
  | pass hpass _ _ ih =>
      rw [List.forall_mem_cons]
      exact ⟨fun x hx => (hpass.fresh x hx).1, fun it hit x hx => hpass.grows.trans (ih it hit x hx)⟩

/-- A periodic event a task has scheduled. -/
theorem Loops.scheduled_course {endSim start period : ℤ} {event : ℕ} {s s' : MicroSimulator T}
    {its : List Iteration} (h : Loops endSim s its s')
    (hscheduled : ∃ it ∈ its, ∃ now, (now, .schedule event start (some period)) ∈ it.calls)
    (hkept : ∀ it ∈ its, ¬ Cancels it.calls event ∧ ¬ Retimes it.calls event) :
    IsCourse start period endSim (runTimes event its) := by
  induction h with
  | done _ => simp at hscheduled
  | @pass s m s' it its hpass hdue hloops ih =>
      obtain ⟨⟨hcancels, hretimes⟩, hkept'⟩ := List.forall_mem_cons.mp hkept
      obtain ⟨it', hit', now, hcall⟩ := hscheduled
      have hmem : (start, event) ∈ entriesOf it'.calls := mem_entriesOf.mpr ⟨now, _, hcall⟩
      have hnew : s.bodies.length ≤ event :=
        (Loops.pass hpass hdue hloops).fresh it' hit' _ hmem
      have htimes : runTimes event (it :: its) = runTimes event its := by
        have hne : it.entry.2 ≠ event := (lt_of_lt_of_le hpass.allocated hnew).ne
        simp [runTimes, hne]
      rw [htimes]
      rcases List.mem_cons.mp hit' with rfl | hit'
      · obtain ⟨rest, -, hentries⟩ := hpass.entries
        have hqueued : (start, event) ∈ m.events.entries := by
          rw [hentries, mem_insertAll]
          exact Or.inr (Iteration.mem_inserted hmem)
        have hactive : m.isCanceled event = false := by
          rw [← Bool.not_eq_true, hpass.canceled, not_or]
          exact ⟨by simp [MicroSimulator.isCanceled, List.getElem?_eq_none hnew], hcancels⟩
        exact hloops.queued_course hpass.wellFormed hqueued
          (hpass.scheduled now event start _ hcall hretimes) hactive hkept'
      · exact ih ⟨it', hit', now, hcall⟩ hkept'

/-! ## The whole simulation -/

/-- The first time of an event with a period: it waits in the queue, or a task schedules it. -/
def FirstDue (s : MicroSimulator T) (its : List Iteration) (event : ℕ) (start period : ℤ) : Prop :=
  ((start, event) ∈ s.events.entries ∧ s.period event = some period ∧
    s.isCanceled event = false) ∨
  ∃ it ∈ its, ∃ now, (now, .schedule event start (some period)) ∈ it.calls

/-- What it is to simulate the time from `s.now` to `endSim`. -/
structure DiscreteEvents (endSim : ℤ) (s s' : MicroSimulator T) (its : List Iteration)
    (runs : ℕ) : Prop where
  /-- Entries are taken in the order of their times … -/
  ordered : Sorted (its.map Iteration.entry ++ s'.events.entries)
  /-- … and those of one time in the order of their insertion. -/
  ties : ∀ t, (its.map Iteration.entry ++ s'.events.entries).filter (fun x => x.1 = t) =
    (s.events.entries ++ its.flatMap Iteration.inserted).filter fun x => x.1 = t
  /-- An entry is executed unless its event was cancelled before. -/
  executed : ∀ before it after, its = before ++ it :: after →
    (it.execution = none ↔ s.isCanceled it.entry.2 = true ∨
      ∃ earlier ∈ before, Cancels earlier.calls it.entry.2)
  onTime : ∀ it ∈ its, it.OnTime
  handled : ∀ x ∈ s.events.entries ++ its.flatMap Iteration.inserted, x.1 ≤ endSim →
    x ∈ its.map Iteration.entry
  taken : ∀ it ∈ its, it.entry.1 ≤ endSim
  left : ∀ x ∈ s'.events.entries, endSim < x.1
  periodic : ∀ event start period, FirstDue s its event start period →
    (∀ it ∈ its, ¬ Cancels it.calls event ∧ ¬ Retimes it.calls event) →
    IsCourse start period endSim (runTimes event its)
  now : s'.now = endSim
  runs_eq : runs = its.countP fun it => it.execution.isSome
  wellFormed : s'.WellFormed

lemma Loops.discreteEvents {endSim : ℤ} {s s' : MicroSimulator T} {its : List Iteration}
    (h : Loops endSim s its s') (hs : s.WellFormed) (hruns : s.runs = 0) :
    DiscreteEvents endSim s s' its s'.runs where
  ordered := by
    rw [h.stable_sort]
    exact insertAll_sorted _ s.events.sorted
  ties t := by
    rw [h.stable_sort]
    exact filter_insertAll t _ s.events.sorted
  executed _ _ _ hits := h.executed hits
  onTime it hit := (h.onTime it hit).1
  handled x hx hdue := by
    rw [← (insertAll_perm _ _).mem_iff, ← h.stable_sort, List.mem_append] at hx
    refine hx.resolve_right fun hleft => ?_
    have hlate := h.final.2 x hleft
    omega
  taken it hit := (h.onTime it hit).2
  left := h.final.2
  periodic := by
    rintro event start period (⟨hqueued, hperiod, hactive⟩ | hscheduled) hkept
    · exact h.queued_course hs hqueued hperiod hactive hkept
    · exact h.scheduled_course hscheduled hkept
  now := h.final.1
  runs_eq := by rw [h.runs, hruns, Nat.zero_add]
  wellFormed := h.wellFormed hs

/-- **Simulated time.**  Whatever the tasks schedule, cancel and re-time, as long as their calls are
legal: where `simulate` returns, it has taken all entries up to the end of the time, in order, and
no other. -/
theorem simulate_discreteEvents {exec : T → W → Program T W} {logProgress : ℤ → ℤ → T} {fuel : ℕ}
    {s s' : MicroSimulator T} {world world' : W} {duration : ℤ} {runs : ℕ} {its : List Iteration}
    (hs : s.WellFormed) (hstopped : s.stopped = false) (hprogress : s.showProgress = false)
    (hduration : 0 ≤ duration)
    (hreturn : s.simulate exec logProgress fuel world duration = some (runs, its, world', s'))
    (hlegal : ∀ it ∈ its, ∀ call ∈ it.calls, call.2.Legal call.1) :
    DiscreteEvents (s.now + duration) s s' its runs := by
  simp only [MicroSimulator.simulate] at hreturn
  rw [if_neg (by simp [hprogress])] at hreturn
  obtain ⟨⟨its, world', s'⟩, hloop, hresult⟩ := Option.map_eq_some_iff.mp hreturn
  obtain ⟨rfl, rfl, rfl, rfl⟩ := by simpa using hresult
  have hreset : ({ s with runs := 0 } : MicroSimulator T).WellFormed :=
    ⟨hs.due, hs.allocated, hs.nodup, hs.periods⟩
  have hloops := MicroSimulator.loop_loops hlegal hreset hstopped
    (show s.now ≤ s.now + duration by omega) hloop
  have hevents := hloops.discreteEvents hreset rfl
  exact ⟨hevents.ordered, hevents.ties, hevents.executed, hevents.onTime,
    hevents.handled, hevents.taken, hevents.left, hevents.periodic, hevents.now, hevents.runs_eq,
    hevents.wellFormed⟩

/-- A task that schedules another one for the same time. -/
def chain : Bool → Unit → Program Bool Unit
  | true, world => .schedule false 0 none fun _ => .done world
  | false, world => .done world

/-- Every 10 from 5 on, for 20: the bodies run at 5, 5, 15 and 15. -/
def chainPasses : List Iteration :=
  [⟨(5, 0), some ⟨5, [(5, .schedule 1 5 none)], some 15⟩⟩, ⟨(5, 1), some ⟨5, [], none⟩⟩,
    ⟨(15, 0), some ⟨15, [(15, .schedule 2 15 none)], some 25⟩⟩, ⟨(15, 2), some ⟨15, [], none⟩⟩]

theorem simulate_discreteEvents_chain :
    ∃ its, ∃ s' : MicroSimulator Bool,
      DiscreteEvents 20 ((⟨{}, [], 0, 0, false, false⟩ : MicroSimulator Bool).schedule true 5
        (some 10)).2 s' its 4 ∧
      its.map (fun it => it.entry) = [(5, 0), (5, 1), (15, 0), (15, 2)] := by
  have hperiod : ∀ p : ℤ, some 10 = some p → 0 < p := by simp
  have hwellFormed := (serves_schedule (⟨{}, [], 0, 0, false, false⟩ : MicroSimulator Bool) true
    (show (0 : ℤ) ≤ 5 by omega) hperiod).wellFormed (MicroSimulator.wellFormed_initial 0)
  have hlegal : ∀ it ∈ chainPasses, ∀ call ∈ it.calls, call.2.Legal call.1 := by
    simp [chainPasses, Iteration.calls, Call.Legal]
  exact ⟨chainPasses, _, @simulate_discreteEvents Bool Unit chain (fun _ _ => false) 5 _ _ () () 20
    _ _ hwellFormed rfl rfl (by omega) rfl hlegal, rfl⟩

end CpsCore

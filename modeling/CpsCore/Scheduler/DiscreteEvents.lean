import Mathlib
import CpsCore.Scheduler.Serving

/-!
# One pass of the loop

* `Passes s s' it`: what one pass of the loop did.  Every fact about a simulation is derived from
  it and not from the code of the loop.
* `MicroSimulator.iterate_passes`: the code of the loop does that.
-/

namespace CpsCore

open Multimap

variable {T W : Type}

/-! ## One pass -/

namespace Iteration

def calls (it : Iteration) : List (ℤ × Call) :=
  match it.execution with
  | some execution => execution.calls
  | none => []

/-- The entries a pass inserts: those of its task, and the one of a periodic event. -/
def inserted (it : Iteration) : List (ℤ × ℕ) :=
  match it.execution with
  | some execution =>
      entriesOf execution.calls ++ execution.again.toList.map fun time => (time, it.entry.2)
  | none => []

lemma mem_inserted {it : Iteration} {x : ℤ × ℕ} (h : x ∈ entriesOf it.calls) :
    x ∈ it.inserted := by
  unfold calls at h
  unfold inserted
  split at h <;> simp_all

/-- The clock stands at the time of the entry as long as its body runs. -/
def OnTime (it : Iteration) : Prop :=
  ∀ execution, it.execution = some execution →
    execution.now = it.entry.1 ∧ ∀ call ∈ execution.calls, call.1 = it.entry.1

end Iteration

structure Passes (s s' : MicroSimulator T) (it : Iteration) : Prop where
  entry_le : s.now ≤ it.entry.1
  allocated : it.entry.2 < s.bodies.length
  now : s'.now = it.entry.1
  stopped : s'.stopped = s.stopped
  entries : ∃ rest, s.events.entries = it.entry :: rest ∧
    s'.events.entries = insertAll rest it.inserted
  later : ∀ x ∈ it.inserted, it.entry.1 ≤ x.1
  grows : s.bodies.length ≤ s'.bodies.length
  fresh : ∀ x ∈ entriesOf it.calls, s.bodies.length ≤ x.2 ∧ x.2 < s'.bodies.length
  execution : it.execution = none ↔ s.isCanceled it.entry.2 = true
  onTime : it.OnTime
  again : it.execution ≠ none → ∀ period, s'.period it.entry.2 = some period →
    (it.entry.1 + period, it.entry.2) ∈ it.inserted
  canceled : ∀ event,
    s'.isCanceled event = true ↔ s.isCanceled event = true ∨ Cancels it.calls event
  period : ∀ event < s.bodies.length, ¬ Retimes it.calls event → s'.period event = s.period event
  scheduled : ∀ now event time period, (now, .schedule event time period) ∈ it.calls →
    ¬ Retimes it.calls event → s'.period event = period
  runs : s'.runs = s.runs + if it.execution.isSome then 1 else 0
  wellFormed : s'.WellFormed

/-- The clock moves to the first entry. -/
lemma MicroSimulator.WellFormed.advance {s : MicroSimulator T} (h : s.WellFormed) {entry : ℤ × ℕ}
    (hbegin : s.events.begin? = some entry) :
    ({ s with now := entry.1 } : MicroSimulator T).WellFormed where
  due _ hx := begin?_le hbegin hx
  allocated := h.allocated
  nodup := h.nodup
  periods := h.periods

/-- The entry a periodic event gets for its next time takes the place of the one that is erased. -/
lemma MicroSimulator.WellFormed.replace {s s' : MicroSimulator T} (h : s.WellFormed)
    {entry : ℤ × ℕ} {rest : List (ℤ × ℕ)} (hentries : s.events.entries = entry :: rest)
    {again : Option ℤ} (hagain : ∀ time, again = some time → s.now ≤ time)
    (hnow : s'.now = s.now) (hbodies : s'.bodies = s.bodies)
    (hentries' : s'.events.entries =
      insertAll rest (again.toList.map fun time => (time, entry.2))) : s'.WellFormed := by
  have hmem : ∀ x ∈ s'.events.entries, x ∈ rest ∨ ∃ time, again = some time ∧ (time, entry.2) = x := by
    intro x hx
    simpa [hentries'] using hx
  constructor
  · intro x hx
    rw [hnow]
    rcases hmem x hx with hx | ⟨time, htime, rfl⟩
    · exact h.due x (by simp [hentries, hx])
    · exact hagain time htime
  · intro x hx
    rw [hbodies]
    rcases hmem x hx with hx | ⟨time, htime, rfl⟩
    · exact h.allocated x (by simp [hentries, hx])
    · exact h.allocated entry (by simp [hentries])
  · have hnodup := h.nodup
    rw [hentries, List.map_cons] at hnodup
    rw [hentries', ((insertAll_perm _ _).map Prod.snd).nodup_iff, List.map_append]
    cases again with
    | none => simpa using hnodup.tail
    | some time => simpa [List.nodup_append_comm] using hnodup
  · rw [hbodies]
    exact h.periods

/-- A pass whose entry is executed. -/
lemma Serves.passes {s m s' : MicroSimulator T} {entry : ℤ × ℕ} {calls : List (ℤ × Call)}
    {again : Option ℤ} (hs : s.WellFormed) (hbegin : s.events.begin? = some entry)
    (hcanceled : s.isCanceled entry.2 = false) (h : Serves { s with now := entry.1 } m calls)
    (hagain : again = (m.period entry.2).map (m.now + ·)) (hnow : s'.now = m.now)
    (hbodies : s'.bodies = m.bodies) (hstopped : s'.stopped = m.stopped)
    (hruns : s'.runs = m.runs + 1)
    (hentries : s'.events.entries =
      (insertAll m.events.entries (again.toList.map fun time => (time, entry.2))).tail) :
    Passes s s' ⟨entry, some ⟨entry.1, calls, again⟩⟩ := by
  obtain ⟨rest, hrest⟩ := List.head?_eq_some_iff.mp hbegin
  have hmem : entry ∈ s.events.entries := by simp [hrest]
  have hm : m.WellFormed := h.wellFormed (hs.advance hbegin)
  have hclock : m.now = entry.1 := h.now
  have hlater : ∀ time, again = some time → m.now ≤ time := by
    intro time htime
    rw [hagain, Option.map_eq_some_iff] at htime
    obtain ⟨period, hperiod, rfl⟩ := htime
    obtain ⟨body, hbody, hperiod⟩ := Option.bind_eq_some_iff.mp hperiod
    have hpositive := hm.periods body (List.mem_of_getElem? hbody) period hperiod
    omega
  have hqueue : m.events.entries = entry :: insertAll rest (entriesOf calls) := by
    rw [h.entries, hrest]
    exact insertAll_cons_of_le h.later rest
  have hqueue' : s'.events.entries = insertAll (insertAll rest (entriesOf calls))
      (again.toList.map fun time => (time, entry.2)) := by
    rw [hentries, hqueue, insertAll_cons_of_le, List.tail_cons]
    simpa [← hclock] using hlater
  have hperiod' : ∀ event, s'.period event = m.period event := by
    simp [MicroSimulator.period, hbodies]
  exact {
    entry_le := hs.due entry hmem
    allocated := hs.allocated entry hmem
    now := hnow.trans hclock
    stopped := hstopped.trans h.stopped
    entries := ⟨rest, hrest, by
      rw [hqueue', ← insertAll_append]
      simp [Iteration.inserted]⟩
    later := by
      intro x hx
      simp only [Iteration.inserted, List.mem_append, List.mem_map, Option.mem_toList] at hx
      rcases hx with hx | ⟨time, htime, rfl⟩
      · exact h.later x hx
      · rw [← hclock]
        exact hlater time htime
    grows := by
      rw [hbodies]
      exact h.grows
    fresh := by
      rw [hbodies]
      exact h.fresh
    execution := by simp [hcanceled]
    onTime := by
      rintro execution ⟨⟩
      exact ⟨rfl, h.clock⟩
    again := by
      intro _ period hperiod
      rw [hperiod'] at hperiod
      simp [Iteration.inserted, hagain, hperiod, hclock]
    canceled := by
      intro event
      have hsame : s'.isCanceled event = m.isCanceled event := by
        simp [MicroSimulator.isCanceled, hbodies]
      rw [hsame]
      exact h.canceled event
    period := by
      intro event hevent hretimes
      rw [hperiod']
      exact h.period event hevent hretimes
    scheduled := by
      intro now event time period hcall hretimes
      rw [hperiod']
      exact h.scheduled now event time period hcall hretimes
    runs := by
      rw [hruns, h.runs]
      simp
    wellFormed := hm.replace hqueue hlater hnow hbodies hqueue' }

/-- A pass whose entry was cancelled. -/
lemma MicroSimulator.WellFormed.skips {s : MicroSimulator T} {entry : ℤ × ℕ} (hs : s.WellFormed)
    (hbegin : s.events.begin? = some entry) (hcanceled : s.isCanceled entry.2 = true) :
    Passes s { s with now := entry.1, events := s.events.eraseBegin } ⟨entry, none⟩ := by
  obtain ⟨rest, hrest⟩ := List.head?_eq_some_iff.mp hbegin
  have hmem : entry ∈ s.events.entries := by simp [hrest]
  exact {
    entry_le := hs.due entry hmem
    allocated := hs.allocated entry hmem
    now := by simp
    stopped := by simp
    entries := ⟨rest, hrest, by simp [Iteration.inserted, hrest]⟩
    later := by simp [Iteration.inserted]
    grows := le_rfl
    fresh := by simp [Iteration.calls]
    execution := by simp [hcanceled]
    onTime := by simp [Iteration.OnTime]
    again := by simp
    canceled := by simp [Iteration.calls, Cancels, MicroSimulator.isCanceled]
    period := by simp [MicroSimulator.period]
    scheduled := by simp [Iteration.calls]
    runs := by simp
    wellFormed := (hs.advance hbegin).replace hrest (by simp) rfl rfl
      (by simp [hrest] : _ = insertAll rest ((none : Option ℤ).toList.map _)) }

lemma MicroSimulator.iterate_entry (s : MicroSimulator T) (exec : T → W → Program T W) (world : W)
    (entry : ℤ × ℕ) : (s.iterate exec world entry).1.entry = entry := by
  simp only [MicroSimulator.iterate]
  split
  case h_1 => split <;> simp
  case h_2 => simp

/-- **One pass of the loop** whose calls are legal. -/
theorem MicroSimulator.iterate_passes {exec : T → W → Program T W} {s : MicroSimulator T}
    (world : W) {entry : ℤ × ℕ} (hs : s.WellFormed) (hbegin : s.events.begin? = some entry)
    (hlegal : ∀ call ∈ (s.iterate exec world entry).1.calls, call.2.Legal call.1) :
    Passes s (s.iterate exec world entry).2.2 (s.iterate exec world entry).1 := by
  obtain ⟨rest, hrest⟩ := List.head?_eq_some_iff.mp hbegin
  have hlt := hs.allocated entry (by simp [hrest])
  have hbody : s.bodies[entry.2]? = some s.bodies[entry.2] := List.getElem?_eq_getElem hlt
  simp only [MicroSimulator.iterate, hbody] at hlegal ⊢
  split at hlegal
  case isTrue hcanceled =>
    rw [if_pos hcanceled]
    exact hs.skips hbegin (by simpa [MicroSimulator.isCanceled, hbody] using hcanceled)
  case isFalse hcanceled =>
    rw [if_neg hcanceled]
    have hactive : s.isCanceled entry.2 = false := by
      simpa [MicroSimulator.isCanceled, hbody] using hcanceled
    simp only [MicroSimulator.execute] at hlegal ⊢
    split at hlegal
    case h_1 period hperiod =>
      have hserves := (exec s.bodies[entry.2].body world).serves { s with now := entry.1 } hlegal
      exact hserves.passes hs hbegin hactive (by simp [hperiod]) rfl rfl rfl rfl (by simp)
    case h_2 hperiod =>
      have hserves := (exec s.bodies[entry.2].body world).serves { s with now := entry.1 } hlegal
      exact hserves.passes hs hbegin hactive (by simp [hperiod]) rfl rfl rfl rfl (by simp)

end CpsCore

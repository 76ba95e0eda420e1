import Mathlib
import CpsCore.Scheduler.MicroSimulator

/-!
# What a task can do to the simulator

* `MicroSimulator.WellFormed`: no entry is overdue, each body is in the queue at most once, and
  periods are positive.  The operations keep it.
* `Call.Legal`: the call schedules nothing in the past, sets a positive period only, and does not
  stop the simulator.
* `Serves s s' calls`: all that is left of a task's calls — the entries they insert, the events
  they cancel and re-time.  It composes (`Serves.trans`), so that one lemma for each call gives
  `Program.serves` for every task whose calls are legal.
-/

namespace CpsCore

open Multimap

variable {T W : Type}

/-! ## The invariant -/

structure MicroSimulator.WellFormed (s : MicroSimulator T) : Prop where
  due : ∀ x ∈ s.events.entries, s.now ≤ x.1
  allocated : ∀ x ∈ s.events.entries, x.2 < s.bodies.length
  nodup : (s.events.entries.map Prod.snd).Nodup
  periods : ∀ body ∈ s.bodies, ∀ period, body.period = some period → 0 < period

lemma MicroSimulator.wellFormed_initial (now : ℤ) :
    MicroSimulator.WellFormed ({ now := now } : MicroSimulator T) := by
  constructor <;> simp

/-- With the clock at that moment. -/
def Call.Legal (clock : ℤ) : Call → Prop
  | .schedule _ time period => clock ≤ time ∧ ∀ p, period = some p → 0 < p
  | .changePeriod _ period => 0 < period
  | .stop => False
  | _ => True

/-! ## The calls -/

def Call.insertion? : Call → Option (ℤ × ℕ)
  | .schedule event time _ => some (time, event)
  | _ => none

/-- The entries some calls insert, in their order. -/
def entriesOf (calls : List (ℤ × Call)) : List (ℤ × ℕ) :=
  calls.filterMap fun call => call.2.insertion?

@[simp] lemma entriesOf_nil : entriesOf [] = [] := by
  simp [entriesOf]

@[simp] lemma entriesOf_append (calls calls' : List (ℤ × Call)) :
    entriesOf (calls ++ calls') = entriesOf calls ++ entriesOf calls' := by
  simp [entriesOf]

lemma mem_entriesOf {calls : List (ℤ × Call)} {x : ℤ × ℕ} :
    x ∈ entriesOf calls ↔ ∃ now period, (now, .schedule x.2 x.1 period) ∈ calls := by
  simp only [entriesOf, List.mem_filterMap, Prod.exists]
  constructor
  · rintro ⟨now, call, hmem, hcall⟩
    cases call with
    | schedule event time period =>
        simp only [Call.insertion?, Option.some_inj] at hcall
        subst hcall
        exact ⟨now, period, hmem⟩
    | _ => simp [Call.insertion?] at hcall
  · rintro ⟨now, period, hmem⟩
    exact ⟨now, _, hmem, rfl⟩

def Cancels (calls : List (ℤ × Call)) (event : ℕ) : Prop :=
  ∃ now, (now, .cancel event) ∈ calls

def Retimes (calls : List (ℤ × Call)) (event : ℕ) : Prop :=
  ∃ now period, (now, .changePeriod event period) ∈ calls

lemma Cancels.append {calls calls' : List (ℤ × Call)} {event : ℕ} :
    Cancels (calls ++ calls') event ↔ Cancels calls event ∨ Cancels calls' event := by
  simp [Cancels, exists_or]

lemma Retimes.append {calls calls' : List (ℤ × Call)} {event : ℕ} :
    Retimes (calls ++ calls') event ↔ Retimes calls event ∨ Retimes calls' event := by
  simp [Retimes, exists_or]

/-- What `calls` made of the state `s`. -/
structure Serves (s s' : MicroSimulator T) (calls : List (ℤ × Call)) : Prop where
  now : s'.now = s.now
  runs : s'.runs = s.runs
  stopped : s'.stopped = s.stopped
  entries : s'.events.entries = insertAll s.events.entries (entriesOf calls)
  clock : ∀ call ∈ calls, call.1 = s.now
  later : ∀ x ∈ entriesOf calls, s.now ≤ x.1
  grows : s.bodies.length ≤ s'.bodies.length
  fresh : ∀ x ∈ entriesOf calls, s.bodies.length ≤ x.2 ∧ x.2 < s'.bodies.length
  canceled : ∀ event, s'.isCanceled event = true ↔ s.isCanceled event = true ∨ Cancels calls event
  period : ∀ event < s.bodies.length, ¬ Retimes calls event → s'.period event = s.period event
  scheduled : ∀ now event time period, (now, .schedule event time period) ∈ calls →
    ¬ Retimes calls event → s'.period event = period
  wellFormed : s.WellFormed → s'.WellFormed

lemma Serves.refl (s : MicroSimulator T) : Serves s s [] := by
  constructor <;> simp [Cancels]

lemma Serves.trans {s m s' : MicroSimulator T} {calls calls' : List (ℤ × Call)}
    (h : Serves s m calls) (h' : Serves m s' calls') : Serves s s' (calls ++ calls') where
  now := h'.now.trans h.now
  runs := h'.runs.trans h.runs
  stopped := h'.stopped.trans h.stopped
  entries := by rw [h'.entries, h.entries, entriesOf_append, insertAll_append]
  clock call hcall := by
    rcases List.mem_append.mp hcall with hcall | hcall
    · exact h.clock call hcall
    · rw [h'.clock call hcall, h.now]
  later x hx := by
    rw [entriesOf_append] at hx
    rcases List.mem_append.mp hx with hx | hx
    · exact h.later x hx
    · rw [← h.now]
      exact h'.later x hx
  grows := h.grows.trans h'.grows
  fresh x hx := by
    rw [entriesOf_append] at hx
    have hgrows := h.grows
    have hgrows' := h'.grows
    rcases List.mem_append.mp hx with hx | hx
    · have hfresh := h.fresh x hx
      omega
    · have hfresh := h'.fresh x hx
      omega
  canceled event := by rw [h'.canceled, h.canceled, Cancels.append, or_assoc]
  period event hevent hretimes := by
    rw [Retimes.append, not_or] at hretimes
    rw [h'.period event (lt_of_lt_of_le hevent h.grows) hretimes.2, h.period event hevent hretimes.1]
  scheduled now event time period hcall hretimes := by
    rw [Retimes.append, not_or] at hretimes
    rcases List.mem_append.mp hcall with hcall | hcall
    · have hfresh := h.fresh (time, event) (mem_entriesOf.mpr ⟨now, period, hcall⟩)
      rw [h'.period event hfresh.2 hretimes.2, h.scheduled now event time period hcall hretimes.1]
    · exact h'.scheduled now event time period hcall hretimes.2
  wellFormed hs := h'.wellFormed (h.wellFormed hs)

/-! ## One call -/

lemma Event.lock_eq_some {s : MicroSimulator T} {event : ℕ} {body : EventBody T}
    (h : Event.lock s event = some body) : s.bodies[event]? = some body := by
  unfold Event.lock at h
  split at h
  · exact h
  · exact absurd h (by simp)

/-- Only the body of `event` changes. -/
lemma serves_set {s : MicroSimulator T} {event : ℕ} {body body' : EventBody T}
    (hbody : s.bodies[event]? = some body) {call : Call} (hcall : call.insertion? = none)
    (hcanceled : body'.isCanceled = true ↔ body.isCanceled = true ∨ call = .cancel event)
    (hother : ∀ other, call = .cancel other → other = event)
    (hperiod : (∃ p, call = .changePeriod event p) ∨ body'.period = body.period)
    (hpositive : (∀ p, body.period = some p → 0 < p) → ∀ p, body'.period = some p → 0 < p) :
    Serves s { s with bodies := s.bodies.set event body' } [(s.now, call)] := by
  obtain ⟨hlt, hget⟩ := List.getElem?_eq_some_iff.mp hbody
  have hentries : entriesOf [(s.now, call)] = [] := by simp [entriesOf, hcall]
  have hlookup : ∀ other, (s.bodies.set event body')[other]? =
      if other = event then some body' else s.bodies[other]? := by
    intro other
    rw [List.getElem?_set]
    by_cases h : event = other
    · subst h
      simp [hlt]
    · simp [h, Ne.symm h]
  refine ⟨rfl, rfl, rfl, by simp [hentries], by simp, by simp [hentries], by simp,
    by simp [hentries], ?_, ?_, ?_, ?_⟩
  · intro other
    simp only [MicroSimulator.isCanceled, hlookup, Cancels, List.mem_singleton, Prod.mk.injEq]
    split
    case isTrue heq =>
      subst heq
      simp only [hbody, Option.any_some, hcanceled, exists_eq_left, eq_comm]
    case isFalse hne =>
      have hcall : ¬ call = .cancel other := fun h => hne (hother other h)
      simp [eq_comm (b := call), hcall]
  · intro other _ hretimes
    simp only [MicroSimulator.period, hlookup]
    split
    case isTrue heq =>
      subst heq
      rcases hperiod with ⟨p, rfl⟩ | hperiod
      · exact absurd ⟨s.now, p, by simp⟩ hretimes
      · simp [hbody, hperiod]
    case isFalse => rfl
  · intro now other time period hmem
    simp only [List.mem_singleton, Prod.mk.injEq] at hmem
    rw [← hmem.2] at hcall
    exact absurd hcall (by simp [Call.insertion?])
  · intro hs
    refine ⟨hs.due, by simpa using hs.allocated, hs.nodup, ?_⟩
    intro b hb p hp
    rcases List.mem_or_eq_of_mem_set hb with hb | rfl
    · exact hs.periods b hb p hp
    · exact hpositive (hs.periods body (List.mem_of_getElem? hbody)) p hp

lemma serves_cancel (s : MicroSimulator T) (event : ℕ) :
    Serves s (Event.cancel s event)
      (if (Event.lock s event).isSome then [(s.now, .cancel event)] else []) := by
  unfold Event.cancel
  cases hlock : Event.lock s event with
  | none => exact Serves.refl s
  | some body =>
      have hbody := Event.lock_eq_some hlock
      apply serves_set hbody <;> simp [Call.insertion?]

lemma serves_changePeriod (s : MicroSimulator T) (event : ℕ) {period : ℤ}
    (hperiod : 0 < period) :
    Serves s (Event.changePeriod s event period)
      (if (Event.lock s event).isSome then [(s.now, .changePeriod event period)] else []) := by
  unfold Event.changePeriod
  cases hlock : Event.lock s event with
  | none => exact Serves.refl s
  | some body =>
      have hbody := Event.lock_eq_some hlock
      simp only [Option.isSome_some, if_true]
      split
      case isTrue hnone =>
        -- the body is written back as it is
        have hsame : s = { s with bodies := s.bodies.set event body } := by
          obtain ⟨hlt, hget⟩ := List.getElem?_eq_some_iff.mp hbody
          rw [← hget, List.set_getElem_self]
        have hserves : Serves s { s with bodies := s.bodies.set event body }
            [(s.now, .changePeriod event period)] := by
          apply serves_set hbody <;> simp [Call.insertion?]
        rwa [← hsame] at hserves
      case isFalse =>
        apply serves_set hbody <;> simp [Call.insertion?, hperiod]

/-- A call that only asks. -/
lemma serves_query (s : MicroSimulator T) {call : Call}
    (hcall : (∃ event, call = .isCanceled event) ∨ call = .now) :
    Serves s s [(s.now, call)] := by
  rcases hcall with ⟨event, rfl⟩ | rfl <;>
    constructor <;> simp [entriesOf, Call.insertion?, Cancels]

/-- A new event keeps the queue well formed. -/
lemma MicroSimulator.WellFormed.schedule {s : MicroSimulator T} (hs : s.WellFormed) (task : T)
    {initialFromNow : ℤ} {period : Option ℤ} (hinitial : 0 ≤ initialFromNow)
    (hperiod : ∀ p, period = some p → 0 < p) :
    (s.schedule task initialFromNow period).2.WellFormed := by
  have hmem : ∀ x, x ∈ (s.schedule task initialFromNow period).2.events.entries ↔
      x ∈ s.events.entries ∨ x = (s.now + initialFromNow, s.bodies.length) := by
    intro x
    simp [MicroSimulator.schedule, or_comm]
  constructor
  · intro x hx
    rcases (hmem x).mp hx with hx | rfl
    · exact hs.due x hx
    · change s.now ≤ s.now + initialFromNow
      omega
  · intro x hx
    simp only [MicroSimulator.schedule, List.length_append, List.length_singleton]
    rcases (hmem x).mp hx with hx | rfl
    · exact (hs.allocated x hx).trans (Nat.lt_succ_self _)
    · simp
  · have hperm := (insertAll_perm s.events.entries
      [(s.now + initialFromNow, s.bodies.length)]).map Prod.snd
    simp only [MicroSimulator.schedule, entries_insert]
    rw [hperm.nodup_iff, List.map_append, List.nodup_append]
    refine ⟨hs.nodup, by simp, ?_⟩
    rintro event hevent _ hnew rfl
    obtain ⟨x, hx, rfl⟩ := List.mem_map.mp hevent
    have hlt := hs.allocated x hx
    simp at hnew
    omega
  · intro body hbody
    simp only [MicroSimulator.schedule, List.mem_append, List.mem_singleton] at hbody
    rcases hbody with hbody | rfl
    · exact hs.periods body hbody
    · exact hperiod

lemma serves_schedule (s : MicroSimulator T) (task : T) {initialFromNow : ℤ}
    {period : Option ℤ} (hinitial : 0 ≤ initialFromNow)
    (hperiod : ∀ p, period = some p → 0 < p) :
    Serves s (s.schedule task initialFromNow period).2
      [(s.now, .schedule s.bodies.length (s.now + initialFromNow) period)] := by
  have hentries : entriesOf [(s.now, .schedule s.bodies.length (s.now + initialFromNow) period)] =
      [(s.now + initialFromNow, s.bodies.length)] := by
    simp [entriesOf, Call.insertion?]
  have hlookup : ∀ event, event ≠ s.bodies.length →
      (s.bodies ++ [⟨task, period, false⟩])[event]? = s.bodies[event]? := by
    intro event hne
    rcases lt_or_gt_of_ne hne with hlt | hgt
    · rw [List.getElem?_append_left hlt]
    · rw [List.getElem?_eq_none (by simp; omega), List.getElem?_eq_none (by omega)]
  refine ⟨rfl, rfl, rfl, by simp [MicroSimulator.schedule, hentries], by simp,
    by simp [hentries, hinitial], by simp [MicroSimulator.schedule],
    by simp [hentries, MicroSimulator.schedule], ?_, ?_, ?_, ?_⟩
  · intro event
    simp only [MicroSimulator.isCanceled, MicroSimulator.schedule]
    by_cases heq : event = s.bodies.length
    · subst heq
      simp [Cancels]
    · rw [hlookup event heq]
      simp [Cancels]
  · intro event hevent _
    simp only [MicroSimulator.period, MicroSimulator.schedule]
    rw [hlookup event hevent.ne]
  · intro now event time p hmem _
    simp only [List.mem_singleton, Prod.mk.injEq, Call.schedule.injEq] at hmem
    obtain ⟨-, rfl, -, rfl⟩ := hmem
    simp [MicroSimulator.period, MicroSimulator.schedule]
  · intro hs
    exact hs.schedule task hinitial hperiod

/-! ## A task -/

/-- **Every task** does no more than its calls, if they are legal. -/
theorem Program.serves (program : Program T W) (s : MicroSimulator T)
    (h : ∀ call ∈ (program.run s).1, call.2.Legal call.1) :
    Serves s (program.run s).2.2 (program.run s).1 := by
  induction program generalizing s with
  | done world => exact Serves.refl s
  | schedule task initialFromNow period next ih =>
      obtain ⟨⟨hinitial, hperiod⟩, hnext⟩ := List.forall_mem_cons.mp h
      exact (serves_schedule s task (by omega) hperiod).trans (ih _ _ hnext)
  | cancel event next ih =>
      simp only [Program.run] at h ⊢
      have hcancel := serves_cancel s event
      split at h
      case isTrue hlock =>
        simp only [hlock, if_true] at hcancel ⊢
        exact hcancel.trans (ih _ (List.forall_mem_cons.mp h).2)
      case isFalse hlock =>
        simp only [hlock] at hcancel ⊢
        exact hcancel.trans (ih _ h)
  | changePeriod event period next ih =>
      simp only [Program.run] at h ⊢
      split at h
      case isTrue hlock =>
        obtain ⟨hperiod, hnext⟩ := List.forall_mem_cons.mp h
        have hchange := serves_changePeriod s event (show 0 < period from hperiod)
        simp only [hlock, if_true] at hchange ⊢
        exact hchange.trans (ih _ hnext)
      case isFalse hlock =>
        -- the handle reaches no body, so whatever the period is, nothing is set
        have hsame : Event.changePeriod s event period = s := by
          rw [Event.changePeriod, Option.not_isSome_iff_eq_none.mp hlock]
        rw [if_neg hlock, hsame]
        rw [hsame] at h
        exact ih s h
  | isCanceled event next ih =>
      exact (serves_query s (Or.inl ⟨event, rfl⟩)).trans (ih _ _ (List.forall_mem_cons.mp h).2)
  | now next ih =>
      exact (serves_query s (Or.inr rfl)).trans (ih _ _ (List.forall_mem_cons.mp h).2)
  | stop next ih => exact (List.forall_mem_cons.mp h).1.elim

end CpsCore

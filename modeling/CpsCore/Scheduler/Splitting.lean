import Mathlib
import CpsCore.Scheduler.Simulation

/-!
# Simulating in steps

To simulate for one duration and then for another is to simulate for their sum.  The end of a
simulation is where the loop stops and what it sets the clock to; a pass looks at neither, as it
sets the clock to the time of its entry first.

* `Returns` — the loop without its fuel.
* `returns_split` — a loop up to some time is one up to an earlier time, and another one from
  there.
* `simulate_splits` — so is `simulate`, as long as no task stops the simulator.
-/

namespace CpsCore

variable {T W : Type}

/-! ## Tasks that do not stop -/

/-- The task does not stop the simulator. -/
def Program.NeverStops : Program T W → Prop
  | .done _ => True
  | .schedule _ _ _ next => ∀ event, (next event).NeverStops
  | .cancel _ next => next.NeverStops
  | .changePeriod _ _ next => next.NeverStops
  | .isCanceled _ next => ∀ canceled, (next canceled).NeverStops
  | .now next => ∀ time, (next time).NeverStops
  | .stop _ => False

/-- What `simulate` looks at besides the queue is as it was. -/
structure Undisturbed (s s' : MicroSimulator T) : Prop where
  now : s'.now = s.now
  stopped : s'.stopped = s.stopped
  showProgress : s'.showProgress = s.showProgress

namespace Undisturbed

lemma refl (s : MicroSimulator T) : Undisturbed s s := ⟨rfl, rfl, rfl⟩

lemma trans {s m s' : MicroSimulator T} (h : Undisturbed s m) (h' : Undisturbed m s') :
    Undisturbed s s' :=
  ⟨h'.now.trans h.now, h'.stopped.trans h.stopped, h'.showProgress.trans h.showProgress⟩

lemma cancel (s : MicroSimulator T) (event : ℕ) : Undisturbed s (Event.cancel s event) := by
  unfold Event.cancel
  split
  · exact ⟨rfl, rfl, rfl⟩
  · exact refl s

lemma changePeriod (s : MicroSimulator T) (event : ℕ) (period : ℤ) :
    Undisturbed s (Event.changePeriod s event period) := by
  unfold Event.changePeriod
  split
  · split
    · exact refl s
    · exact ⟨rfl, rfl, rfl⟩
  · exact refl s

end Undisturbed

lemma Program.NeverStops.undisturbed {program : Program T W} (h : program.NeverStops)
    (s : MicroSimulator T) : Undisturbed s (program.run s).2.2 := by
  induction program generalizing s with
  | done world => exact .refl s
  | schedule task initialFromNow period next ih =>
      exact Undisturbed.trans (m := (s.schedule task initialFromNow period).2) ⟨rfl, rfl, rfl⟩
        (ih _ (h _) _)
  | cancel event next ih => exact (Undisturbed.cancel s event).trans (ih h _)
  | changePeriod event period next ih => exact (Undisturbed.changePeriod s event period).trans (ih h _)
  | isCanceled event next ih => exact ih _ (h _) s
  | now next ih => exact ih _ (h _) s
  | stop next ih => exact h.elim

/-! ## The counter of runs -/

namespace MicroSimulator

/-- The counter stands higher. -/
def plus (s : MicroSimulator T) (runs : ℕ) : MicroSimulator T := { s with runs := s.runs + runs }

lemma cancel_plus (s : MicroSimulator T) (event runs : ℕ) :
    Event.cancel (s.plus runs) event = (Event.cancel s event).plus runs := by
  have hlock : Event.lock (s.plus runs) event = Event.lock s event := rfl
  rw [Event.cancel, Event.cancel, hlock]
  cases Event.lock s event with
  | none => rfl
  | some body => rfl

lemma changePeriod_plus (s : MicroSimulator T) (event runs : ℕ) (period : ℤ) :
    Event.changePeriod (s.plus runs) event period =
      (Event.changePeriod s event period).plus runs := by
  have hlock : Event.lock (s.plus runs) event = Event.lock s event := rfl
  rw [Event.changePeriod, Event.changePeriod, hlock]
  cases Event.lock s event with
  | none => rfl
  | some body =>
      show (if body.period = none then _ else _) = plus (if body.period = none then _ else _) runs
      split <;> rfl

/-- A task does not look at the counter. -/
lemma run_plus (program : Program T W) (s : MicroSimulator T) (runs : ℕ) :
    program.run (s.plus runs) =
      ((program.run s).1, (program.run s).2.1, (program.run s).2.2.plus runs) := by
  induction program generalizing s with
  | done world => rfl
  | schedule task initialFromNow period next ih =>
      have hscheduled : (s.plus runs).schedule task initialFromNow period =
          ((s.schedule task initialFromNow period).1,
            (s.schedule task initialFromNow period).2.plus runs) := rfl
      rw [Program.run, hscheduled, ih]
      rfl
  | cancel event next ih =>
      rw [Program.run, Program.run, cancel_plus, ih]
      rfl
  | changePeriod event period next ih =>
      rw [Program.run, Program.run, changePeriod_plus, ih]
      rfl
  | isCanceled event next ih =>
      have hcanceled : Event.isCanceled (s.plus runs) event = Event.isCanceled s event := rfl
      rw [Program.run, Program.run, hcanceled, ih]
      rfl
  | now next ih =>
      have hnow : (s.plus runs).now = s.now := rfl
      rw [Program.run, Program.run, hnow, ih]
  | stop next ih =>
      have hstop : (s.plus runs).stop = s.stop.plus runs := rfl
      rw [Program.run, Program.run, hstop, ih]
      rfl

lemma execute_plus (exec : T → W → Program T W) (s : MicroSimulator T) (world : W) (event : ℕ)
    (task : T) (runs : ℕ) : (s.plus runs).execute exec world event task =
      ((s.execute exec world event task).1, (s.execute exec world event task).2.1,
        (s.execute exec world event task).2.2.plus runs) := by
  have hperiod : ((((exec task world).run s).2.2).plus runs).period event =
      (((exec task world).run s).2.2).period event := rfl
  have hnow : (s.plus runs).now = s.now := rfl
  rw [execute, execute, run_plus]
  simp only [hperiod, hnow]
  cases (((exec task world).run s).2.2).period event with
  | none => simp [plus, Nat.add_right_comm]
  | some period => simp [plus, Nat.add_right_comm]

lemma iterate_plus (exec : T → W → Program T W) (s : MicroSimulator T) (world : W)
    (entry : ℤ × ℕ) (runs : ℕ) : (s.plus runs).iterate exec world entry =
      ((s.iterate exec world entry).1, (s.iterate exec world entry).2.1,
        (s.iterate exec world entry).2.2.plus runs) := by
  have hbodies : (s.plus runs).bodies = s.bodies := rfl
  rw [iterate, iterate]
  simp only [hbodies]
  cases s.bodies[entry.2]? with
  | none => rfl
  | some body =>
      cases hcanceled : body.isCanceled with
      | true => simp [hcanceled, plus]
      | false =>
          have hexecute := execute_plus exec { s with now := entry.1 } world entry.2 body.body runs
          simp only [plus] at hexecute
          simp [hcanceled, plus, hexecute]

lemma execute_undisturbed {exec : T → W → Program T W}
    (hnever : ∀ task world, (exec task world).NeverStops) (s : MicroSimulator T) (world : W)
    (event : ℕ) (task : T) : Undisturbed s (s.execute exec world event task).2.2 := by
  refine ((hnever task world).undisturbed s).trans ?_
  rw [execute]
  cases (((exec task world).run s).2.2).period event with
  | none => exact ⟨rfl, rfl, rfl⟩
  | some period => exact ⟨rfl, rfl, rfl⟩

lemma iterate_undisturbed {exec : T → W → Program T W}
    (hnever : ∀ task world, (exec task world).NeverStops) (s : MicroSimulator T) (world : W)
    (entry : ℤ × ℕ) :
    Undisturbed { s with now := entry.1 } (s.iterate exec world entry).2.2 := by
  rw [iterate]
  cases s.bodies[entry.2]? with
  | none => exact ⟨rfl, rfl, rfl⟩
  | some body =>
      cases hcanceled : body.isCanceled with
      | true => exact ⟨by simp [hcanceled], by simp [hcanceled], by simp [hcanceled]⟩
      | false =>
          have hexecute := execute_undisturbed hnever { s with now := entry.1 } world entry.2 body.body
          simp only [hcanceled, Bool.false_eq_true, if_false]
          exact hexecute.trans ⟨rfl, rfl, rfl⟩

end MicroSimulator

/-! ## The loop -/

/-- The loop up to `endSim` gets there, with these passes. -/
inductive Returns (exec : T → W → Program T W) (endSim : ℤ) :
    MicroSimulator T → W → List Iteration → W → MicroSimulator T → Prop
  | late {s world} : (∀ entry, s.events.begin? = some entry → endSim < entry.1) →
      Returns exec endSim s world [] world { s with now := endSim }
  | pass {s world entry its world' s'} : s.events.begin? = some entry → entry.1 ≤ endSim →
      Returns exec endSim (s.iterate exec world entry).2.2 (s.iterate exec world entry).2.1 its
        world' s' →
      Returns exec endSim s world ((s.iterate exec world entry).1 :: its) world' s'

section Loop

variable {exec : T → W → Program T W} {endSim : ℤ} {s s' : MicroSimulator T} {world world' : W}
  {its : List Iteration}

lemma Returns.now (h : Returns exec endSim s world its world' s') : s'.now = endSim := by
  induction h with
  | late _ => rfl
  | pass _ _ _ ih => exact ih

lemma Returns.keeps (hnever : ∀ task world, (exec task world).NeverStops)
    (h : Returns exec endSim s world its world' s') :
    s'.stopped = s.stopped ∧ s'.showProgress = s.showProgress := by
  induction h with
  | late _ => exact ⟨rfl, rfl⟩
  | @pass s world entry its world' s' _ _ _ ih =>
      have hpass := s.iterate_undisturbed hnever world entry
      exact ⟨ih.1.trans hpass.stopped, ih.2.trans hpass.showProgress⟩

/-- It does not matter where the clock stands before. -/
lemma Returns.clock (now : ℤ) (h : Returns exec endSim { s with now := now } world its world' s') :
    Returns exec endSim s world its world' s' := by
  cases h with
  | late hlate => exact .late hlate
  | pass hbegin hdue hreturns => exact .pass hbegin hdue hreturns

lemma returns_plus (runs : ℕ) : Returns exec endSim (s.plus runs) world its world' s' ↔
    ∃ m, Returns exec endSim s world its world' m ∧ s' = m.plus runs := by
  constructor
  · intro h
    generalize hs : s.plus runs = t at h
    induction h generalizing s with
    | late hlate =>
        subst hs
        exact ⟨_, .late hlate, rfl⟩
    | pass hbegin hdue _ ih =>
        subst hs
        rw [s.iterate_plus] at ih ⊢
        obtain ⟨m, hm, rfl⟩ := ih rfl
        exact ⟨m, .pass hbegin hdue hm, rfl⟩
  · rintro ⟨m, h, rfl⟩
    induction h with
    | late hlate => exact .late (s := MicroSimulator.plus _ runs) hlate
    | @pass s world entry its world' s' hbegin hdue _ ih =>
        have hpass := s.iterate_plus exec world entry runs
        have hreturns := @Returns.pass T W exec endSim (s.plus runs) world entry its world'
          (s'.plus runs) hbegin hdue (by rw [hpass]; exact ih)
        rwa [hpass] at hreturns

/-- **The loop, split.**  Up to the earlier time it makes the same passes, and from there on it
goes on as if it had not stopped. -/
theorem returns_split {mid : ℤ} (hmid : mid ≤ endSim) :
    Returns exec endSim s world its world' s' ↔
      ∃ its₁ world₁ s₁ its₂, Returns exec mid s world its₁ world₁ s₁ ∧
        Returns exec endSim s₁ world₁ its₂ world' s' ∧ its = its₁ ++ its₂ := by
  constructor
  · intro h
    induction h with
    | @late s world hlate =>
        refine ⟨[], world, { s with now := mid }, [], .late ?_, .late hlate, rfl⟩
        intro entry hbegin
        exact lt_of_le_of_lt hmid (hlate entry hbegin)
    | @pass s world entry its world' s' hbegin hdue hreturns ih =>
        by_cases hentry : entry.1 ≤ mid
        · obtain ⟨its₁, world₁, s₁, its₂, h₁, h₂, rfl⟩ := ih
          exact ⟨_, world₁, s₁, its₂, .pass hbegin hentry h₁, h₂, rfl⟩
        · refine ⟨[], world, { s with now := mid }, _, .late ?_, ?_, rfl⟩
          · intro entry' hbegin'
            obtain rfl : entry = entry' := Option.some.inj (hbegin.symm.trans hbegin')
            exact not_le.mp hentry
          · exact @Returns.pass T W exec endSim { s with now := mid } world entry its world' s'
              hbegin hdue hreturns
  · rintro ⟨its₁, world₁, s₁, its₂, h₁, h₂, rfl⟩
    induction h₁ with
    | late _ => exact h₂.clock
    | pass hbegin hdue _ ih => exact .pass hbegin (hdue.trans hmid) (ih h₂)

/-- **The loop** reaches its end exactly if it does with some fuel. -/
lemma loop_returns_iff (hnever : ∀ task world, (exec task world).NeverStops)
    (hstopped : s.stopped = false) (hnow : s.now ≤ endSim) :
    (∃ fuel, s.loop exec endSim fuel world = some (its, world', s')) ↔
      Returns exec endSim s world its world' s' := by
  constructor
  · rintro ⟨fuel, h⟩
    induction fuel generalizing s world its with
    | zero => simp [MicroSimulator.loop] at h
    | succ fuel ih =>
        rw [MicroSimulator.loop, if_pos hnow] at h
        cases hbegin : s.events.begin? with
        | none =>
            obtain ⟨rfl, rfl, rfl⟩ : its = [] ∧ world = world' ∧ { s with now := endSim } = s' := by
              simpa [hbegin, eq_comm] using h
            exact .late (by simp [hbegin])
        | some entry =>
            by_cases hdue : endSim < entry.1
            · obtain ⟨rfl, rfl, rfl⟩ :
                  its = [] ∧ world = world' ∧ { s with now := endSim } = s' := by
                simpa [hbegin, hdue, eq_comm] using h
              exact .late fun _ h => by obtain rfl := Option.some.inj (hbegin.symm.trans h); exact hdue
            · simp only [hbegin, hdue, hstopped, if_false, Bool.false_eq_true] at h
              obtain ⟨r, hr, heq⟩ := Option.map_eq_some_iff.mp h
              obtain ⟨rfl, hrest⟩ := Prod.ext_iff.mp heq
              obtain ⟨its', rest⟩ := r
              obtain rfl : rest = (world', s') := hrest
              have hpass := s.iterate_undisturbed hnever world entry
              exact .pass hbegin (not_lt.mp hdue) (ih (hpass.stopped.trans hstopped)
                (hpass.now.trans_le (not_lt.mp hdue)) hr)
  · intro h
    induction h with
    | @late s world hlate =>
        refine ⟨1, ?_⟩
        rw [MicroSimulator.loop, if_pos hnow]
        cases hbegin : s.events.begin? with
        | none => rfl
        | some entry => exact if_pos (hlate entry hbegin)
    | @pass s world entry its world' s' hbegin hdue _ ih =>
        have hpass := s.iterate_undisturbed hnever world entry
        obtain ⟨fuel, hfuel⟩ := ih (hpass.stopped.trans hstopped) (hpass.now.trans_le hdue)
        refine ⟨fuel + 1, ?_⟩
        rw [MicroSimulator.loop, if_pos hnow]
        simp [hbegin, not_lt.mpr hdue, hstopped, hfuel]

end Loop

/-! ## The simulation -/

section Simulation

variable (exec : T → W → Program T W) (logProgress : ℤ → ℤ → T)

/-- `simulate(duration)` returns, and leaves the simulator and the world so. -/
def Simulates (s : MicroSimulator T) (world : W) (duration : ℤ) (runs : ℕ) (its : List Iteration)
    (world' : W) (s' : MicroSimulator T) : Prop :=
  ∃ fuel, s.simulate exec logProgress fuel world duration = some (runs, its, world', s')

/-- `simulate(Milliseconds(simTime))`, for a number of milliseconds. -/
def MicroSimulator.simulateMilliseconds (simTime fuel : ℕ) (s : MicroSimulator T) (world : W) :
    Option (ℕ × List Iteration × W × MicroSimulator T) :=
  s.simulate exec logProgress fuel world (simTime * 1000000)

/-- Commands that come one after the other, with all their passes and the sum of what they
return. -/
inductive Commanded : MicroSimulator T → W → List ℕ → ℕ → List Iteration → W →
    MicroSimulator T → Prop
  | last {s world simTime runs its world' s' fuel} :
      MicroSimulator.simulateMilliseconds exec logProgress simTime fuel s world =
        some (runs, its, world', s') →
      Commanded s world [simTime] runs its world' s'
  | next {s world simTime simTimes runs₁ its₁ world₁ s₁ runs₂ its₂ world' s' fuel} :
      MicroSimulator.simulateMilliseconds exec logProgress simTime fuel s world =
        some (runs₁, its₁, world₁, s₁) →
      Commanded s₁ world₁ simTimes runs₂ its₂ world' s' →
      Commanded s world (simTime :: simTimes) (runs₁ + runs₂) (its₁ ++ its₂) world' s'

variable {exec logProgress} {s s' : MicroSimulator T} {world world' : W} {its : List Iteration}
  {runs : ℕ}

lemma simulates_iff (hnever : ∀ task world, (exec task world).NeverStops)
    (hstopped : s.stopped = false) (hprogress : s.showProgress = false) {duration : ℤ}
    (hduration : 0 ≤ duration) :
    Simulates exec logProgress s world duration runs its world' s' ↔
      Returns exec (s.now + duration) { s with runs := 0 } world its world' s' ∧
        runs = s'.runs := by
  have hloop := @loop_returns_iff T W exec (s.now + duration) { s with runs := 0 } s' world world'
    its hnever hstopped (show s.now ≤ s.now + duration by omega)
  have hsimulate : ∀ fuel, s.simulate exec logProgress fuel world duration =
      (MicroSimulator.loop exec (s.now + duration) fuel { s with runs := 0 } world).map
        fun result => (result.2.2.runs, result) := by
    intro fuel
    rw [MicroSimulator.simulate]
    simp [hprogress]
  rw [← hloop, Simulates]
  constructor
  · rintro ⟨fuel, h⟩
    rw [hsimulate] at h
    obtain ⟨result, hresult, heq⟩ := Option.map_eq_some_iff.mp h
    obtain ⟨hruns, rfl⟩ := Prod.mk.inj heq
    exact ⟨⟨fuel, hresult⟩, hruns.symm⟩
  · rintro ⟨⟨fuel, h⟩, rfl⟩
    exact ⟨fuel, by rw [hsimulate, h, Option.map_some]⟩

/-- **Two simulations in turn.**  What the first one has counted is all that the second one does
not know of. -/
lemma simulates_add_iff (hnever : ∀ task world, (exec task world).NeverStops)
    (hstopped : s.stopped = false) (hprogress : s.showProgress = false) {d₁ d₂ : ℤ} (h₁ : 0 ≤ d₁)
    (h₂ : 0 ≤ d₂) :
    Simulates exec logProgress s world (d₁ + d₂) runs its world' s' ↔
      ∃ runs₁ its₁ world₁ s₁ runs₂ its₂ s₂,
        Simulates exec logProgress s world d₁ runs₁ its₁ world₁ s₁ ∧
        Simulates exec logProgress s₁ world₁ d₂ runs₂ its₂ world' s₂ ∧
        its = its₁ ++ its₂ ∧ runs = runs₁ + runs₂ ∧ s' = { s₂ with runs := runs } := by
  have hsecond : ∀ {its₁ world₁ s₁},
      Returns exec (s.now + d₁) { s with runs := 0 } world its₁ world₁ s₁ →
      ∀ runs₂ its₂ s₂, Simulates exec logProgress s₁ world₁ d₂ runs₂ its₂ world' s₂ ↔
        Returns exec (s.now + (d₁ + d₂)) { s₁ with runs := 0 } world₁ its₂ world' s₂ ∧
          runs₂ = s₂.runs := by
    intro its₁ world₁ s₁ hfirst runs₂ its₂ s₂
    obtain ⟨hstopped₁, hprogress₁⟩ := hfirst.keeps hnever
    rw [simulates_iff hnever (hstopped₁.trans hstopped) (hprogress₁.trans hprogress) h₂, hfirst.now,
      add_assoc]
  have hreset : ∀ m : MicroSimulator T, m = MicroSimulator.plus { m with runs := 0 } m.runs := by
    intro m
    rw [MicroSimulator.plus, Nat.zero_add]
  rw [simulates_iff hnever hstopped hprogress (by omega),
    returns_split (show s.now + d₁ ≤ s.now + (d₁ + d₂) by omega)]
  constructor
  · rintro ⟨⟨its₁, world₁, s₁, its₂, hfirst, hrest, rfl⟩, rfl⟩
    rw [hreset s₁] at hrest
    obtain ⟨s₂, hs₂, rfl⟩ := (returns_plus s₁.runs).mp hrest
    refine ⟨s₁.runs, its₁, world₁, s₁, s₂.runs, its₂, s₂, ?_, ?_, rfl, Nat.add_comm _ _, rfl⟩
    · exact (simulates_iff hnever hstopped hprogress h₁).mpr ⟨hfirst, rfl⟩
    · exact (hsecond hfirst _ _ _).mpr ⟨hs₂, rfl⟩
  · rintro ⟨runs₁, its₁, world₁, s₁, runs₂, its₂, s₂, hsim₁, hsim₂, rfl, rfl, rfl⟩
    obtain ⟨hfirst, rfl⟩ := (simulates_iff hnever hstopped hprogress h₁).mp hsim₁
    obtain ⟨hrest, rfl⟩ := (hsecond hfirst _ _ _).mp hsim₂
    have hall := (returns_plus s₁.runs).mpr ⟨s₂, hrest, rfl⟩
    rw [← hreset s₁, MicroSimulator.plus, Nat.add_comm] at hall
    exact ⟨⟨its₁, world₁, s₁, its₂, hfirst, hall, rfl⟩, rfl⟩

/-- A run of commands is one simulation of their time.  Induction on the commands. -/
lemma Commanded.simulates (hnever : ∀ task world, (exec task world).NeverStops)
    {simTimes : List ℕ} (h : Commanded exec logProgress s world simTimes runs its world' s')
    (hstopped : s.stopped = false) (hprogress : s.showProgress = false) :
    Simulates exec logProgress s world (simTimes.sum * 1000000) runs its world'
      { s' with runs := runs } := by
  induction h with
  | @last s world simTime runs its world' s' fuel hcommand =>
      have hsim : Simulates exec logProgress s world (simTime * 1000000) runs its world' s' :=
        ⟨fuel, hcommand⟩
      obtain ⟨-, rfl⟩ := (simulates_iff hnever hstopped hprogress (by omega)).mp hsim
      rwa [List.sum_singleton]
  | @next s world simTime simTimes runs₁ its₁ world₁ s₁ runs₂ its₂ world' s' fuel hcommand _ ih =>
      have hsim : Simulates exec logProgress s world (simTime * 1000000) runs₁ its₁ world₁ s₁ :=
        ⟨fuel, hcommand⟩
      obtain ⟨hfirst, -⟩ := (simulates_iff hnever hstopped hprogress (by omega)).mp hsim
      obtain ⟨hstopped₁, hprogress₁⟩ := hfirst.keeps hnever
      have hrest := ih (hstopped₁.trans hstopped) (hprogress₁.trans hprogress)
      have hsum : (((simTime :: simTimes).sum : ℕ) : ℤ) * 1000000 =
          simTime * 1000000 + simTimes.sum * 1000000 := by
        rw [List.sum_cons]
        push_cast
        ring
      rw [hsum, simulates_add_iff hnever hstopped hprogress (by omega) (by omega)]
      exact ⟨runs₁, its₁, world₁, s₁, runs₂, its₂, _, hsim, hrest, rfl, rfl, rfl⟩

end Simulation

/-- **Simulating in steps.**  As long as no task stops the simulator, to simulate for the sum of
two durations is to simulate for one and then for the other: with the same passes in the same
order, the same queue and clock in the end, and a count that is the sum of the two.  So is every
run of commands of the external simulator. -/
theorem simulate_splits {exec : T → W → Program T W} {logProgress : ℤ → ℤ → T}
    (hnever : ∀ task world, (exec task world).NeverStops) {s : MicroSimulator T}
    (hstopped : s.stopped = false) (hprogress : s.showProgress = false) (world : W) :
    (∀ d₁ d₂ : ℤ, 0 ≤ d₁ → 0 ≤ d₂ → ∀ runs its world' s',
      (Simulates exec logProgress s world (d₁ + d₂) runs its world' s' ↔
        ∃ runs₁ its₁ world₁ s₁ runs₂ its₂ s₂,
          Simulates exec logProgress s world d₁ runs₁ its₁ world₁ s₁ ∧
          Simulates exec logProgress s₁ world₁ d₂ runs₂ its₂ world' s₂ ∧
          its = its₁ ++ its₂ ∧ runs = runs₁ + runs₂ ∧ s' = { s₂ with runs := runs })) ∧
    ∀ simTimes runs its world' s',
      Commanded exec logProgress s world simTimes runs its world' s' →
      Simulates exec logProgress s world (simTimes.sum * 1000000) runs its world'
        { s' with runs := runs } :=
  ⟨fun _ _ h₁ h₂ _ _ _ _ => simulates_add_iff hnever hstopped hprogress h₁ h₂,
    fun _ _ _ _ _ h => h.simulates hnever hstopped hprogress⟩

/-- The chain every 10 from 5 on, for 5 and then for 15: two bodies run at 5, which is the end of
the first simulation, and two more at 15. -/
theorem simulate_splits_chain :
    ∃ its, ∃ s' : MicroSimulator Bool,
      Simulates chain (fun _ _ => false) ((⟨{}, [], 0, 0, false, false⟩ : MicroSimulator Bool).schedule
        true 5 (some 10)).2 () (5 + 15) 4 its () s' ∧
      its.map (fun it => it.entry) = [(5, 0), (5, 1), (15, 0), (15, 2)] := by
  have hnever : ∀ task world, (chain task world).NeverStops := by
    intro task world
    cases task <;> simp [chain, Program.NeverStops]
  have hsplit := (@simulate_splits Bool Unit chain (fun _ _ => false) hnever
    ((⟨{}, [], 0, 0, false, false⟩ : MicroSimulator Bool).schedule true 5 (some 10)).2 rfl rfl ()).1
    5 15 (by omega) (by omega)
  exact ⟨_, _, (hsplit _ _ _ _).mpr ⟨2, _, (), _, 2, _, _, ⟨3, rfl⟩, ⟨3, rfl⟩, rfl, rfl, rfl⟩, rfl⟩

end CpsCore

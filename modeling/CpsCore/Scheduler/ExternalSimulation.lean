import Mathlib
import CpsCore.IPC.TypedTopics
import CpsCore.Scheduler.Splitting

/-!
# The external simulator

`ExternalSimulator` subscribes to the topic `sim_time`, and simulates for as many milliseconds as
each value says.  With its options the topic is in shared memory, where values may be missed.

* `ExternalSimulator.onSimulateCommand`: a value is a `uint64_t`, and a time an `int64_t`.
* `ExternalSimulator.Driven`: what the simulator makes of the packets that a listener hands over.
* `simulates_prefix`: a shorter simulation makes the first passes of a longer one.
* `external_simulation`: what has been simulated, whatever the publishers and the listener do.
-/

namespace CpsCore

open IPC

variable {T W : Type}

/-! ## A shorter simulation -/

section

variable {exec : T → W → Program T W} {logProgress : ℤ → ℤ → T} {s : MicroSimulator T} {world : W}

/-- There is one way through the loop. -/
lemma Returns.unique {endSim : ℤ} {its its' : List Iteration} {world₁ world₂ : W}
    {s₁ s₂ : MicroSimulator T} (h : Returns exec endSim s world its world₁ s₁)
    (h' : Returns exec endSim s world its' world₂ s₂) :
    its = its' ∧ world₁ = world₂ ∧ s₁ = s₂ := by
  induction h generalizing its' with
  | late hlate =>
      cases h' with
      | late => exact ⟨rfl, rfl, rfl⟩
      | pass hbegin hdue => exact absurd hdue (not_le.mpr (hlate _ hbegin))
  | pass hbegin hdue _ ih =>
      cases h' with
      | late hlate => exact absurd hdue (not_le.mpr (hlate _ hbegin))
      | pass hbegin' _ hreturns =>
          obtain rfl := Option.some.inj (hbegin.symm.trans hbegin')
          obtain ⟨rfl, hworld, hs⟩ := ih hreturns
          exact ⟨rfl, hworld, hs⟩

variable (hnever : ∀ task world, (exec task world).NeverStops) (hstopped : s.stopped = false)
  (hprogress : s.showProgress = false) {runs runs' : ℕ} {its its' : List Iteration}
  {world₁ world₂ : W} {s₁ s₂ : MicroSimulator T}

include hnever hstopped hprogress

lemma Simulates.now {duration : ℤ} (hduration : 0 ≤ duration)
    (h : Simulates exec logProgress s world duration runs its world₁ s₁) :
    s₁.now = s.now + duration :=
  ((simulates_iff hnever hstopped hprogress hduration).mp h).1.now

/-- **A shorter simulation** makes the first passes of a longer one. -/
lemma simulates_prefix {d d' : ℤ} (hd : 0 ≤ d) (hle : d ≤ d')
    (h : Simulates exec logProgress s world d runs its world₁ s₁)
    (h' : Simulates exec logProgress s world d' runs' its' world₂ s₂) :
    its <+: its' ∧ runs ≤ runs' := by
  obtain ⟨rest, rfl⟩ : ∃ rest, d' = d + rest := ⟨d' - d, by omega⟩
  obtain ⟨runs₁, its₁, world₃, s₃, runs₂, its₂, s₄, hfirst, -, rfl, rfl, -⟩ :=
    (simulates_add_iff hnever hstopped hprogress hd (by omega)).mp h'
  obtain ⟨hreturns, rfl⟩ := (simulates_iff hnever hstopped hprogress hd).mp h
  obtain ⟨hreturns₁, rfl⟩ := (simulates_iff hnever hstopped hprogress hd).mp hfirst
  obtain ⟨rfl, -, rfl⟩ := hreturns.unique hreturns₁
  exact ⟨List.prefix_append _ _, Nat.le_add_right _ _⟩

end

/-! ## Commands by packets -/

/-- `uint64_t`. -/
def simTimeTy : Ty true (BitVec IntWidth.w64.bits) := .pod (.raw .w64)

variable (exec : T → W → Program T W) (logProgress : ℤ → ℤ → T)

/-- `Milliseconds(simTime)` converts the value to an `int64_t`: the upper half of the values are
negative times. -/
def ExternalSimulator.onSimulateCommand (simTime : BitVec IntWidth.w64.bits) (fuel : ℕ)
    (s : MicroSimulator T) (world : W) : Option (ℕ × List Iteration × W × MicroSimulator T) :=
  s.simulate exec logProgress fuel world (simTime.toInt * 1000000)

/-- `std::bind(&ExternalSimulator::onSimulateCommand, this, _1)`, called for one packet after the
other. -/
inductive ExternalSimulator.Driven (fl : FloatCast) (data : Option DataPresentation) :
    MicroSimulator T → W → List Packet → ℕ → List Iteration → W → MicroSimulator T → Prop
  | idle {s world} : Driven fl data s world [] 0 [] world s
  | command {s world packet packets beyond simTime fuel runs₁ its₁ world₁ s₁ runs₂ its₂ world' s'} :
      forwardFromPacket fl data simTimeTy beyond packet = .ok simTime →
      onSimulateCommand exec logProgress simTime fuel s world = some (runs₁, its₁, world₁, s₁) →
      Driven fl data s₁ world₁ packets runs₂ its₂ world' s' →
      Driven fl data s world (packet :: packets) (runs₁ + runs₂) (its₁ ++ its₂) world' s'

/-- A `uint64_t` is written alike with all options, so every subscriber gets it. -/
lemma forwardFromPacket_simTime (fl : FloatCast) (data data' : Option DataPresentation)
    (val : BitVec IntWidth.w64.bits) (beyond : ℕ → UInt8) :
    forwardFromPacket fl data' simTimeTy beyond (forwardToPacket fl data simTimeTy val) =
      .ok val := by
  have hsize : (forwardToPacket fl data simTimeTy val).getSize < 2 ^ 32 := by
    rw [Packet.getSize, forwardToPacket_buffer]
    exact (IntWidth.w64.length_toBytes val).trans_lt (by decide)
  have hgets := @forwardFromPacket_forwardToPacket fl _ _ data data' simTimeTy val rfl trivial hsize
    [] beyond
  rwa [List.append_nil] at hgets

lemma forwardToPacket_simTime_injective (fl : FloatCast) (data : Option DataPresentation) :
    Function.Injective (forwardToPacket fl data simTimeTy) := by
  intro val val' h
  have hval := forwardFromPacket_simTime fl data none val fun _ => 0
  rw [h, forwardFromPacket_simTime] at hval
  exact (Except.ok.inj hval).symm

namespace ExternalSimulator.Driven

variable {exec logProgress} {fl : FloatCast} {data data' : Option DataPresentation}
  {s s' : MicroSimulator T} {world world' : W} {runs : ℕ} {its : List Iteration}

/-- The packets of values are commands with these values, as long as they are times. -/
lemma commanded {heard : List (BitVec IntWidth.w64.bits)}
    (h : Driven exec logProgress fl data' s world (heard.map (forwardToPacket fl data simTimeTy)) runs
      its world' s') (hfits : ∀ val ∈ heard, val.toNat < 2 ^ 63) :
    (heard = [] ∧ runs = 0 ∧ its = [] ∧ s' = s) ∨
      Commanded exec logProgress s world (heard.map BitVec.toNat) runs its world' s' := by
  generalize hpackets : heard.map (forwardToPacket fl data simTimeTy) = packets at h
  induction h generalizing heard with
  | idle => exact Or.inl ⟨List.map_eq_nil_iff.mp hpackets, rfl, rfl, rfl⟩
  | @command s world packet packets beyond simTime fuel runs₁ its₁ world₁ s₁ runs₂ its₂ world' s'
      hpacket hcommand hrest ih =>
      obtain ⟨val, rest, rfl, rfl, rfl⟩ := List.map_eq_cons_iff.mp hpackets
      obtain ⟨hval, hfits⟩ := List.forall_mem_cons.mp hfits
      rw [forwardFromPacket_simTime] at hpacket
      obtain rfl := Except.ok.inj hpacket
      have hcommand : MicroSimulator.simulateMilliseconds exec logProgress val.toNat fuel s world =
          some (runs₁, its₁, world₁, s₁) := by
        have htime : val.toInt = val.toNat :=
          BitVec.toInt_eq_toNat_of_lt (show 2 * val.toNat < 2 ^ 64 by omega)
        rwa [onSimulateCommand, htime] at hcommand
      rcases ih hfits rfl with ⟨rfl, rfl, rfl, rfl⟩ | hcommanded
      · cases hrest
        rw [List.append_nil]
        exact Or.inr (.last hcommand)
      · exact Or.inr (.next hcommand hcommanded)

end ExternalSimulator.Driven

variable {exec logProgress}

/-- The time of some commands, in nanoseconds. -/
def simulated (simTimes : List (BitVec IntWidth.w64.bits)) : ℤ :=
  ((simTimes.map BitVec.toNat).sum : ℕ) * 1000000

lemma simulated_le {heard vals : List (BitVec IntWidth.w64.bits)} (h : heard.Sublist vals) :
    0 ≤ simulated heard ∧ simulated heard ≤ simulated vals := by
  have hsum : (heard.map BitVec.toNat).sum ≤ (vals.map BitVec.toNat).sum :=
    (h.map _).sum_le_sum fun _ _ => Nat.zero_le _
  unfold simulated
  omega

/-- A time that fits is one of commands that fit. -/
lemma lt_of_simulated {vals : List (BitVec IntWidth.w64.bits)}
    (h : TimePoint.Fits (simulated vals)) : ∀ val ∈ vals, val.toNat < 2 ^ 63 := by
  intro val hval
  have hle : val.toNat ≤ (vals.map BitVec.toNat).sum :=
    List.single_le_sum (fun _ _ => Nat.zero_le _) _ (List.mem_map_of_mem hval)
  have hlt := h.2
  unfold simulated at hlt
  omega

/-- **External simulation.**  Whatever the interleaving of the threads that publish on `sim_time`
and of the listeners, the commands an external simulator has heard are some of those published, in
their order.  As long as the time published is in range, its clock has moved by that of these
commands, and it has made the passes of one simulation of that time, which are the first passes of a
simulation of all the time published. -/
theorem external_simulation (fl : FloatCast) (data data' : Option DataPresentation)
    (params : IPCParams) {ω ι : Type} [DecidableEq ω] [DecidableEq ι]
    {actors : List (SharedMemory.Actor ω ι)} {channel : SharedMemory.Channel ω ι}
    (hrun : Transition.Run
      (SharedStep fl data simTimeTy (packetSize fl data simTimeTy params false % 2 ^ 32))
      (SharedMemory.Channel.initial (packetSize fl data simTimeTy params false % 2 ^ 32)) actors
      channel)
    {exec : T → W → Program T W} {logProgress : ℤ → ℤ → T}
    (hnever : ∀ task world, (exec task world).NeverStops) {s : MicroSimulator T}
    (hstopped : s.stopped = false) (hprogress : s.showProgress = false) {world world' : W} (i : ι)
    {runs : ℕ} {its : List Iteration} {s' : MicroSimulator T}
    (hdriven : ExternalSimulator.Driven exec logProgress fl data' s world
      (channel.listener i).delivered runs its world' s') :
    ∃ vals heard, channel.published = vals.map (forwardToPacket fl data simTimeTy) ∧
      heard.Sublist vals ∧
      (channel.listener i).delivered = heard.map (forwardToPacket fl data simTimeTy) ∧
      (TimePoint.Fits (simulated vals) → TimePoint.Fits (s.now + simulated vals) →
        s'.now = s.now + simulated heard ∧
        (heard ≠ [] → Simulates exec logProgress s world (simulated heard) runs its world'
          { s' with runs := runs }) ∧
        ∀ runs' its' world'' s'',
          Simulates exec logProgress s world (simulated vals) runs' its' world'' s'' →
            its <+: its' ∧ runs ≤ runs') := by
  have hcarries : SharedCarries fl data simTimeTy _ channel :=
    hrun.invariant (SharedCarries.initial ω ι _)
      fun _ _ _ h hstep => h.step (Nat.mod_lt _ (by decide)) hstep
  obtain ⟨vals, hpublished, -, hlisteners⟩ := hcarries.heard
  obtain ⟨heard, hsub, hheard⟩ := hlisteners i
  refine ⟨vals, heard, hpublished, hsub, hheard, fun hfits _ => ?_⟩
  obtain ⟨hpos, hle⟩ := simulated_le hsub
  rw [hheard] at hdriven
  have hlt : ∀ val ∈ heard, val.toNat < 2 ^ 63 := fun val hval =>
    lt_of_simulated hfits val (hsub.subset hval)
  rcases hdriven.commanded hlt with ⟨rfl, rfl, rfl, rfl⟩ | hcommanded
  · refine ⟨by simp [simulated], fun h => absurd rfl h, fun _ _ _ _ _ => ?_⟩
    exact ⟨List.nil_prefix, Nat.zero_le _⟩
  · have hsimulates : Simulates exec logProgress s world (simulated heard) runs its world'
        { s' with runs := runs } := hcommanded.simulates hnever hstopped hprogress
    have hnow := hsimulates.now hnever hstopped hprogress hpos
    refine ⟨hnow, fun _ => hsimulates, fun _ _ _ _ hall => ?_⟩
    exact simulates_prefix hnever hstopped hprogress hpos hle hsimulates hall

/-- A task every 400 µs from 300 µs on; the command to simulate 1 ms is published while the listener
waits. -/
theorem external_simulation_command : ∃ (channel : SharedMemory.Channel Unit Unit)
    (its : List Iteration) (s' : MicroSimulator Unit),
    (channel.listener ()).delivered = [forwardToPacket default none simTimeTy 1#64] ∧
    its.map Iteration.entry = [(300000, 0), (700000, 0)] ∧ s'.now = 0 + simulated [1#64] := by
  obtain ⟨actors, channel, hrun, hdelivered, hpublished⟩ := run_delivers default none simTimeTy 1#64
  have hdriven : ∃ its s', ExternalSimulator.Driven (fun (_ : Unit) (world : Unit) => .done world)
      (fun _ _ => ()) default none
      ((⟨{}, [], 0, 0, false, false⟩ : MicroSimulator Unit).schedule () 300000 (some 400000)).2 ()
      [forwardToPacket default none simTimeTy 1#64] 2 its () s' ∧
      its.map Iteration.entry = [(300000, 0), (700000, 0)] :=
    ⟨_, _, @ExternalSimulator.Driven.command _ _ _ _ _ _ _ _ _ _ (fun _ => 0) _ 3 _ _ _ _ _ _ _ _
      rfl rfl .idle, rfl⟩
  obtain ⟨its, s', hdriven, hits⟩ := hdriven
  rw [← hdelivered] at hdriven
  obtain ⟨vals, heard, hvals, -, hheard, hclock⟩ :=
    external_simulation default none none {} hrun (by exact fun _ _ => trivial) rfl rfl () hdriven
  have hinjective := List.map_injective_iff.mpr (forwardToPacket_simTime_injective default none)
  obtain rfl : [1#64] = vals := hinjective (hpublished.symm.trans hvals)
  obtain rfl : [1#64] = heard := hinjective (hdelivered.symm.trans hheard)
  exact ⟨channel, its, s', hdelivered, hits, (hclock (by decide) (by decide)).1⟩

end CpsCore

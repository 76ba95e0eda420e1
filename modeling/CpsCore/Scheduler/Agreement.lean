import Mathlib
import CpsCore.Lib.Agenda
import CpsCore.Scheduler.Termination
import CpsCore.Scheduler.Trace

/-!
# The simulator and the threads

`MicroSimulator` stands in for `MultiThreadingScheduler` in simulations.  Given the same calls of
`schedule`, both work off the same agenda: the simulator in passes of its loop, the threaded
scheduler in whatever order its parties take their steps, with missed deadlines or without.

* `MicroSimulator.loop_taken`: the passes of a simulation.
* `Follows`, `LoopStep.agenda`: what `runSchedule` has handled, and what is left of the agenda.
* `simulator_agrees`: one of the two is behind the other.
-/

namespace CpsCore

open Multimap

variable {T W : Type}

/-! ## Calls of `schedule` -/

/-- The arguments of a call; without a period it is the first overload. -/
structure ScheduleCall (T : Type) where
  task : T
  initialFromNow : ℤ
  period : Option ℤ := none

def MicroSimulator.scheduleAll (s : MicroSimulator T) (calls : List (ScheduleCall T)) :
    MicroSimulator T :=
  calls.foldl (fun s call => (s.schedule call.task call.initialFromNow call.period).2) s

namespace MultiThreadingScheduler

/-- The same call before the start, when the clock is not read. -/
def Action.ofCall (call : ScheduleCall T) : List Action :=
  [.schedule call.period call.initialFromNow 0, .insert]

/-- Nobody calls the scheduler. -/
def Action.ByItself : Action → Prop
  | .start | .loop | .task _ => True
  | _ => False

/-- What is left of the agenda when the loop is done with the first entry. -/
def Scheduler.ahead (P : ℕ → Option ℤ) (s : Scheduler) : Multimap ℤ ℕ :=
  if s.loop.past then s.queue.events_.advance P else s.queue.events_

end MultiThreadingScheduler

/-! ## The passes of the simulator -/

namespace MicroSimulator

variable {s s' : MicroSimulator T} {P : ℕ → Option ℤ}

lemma requeue_eq {entry : ℤ × ℕ} (hbegin : s.events.begin? = some entry)
    (hactive : ∀ e, s.isCanceled e = false) (hperiod : ∀ e, s.period e = P e) :
    s.requeue entry = s.events.advance P := by
  rw [advance_of_begin? hbegin, requeue, again, hactive, hperiod]
  cases P entry.2 <;> rfl

/-- **A simulation** whose tasks leave the queue alone takes what the agenda says. -/
lemma loop_taken {exec : T → W → Program T W}
    (hpassive : ∀ task world, (exec task world).Passive 0) {endSim : ℤ} {fuel : ℕ}
    {world world' : W} {its : List Iteration} (hactive : ∀ e, s.isCanceled e = false)
    (hperiod : ∀ e, s.period e = P e)
    (h : s.loop exec endSim fuel world = some (its, world', s')) :
    its.map Iteration.entry = taken P its.length s.events := by
  induction fuel generalizing s world its with
  | zero => simp [loop] at h
  | succ fuel ih =>
      have hdone : its = [] → its.map Iteration.entry = taken P its.length s.events := by
        rintro rfl
        rfl
      rw [loop] at h
      split at h
      case isFalse =>
        obtain ⟨hits, -⟩ := by simpa using h
        exact hdone hits
      case isTrue =>
        split at h
        case h_1 =>
          obtain ⟨hits, -⟩ := by simpa using h
          exact hdone hits
        case h_2 entry hbegin =>
          split at h
          case isTrue =>
            obtain ⟨hits, -⟩ := by simpa using h
            exact hdone hits
          case isFalse =>
            split at h
            case isTrue =>
              obtain ⟨hits, -⟩ := by simpa using h
              exact hdone hits
            case isFalse =>
              obtain ⟨⟨others, rest⟩, hloop, hresult⟩ := Option.map_eq_some_iff.mp h
              obtain ⟨rfl, rfl⟩ := by simpa using hresult
              have hpass := iterate_advances hpassive s world entry
              have hothers := ih (fun e => (hpass.active e (Nat.zero_le e)).trans (hactive e))
                (fun e => (hpass.period e).trans (hperiod e)) hloop
              rw [hpass.events, requeue_eq hbegin hactive hperiod] at hothers
              rw [List.map_cons, iterate_entry, hothers, List.length_cons, taken_of_begin? hbegin]

end MicroSimulator

/-! ## The steps of the threads -/

namespace MultiThreadingScheduler

variable {s s' : Scheduler} {P : ℕ → Option ℤ}

/-- Nobody has canceled or changed an event. -/
structure Scheduler.Untouched (P : ℕ → Option ℤ) (s : Scheduler) : Prop where
  inv : s.Inv
  period : ∀ e, (s.queue.bodies e).period = P e
  active : ∀ e, (s.queue.bodies e).isCanceled = false

lemma Step.untouched {action : Action} (hstep : Step s action s') (hself : action.ByItself)
    (h : s.Untouched P) : s'.Untouched P := by
  have hsame : ∀ e, (s'.queue.bodies e).period = (s.queue.bodies e).period ∧
      (s'.queue.bodies e).isCanceled = (s.queue.bodies e).isCanceled := by
    intro e
    cases hstep with
    | startInvoker => exact ⟨rfl, rfl⟩
    | startMain => exact ⟨rfl, rfl⟩
    | loop hloop => exact hloop.same e
    | task htask => exact Events.same_set htask.same.1 htask.same.2 e
    | _ => exact hself.elim
  refine ⟨hstep.inv h.inv, ?_, ?_⟩
  · intro e
    rw [(hsame e).1, h.period]
  · intro e
    rw [(hsame e).2, h.active]

lemma Scheduler.ahead_of_past (h : s.loop.past = true) :
    s.ahead P = s.queue.events_.advance P := if_pos h

lemma Scheduler.ahead_of_not_past (h : s.loop.past = false) : s.ahead P = s.queue.events_ :=
  if_neg (Bool.eq_false_iff.mp h)

/-- The entry is handled, and the rest is what is left without it. -/
def Scheduler.Takes (P : ℕ → Option ℤ) (s : Scheduler) (marks : List Mark) (s' : Scheduler) :
    Prop :=
  ∃ entry, (s.ahead P).begin? = some entry ∧ handlings marks = [entry] ∧
    s'.ahead P = (s.ahead P).advance P

lemma LoopStep.agenda (hstep : LoopStep s s') (h : s.Untouched P) :
    handlings (s.loopMarks s') = [] ∧ s'.ahead P = s.ahead P ∨ s.Takes P (s.loopMarks s') s' := by
  have hnot : ∀ {e}, (s.queue.bodies e).isCanceled ≠ true := fun {e} => by simp [h.active e]
  cases hstep with
  | goOn hpc => exact Or.inl ⟨by simp [Scheduler.loopMarks, hpc], by simp [Scheduler.ahead, hpc]⟩
  | @notify now time e hpc hbegin =>
      have hahead : s.ahead P = s.queue.events_ := Scheduler.ahead_of_not_past (by simp [hpc])
      refine Or.inr ⟨(time, e), by rw [hahead, hbegin], ?_, by rw [hahead]; rfl⟩
      simp [Scheduler.loopMarks, hpc, hbegin]
  | @start now time e hpc hbegin hcanceled =>
      have hahead : s.ahead P = s.queue.events_ := Scheduler.ahead_of_not_past (by simp [hpc])
      refine Or.inr ⟨(time, e), by rw [hahead, hbegin], ?_, by rw [hahead]; rfl⟩
      simp [Scheduler.loopMarks, hpc, hbegin, hcanceled]
  | @missed now time e period hpc hbegin hperiod =>
      have hahead : s.ahead P = s.queue.events_ := Scheduler.ahead_of_not_past (by simp [hpc])
      refine Or.inr ⟨(time, e), by rw [hahead, hbegin], ?_, ?_⟩
      · simp [Scheduler.loopMarks, Events.requeued, hpc, hbegin, hperiod]
      · rw [hahead, advance_of_begin? hbegin, ← h.period, hperiod]
        rfl
  -- An event without a period goes when its thread is started.
  | @startSingle now time e hpc hbegin hcanceled =>
      have hahead : s.ahead P = s.queue.events_ := Scheduler.ahead_of_not_past (by simp [hpc])
      have hperiod : (s.queue.bodies e).period = none :=
        Option.not_isSome_iff_eq_none.mp
          (Bool.eq_false_iff.mp (h.inv.found_begin (by rw [hpc]; rfl) hbegin))
      refine Or.inr ⟨(time, e), by rw [hahead, hbegin], ?_, ?_⟩
      · simp [Scheduler.loopMarks, hpc, hbegin, hcanceled]
      · rw [hahead, advance_of_begin? hbegin, ← h.period, hperiod]
        rfl
  -- The loop has handled the entry before, and now puts it back.
  | @reschedule now time e period hpc hbegin hcanceled hperiod =>
      refine Or.inl ⟨?_, ?_⟩
      · simp [Scheduler.loopMarks, Events.requeued, hpc, hbegin, hperiod, hcanceled]
      · rw [Scheduler.ahead_of_past (s := s) (by simp [hpc]), advance_of_begin? hbegin, ← h.period,
          hperiod]
        rfl
  | notToStart _ _ hcanceled => exact absurd hcanceled hnot
  | setAside _ _ hcanceled => exact absurd hcanceled hnot
  | erase _ _ hcanceled => exact absurd hcanceled hnot
  | eraseSingle _ _ hcanceled => exact absurd hcanceled hnot
  | removeCanceled hpc =>
      exact Or.inl ⟨by simp [Scheduler.loopMarks, hpc],
        by simp [Scheduler.ahead, hpc, Events.remove]⟩
  | removeDone hpc =>
      exact Or.inl ⟨by simp [Scheduler.loopMarks, hpc],
        by simp [Scheduler.ahead, hpc, Events.remove]⟩
  | join hpc =>
      exact Or.inl ⟨by simp [Scheduler.loopMarks, hpc],
        by simp [Scheduler.ahead, hpc, Events.join, Events.set]⟩
  | _ => exact Or.inl ⟨by simp [Scheduler.loopMarks, *], by simp [Scheduler.ahead, *]⟩

/-- What has been handled of an agenda, and what is left of it. -/
structure Follows (P : ℕ → Option ℤ) (agenda : Multimap ℤ ℕ) (s : Scheduler) (trace : List Mark) :
    Prop where
  untouched : s.Untouched P
  taken : ∃ n, handlings trace = taken P n agenda ∧ s.ahead P = (advance P)^[n] agenda

lemma Follows.quiet {agenda : Multimap ℤ ℕ} {trace marks : List Mark}
    (h : Follows P agenda s trace) (huntouched : s'.Untouched P) (hmarks : handlings marks = [])
    (hahead : s'.ahead P = s.ahead P) : Follows P agenda s' (trace ++ marks) := by
  obtain ⟨n, hhandled, hleft⟩ := h.taken
  refine ⟨huntouched, n, ?_, hahead.trans hleft⟩
  rw [handlings_append, hmarks, List.append_nil, hhandled]

lemma Step.follows {action : Action} {agenda : Multimap ℤ ℕ} {trace : List Mark}
    (hstep : Step s action s') (hself : action.ByItself) (h : Follows P agenda s trace) :
    Follows P agenda s' (trace ++ s.marks action s') := by
  have huntouched := hstep.untouched hself h.untouched
  cases hstep with
  | startInvoker _ _ hloop => exact h.quiet huntouched rfl (by simp [Scheduler.ahead, hloop])
  | startMain _ hloop => exact h.quiet huntouched rfl (by simp [Scheduler.ahead, hloop])
  | task =>
      refine h.quiet huntouched ?_ rfl
      simp only [Scheduler.marks]
      split <;> rfl
  | loop hloop =>
      rcases hloop.agenda h.untouched with ⟨hmarks, hahead⟩ | ⟨entry, hbegin, hmarks, hahead⟩
      · exact h.quiet huntouched hmarks hahead
      · obtain ⟨n, hhandled, hleft⟩ := h.taken
        rw [hleft] at hbegin hahead
        refine ⟨huntouched, n + 1, ?_, ?_⟩
        · rw [Scheduler.marks, handlings_append, hmarks, hhandled, taken_succ, hbegin]
          rfl
        · rw [hahead, Function.iterate_succ_apply']
  | _ => exact hself.elim

/-! ## Before the start -/

/-- Both have got the same calls, and neither has begun. -/
structure Alike (start : ℤ) (m : MicroSimulator T) (s : Scheduler) : Prop where
  now : m.now = start
  noProgress : m.showProgress = false
  untouched : s.Untouched m.period
  idle : s.loop = .idle
  notStarted : s.started_ = false
  inserted : s.queue.scheduling = []
  next : m.bodies.length = s.queue.next
  agenda : m.events = s.queue.events_.shift start
  active : ∀ e, m.isCanceled e = false

lemma Alike.initial (mainThread : Bool) (start : ℤ) :
    Alike start ({ now := start } : MicroSimulator T) { mainThread_ := mainThread } where
  now := rfl
  noProgress := rfl
  untouched := ⟨Scheduler.Inv.initial mainThread, fun _ => rfl, fun _ => rfl⟩
  idle := rfl
  notStarted := rfl
  inserted := rfl
  next := rfl
  agenda := rfl
  active _ := rfl

lemma period_schedule (m : MicroSimulator T) (call : ScheduleCall T) :
    (m.schedule call.task call.initialFromNow call.period).2.period =
      Function.update m.period m.bodies.length call.period := by
  funext e
  rcases Nat.lt_trichotomy e m.bodies.length with hlt | rfl | hlt
  · rw [Function.update_of_ne hlt.ne, MicroSimulator.period, MicroSimulator.schedule,
      List.getElem?_append_left hlt]
    rfl
  · simp [MicroSimulator.period, MicroSimulator.schedule]
  · have hnone : m.bodies[e]? = none := List.getElem?_eq_none hlt.le
    simp [MicroSimulator.period, MicroSimulator.schedule, Function.update_of_ne hlt.ne', hnone,
      List.getElem?_append_right hlt.le, Nat.sub_ne_zero_of_lt hlt]

lemma active_schedule {m : MicroSimulator T} (h : ∀ e, m.isCanceled e = false)
    (call : ScheduleCall T) (e : ℕ) :
    (m.schedule call.task call.initialFromNow call.period).2.isCanceled e = false := by
  rcases Nat.lt_trichotomy e m.bodies.length with hlt | rfl | hlt
  · have hbefore := h e
    rwa [MicroSimulator.isCanceled, MicroSimulator.schedule, List.getElem?_append_left hlt]
  · simp [MicroSimulator.isCanceled, MicroSimulator.schedule]
  · have hone : [(⟨call.task, call.period, false⟩ : CpsCore.EventBody T)][e - m.bodies.length]? =
        none := by
      refine List.getElem?_eq_none ?_
      rw [List.length_singleton]
      omega
    simp [MicroSimulator.isCanceled, MicroSimulator.schedule, List.getElem?_append_right hlt.le,
      hone]

lemma Step.called {s₁ : Scheduler} {period : Option ℤ} {start now : ℤ}
    (hschedule : Step s (.schedule period start now) s₁) (hinsert : Step s₁ .insert s')
    (hinserted : s.queue.scheduling = []) (hnotStarted : s.started_ = false) :
    s' = { s with queue := (s.queue.make period start).insert 0 start s.queue.next } := by
  cases hschedule with
  | schedule =>
      cases hinsert with
      | insert _ _ hi =>
          simp only [Events.make, hinserted, List.nil_append, Scheduler.createSchedule, hnotStarted,
            Bool.false_eq_true, if_false, List.getElem?_singleton] at hi
          split at hi
          case isFalse => exact absurd hi (by simp)
          case isTrue hzero =>
            simp only [Option.some.injEq, Prod.mk.injEq] at hi
            obtain ⟨rfl, rfl⟩ := hi
            subst hzero
            simp [Scheduler.createSchedule, hnotStarted]

lemma Alike.call {start : ℤ} {m : MicroSimulator T} (h : Alike start m s) (call : ScheduleCall T)
    {trace trace' : List Mark}
    (hrun : Transition.Run TracedStep (s, trace) (Action.ofCall call) (s', trace')) :
    Alike start (m.schedule call.task call.initialFromNow call.period).2 s' ∧
      handlings trace' = handlings trace := by
  obtain ⟨⟨s₁, trace₁⟩, hfirst, hinsert, hmarks⟩ :=
    @Transition.Run.snoc_inv _ _ _ _ _ [_] _ hrun
  obtain ⟨hschedule, hmarks₁⟩ := hfirst.single_inv
  have hinv := hinsert.inv (hschedule.inv h.untouched.inv)
  have htrace : handlings trace' = handlings trace := by
    dsimp only at hmarks hmarks₁
    rw [hmarks, hmarks₁, handlings_append, handlings_append]
    simp [Scheduler.marks, h.notStarted, handlings]
  obtain rfl := Step.called hschedule hinsert h.inserted h.notStarted
  refine ⟨⟨h.now, h.noProgress, ⟨hinv, ?_, ?_⟩, h.idle, h.notStarted, ?_, ?_, ?_,
    active_schedule h.active call⟩, htrace⟩
  · intro e
    rw [period_schedule, h.next, ← funext h.untouched.period]
    by_cases hne : e = s.queue.next
    · simp [hne, Events.make, Events.insert]
    · simp [Events.make, Events.insert, Function.update_of_ne hne]
  · intro e
    by_cases hne : e = s.queue.next
    · simp [hne, Events.make, Events.insert]
    · simp [Events.make, Events.insert, Function.update_of_ne hne, h.untouched.active e]
  · simp [Events.make, Events.insert, h.inserted]
  · simp [Events.make, Events.insert, MicroSimulator.schedule, h.next]
  · show m.events.insert (m.now + call.initialFromNow) m.bodies.length = _
    rw [h.agenda, h.next, h.now, insert_shift]
    rfl

/-- **The same calls**, of either scheduler. -/
lemma Alike.calls {start : ℤ} {m : MicroSimulator T} (calls : List (ScheduleCall T))
    {trace trace' : List Mark} (h : Alike start m s)
    (hrun : Transition.Run TracedStep (s, trace) (calls.flatMap Action.ofCall) (s', trace')) :
    Alike start (m.scheduleAll calls) s' ∧ handlings trace' = handlings trace := by
  induction calls generalizing m s trace with
  | nil =>
      obtain ⟨rfl, rfl⟩ := Prod.mk.inj hrun.nil_inv
      exact ⟨h, rfl⟩
  | cons call calls ih =>
      rw [List.flatMap_cons] at hrun
      obtain ⟨⟨s₁, trace₁⟩, hfirst, hrest⟩ := hrun.split
      obtain ⟨hcalled, htrace₁⟩ := h.call call hfirst
      obtain ⟨hothers, htrace⟩ := ih hcalled hrest
      exact ⟨hothers, htrace.trans htrace₁⟩

end MultiThreadingScheduler

open MultiThreadingScheduler in
/-- **The simulator agrees with the threads.**  Given the same calls of `schedule` before either
begins, and nobody who calls them afterwards: what a simulation takes and what a run of the threads
handles, in whatever order they take their steps and with whatever deadlines missed, is the same,
as far as the shorter of the two goes. -/
theorem simulator_agrees (mainThread : Bool) {calls : List (ScheduleCall T)}
    {actions : List Action} {s : Scheduler} {trace : List Mark}
    (hrun : Transition.Run TracedStep ({ mainThread_ := mainThread }, [])
      (calls.flatMap Action.ofCall ++ actions) (s, trace))
    (hself : ∀ action ∈ actions, action.ByItself) {exec : T → W → Program T W}
    (hpassive : ∀ task world, (exec task world).Passive 0) {logProgress : ℤ → ℤ → T}
    {fuel runs : ℕ} {start duration : ℤ} {world : W} {its : List Iteration}
    {rest : W × MicroSimulator T}
    (hsimulate : (MicroSimulator.scheduleAll { now := start } calls).simulate exec logProgress fuel
      world duration = some (runs, its, rest)) :
    its.map Iteration.entry <+: (handlings trace).map (fun entry => (start + entry.1, entry.2)) ∨
      (handlings trace).map (fun entry => (start + entry.1, entry.2)) <+:
        its.map Iteration.entry := by
  obtain ⟨⟨s₀, trace₀⟩, hcalls, hruns⟩ := hrun.split
  obtain ⟨halike, htrace₀⟩ := (Alike.initial mainThread start).calls calls hcalls
  generalize MicroSimulator.scheduleAll { now := start } calls = m at halike hsimulate
  have hahead : s₀.ahead m.period = s₀.queue.events_ :=
    Scheduler.ahead_of_not_past (by simp [halike.idle])
  have hfollows : Follows m.period s₀.queue.events_ s trace := by
    refine hruns.invariant_of (I := fun σ => Follows m.period s₀.queue.events_ σ.1 σ.2) hself
      ⟨halike.untouched, 0, htrace₀, hahead⟩ ?_
    rintro σ action σ' hby h ⟨hstep, hmarks⟩
    rw [hmarks]
    exact hstep.follows hby h
  obtain ⟨n, hhandled, -⟩ := hfollows.taken
  rw [MicroSimulator.simulate, halike.noProgress] at hsimulate
  simp only [Bool.false_eq_true, if_false] at hsimulate
  obtain ⟨⟨others, _⟩, hloop, hresult⟩ := Option.map_eq_some_iff.mp hsimulate
  obtain ⟨-, rfl, -⟩ := by simpa using hresult
  have hits : others.map Iteration.entry = taken m.period others.length m.events :=
    MicroSimulator.loop_taken
      (s := { events := m.events, bodies := m.bodies, now := m.now, stopped := m.stopped })
      hpassive halike.active (fun _ => rfl) hloop
  rw [hits, hhandled, ← taken_shift, ← halike.agenda]
  exact taken_comparable _ _ _

open MultiThreadingScheduler in
/-- An event of period 5 whose second deadline is missed by the thread, and one without a period in
between; the simulation goes on for longer. -/
theorem simulator_agrees_missed : ∃ (its : List Iteration) (trace : List Mark),
    its.map Iteration.entry = [(100, 0), (103, 1), (105, 0), (110, 0)] ∧
    handlings trace = [(0, 0), (3, 1), (5, 0)] ∧
    (its.map Iteration.entry <+: (handlings trace).map (fun entry => (100 + entry.1, entry.2)) ∨
      (handlings trace).map (fun entry => (100 + entry.1, entry.2)) <+:
        its.map Iteration.entry) := by
  have hrun := traced_snoc (traced_snoc (traced_snoc (traced_snoc (traced_snoc (traced_snoc
    (traced_snoc (traced_snoc (traced_snoc (traced_snoc (traced_snoc (traced_snoc (traced_snoc
    (traced_snoc (traced_snoc (traced_snoc (traced_snoc (traced_snoc (traced_snoc (traced_snoc
    (@Transition.Run.nil _ _ TracedStep ({ mainThread_ := true }, []))
    (.schedule (some 5) 0 0)) (.insert rfl rfl (i := 0) rfl))
    (.schedule none 3 0)) (.insert rfl rfl (i := 0) rfl)) (.startMain rfl rfl))
    (.loop (.lock 0 rfl rfl))) (.loop (.due 0 rfl rfl (by decide))))
    (.loop (.periodic rfl rfl (by decide) rfl))) (.loop (.notStarted rfl rfl rfl)))
    (.loop (.start rfl rfl rfl rfl))) (.loop (.reschedule rfl rfl rfl rfl)))
    (.loop (.drained rfl (by decide)))) (.loop (.goRound rfl rfl)))
    (.loop (.due 7 rfl rfl (by decide)))) (.loop (.single rfl rfl (by decide) rfl)))
    (.loop (.startSingle rfl rfl rfl rfl))) (.loop (.periodic rfl rfl (by decide) rfl)))
    (.loop (.started rfl rfl rfl))) (.loop (.missed rfl rfl rfl)))
    (.loop (.drained rfl (by decide)))
  have hsimulated : ((MicroSimulator.scheduleAll { now := 100 }
      [⟨(), 0, some 5⟩, ⟨(), 3, none⟩]).simulate (fun _ world => .done world) (fun _ _ => ()) 6 ()
        12).map (fun result => result.2.1.map Iteration.entry) =
      some [(100, 0), (103, 1), (105, 0), (110, 0)] := by decide
  obtain ⟨⟨runs, its, rest⟩, hits, hentries⟩ := Option.map_eq_some_iff.mp hsimulated
  refine ⟨its, _, hentries, ?_, @simulator_agrees _ _ true [⟨(), 0, some 5⟩, ⟨(), 3, none⟩] _ _ _
    hrun ?_ _ (by exact fun _ _ => trivial) _ _ _ _ _ _ _ _ hits⟩
  · decide
  · simp [Action.ByItself]

end CpsCore

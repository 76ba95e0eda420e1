import Mathlib
import CpsCore.Lib.Transition
import CpsCore.Scheduler.MicroSimulator

/-!
# Tasks that change the queue under the loop

A pass of `simulate` copies the first entry of the queue, calls its body, and then erases whatever
is first.  Meanwhile the body may schedule events in the past and clear the schedule.

* `Reentrant` — a task that may also call `clearSchedule`.
* `Change` — what such a call does to the queue; the second insertion of a periodic event is one
  as well.
* `simulate_erases_dispatched_iff` — a pass erases the entry it has dispatched, and no other, exactly
  if its changes come behind that entry, at times that a `TimePoint` can hold.
-/

namespace CpsCore

open Multimap Transition

variable {T W : Type}

/-! ## Tasks -/

/-- A `Program` that may clear the schedule. -/
inductive Reentrant (T W : Type)
  | done (world : W)
  | schedule (task : T) (initialFromNow : ℤ) (period : Option ℤ) (next : ℕ → Reentrant T W)
  | cancel (event : ℕ) (next : Reentrant T W)
  | changePeriod (event : ℕ) (period : ℤ) (next : Reentrant T W)
  | isCanceled (event : ℕ) (next : Bool → Reentrant T W)
  | now (next : ℤ → Reentrant T W)
  | stop (next : Reentrant T W)
  | clearSchedule (next : Reentrant T W)

def MicroSimulator.clearSchedule (s : MicroSimulator T) : MicroSimulator T := { s with events := {} }

/-! The loop holds the body it has dispatched, so that its handles find it even in an empty
queue. -/

namespace Event

/-- `body_.lock()` while `held` is dispatched. -/
def lockHeld (s : MicroSimulator T) (held event : ℕ) : Option (EventBody T) :=
  if event = held then s.bodies[event]? else lock s event

def cancelHeld (s : MicroSimulator T) (held event : ℕ) : MicroSimulator T :=
  match lockHeld s held event with
  | some body => { s with bodies := s.bodies.set event { body with isCanceled := true } }
  | none => s

def isCanceledHeld (s : MicroSimulator T) (held event : ℕ) : Bool :=
  match lockHeld s held event with
  | some body => body.isCanceled
  | none => true

def changePeriodHeld (s : MicroSimulator T) (held event : ℕ) (period : ℤ) : MicroSimulator T :=
  match lockHeld s held event with
  | some body =>
      if body.period = none then s
      else { s with bodies := s.bodies.set event { body with period := some period } }
  | none => s

end Event

/-! ## Changes of the queue -/

inductive Change
  | insert (fromNow : ℤ) (event : ℕ)
  | clear
  deriving DecidableEq, Repr

namespace Change

def apply (now : ℤ) (entries : List (ℤ × ℕ)) : Change → List (ℤ × ℕ)
  | .insert fromNow event => insertUpper (now + fromNow, event) entries
  | .clear => []

/-- The queue after some changes. -/
def all (now : ℤ) (entries : List (ℤ × ℕ)) (changes : List Change) : List (ℤ × ℕ) :=
  changes.foldl (apply now) entries

/-- Nothing is inserted before the present, or erased. -/
def Later : Change → Prop
  | .insert fromNow _ => 0 ≤ fromNow
  | .clear => False

/-- The time of an insertion, a sum of 64 bits, is in range. -/
def Fits (now : ℤ) : Change → Prop
  | .insert fromNow _ => TimePoint.Fits (now + fromNow)
  | .clear => True

instance (now : ℤ) : DecidablePred (Fits now)
  | .insert fromNow _ => inferInstanceAs (Decidable (TimePoint.Fits (now + fromNow)))
  | .clear => .isTrue trivial

def inserted? (now : ℤ) : Change → Option (ℤ × ℕ)
  | .insert fromNow event => some (now + fromNow, event)
  | .clear => none

end Change

/-- Runs a task for the event `held`, with the changes it makes. -/
def Reentrant.run (held : ℕ) : Reentrant T W → MicroSimulator T →
    List Change × W × MicroSimulator T
  | .done world, s => ([], world, s)
  | .schedule task initialFromNow period next, s =>
      let scheduled := s.schedule task initialFromNow period
      let rest := (next scheduled.1).run held scheduled.2
      (.insert initialFromNow scheduled.1 :: rest.1, rest.2)
  | .cancel event next, s => next.run held (Event.cancelHeld s held event)
  | .changePeriod event period next, s => next.run held (Event.changePeriodHeld s held event period)
  | .isCanceled event next, s => (next (Event.isCanceledHeld s held event)).run held s
  | .now next, s => (next s.now).run held s
  | .stop next, s => next.run held s.stop
  | .clearSchedule next, s =>
      let rest := next.run held s.clearSchedule
      (.clear :: rest.1, rest.2)

/-! ## One pass -/

/-- A pass of the loop: the entry, if its body was called, and the changes until the first entry
is erased. -/
structure Dispatch where
  entry : ℤ × ℕ
  executed : Bool
  changes : List Change
  deriving DecidableEq, Repr

namespace MicroSimulator

/-- A pass as far as to the call of `erase`. -/
def dispatch (exec : T → W → Reentrant T W) (s : MicroSimulator T) (world : W)
    (entry : ℤ × ℕ) : Dispatch × W × MicroSimulator T :=
  let s := { s with now := entry.1 }
  match s.bodies[entry.2]? with
  | some body =>
      if body.isCanceled then (⟨entry, false, []⟩, world, s)
      else
        let ran := (exec body.body world).run entry.2 s
        let s' := ran.2.2
        match s'.period entry.2 with
        | some period =>
            (⟨entry, true, ran.1 ++ [.insert period entry.2]⟩, ran.2.1,
              { s' with
                events := s'.events.insert (s'.now + period) entry.2
                runs := s'.runs + 1 })
        | none => (⟨entry, true, ran.1⟩, ran.2.1, { s' with runs := s'.runs + 1 })
  | none => (⟨entry, false, []⟩, world, s)

/-- A whole pass; nothing where what it does is not defined: a time overflows, or `erase` is called
with the end of an empty queue. -/
def pass (exec : T → W → Reentrant T W) (s : MicroSimulator T) (world : W) (entry : ℤ × ℕ) :
    Option (Dispatch × W × MicroSimulator T) :=
  let dispatched := s.dispatch exec world entry
  let s' := dispatched.2.2
  if ∀ change ∈ dispatched.1.changes, change.Fits entry.1 then
    match s'.events.begin? with
    | some _ => some (dispatched.1, dispatched.2.1, { s' with events := s'.events.eraseBegin })
    | none => none
  else none

end MicroSimulator

/-! ## What changes come to -/

namespace Change

@[simp] lemma all_nil (now : ℤ) (entries : List (ℤ × ℕ)) : all now entries [] = entries := rfl

@[simp] lemma all_cons (now : ℤ) (entries : List (ℤ × ℕ)) (change : Change)
    (changes : List Change) :
    all now entries (change :: changes) = all now (change.apply now entries) changes := rfl

lemma all_append (now : ℤ) (entries : List (ℤ × ℕ)) (changes changes' : List Change) :
    all now entries (changes ++ changes') = all now (all now entries changes) changes' := by
  simp [all]

/-- What was there before a `clear` does not matter. -/
lemma all_eq_of_clear {changes : List Change} (h : clear ∈ changes) (now : ℤ)
    (entries entries' : List (ℤ × ℕ)) : all now entries changes = all now entries' changes := by
  induction changes generalizing entries entries' with
  | nil => cases h
  | cons change changes ih =>
      rw [all_cons, all_cons]
      cases change with
      | clear => rfl
      | insert fromNow event => exact ih (by simpa using h) _ _

/-- An entry stays first as long as nothing comes before it. -/
lemma all_cons_of_later {changes : List Change} (h : ∀ change ∈ changes, change.Later)
    (entry : ℤ × ℕ) (rest : List (ℤ × ℕ)) :
    all entry.1 (entry :: rest) changes = entry :: all entry.1 rest changes := by
  induction changes generalizing rest with
  | nil => rfl
  | cons change changes ih =>
      obtain ⟨hchange, hchanges⟩ := List.forall_mem_cons.mp h
      rw [all_cons, all_cons]
      cases change with
      | clear => exact hchange.elim
      | insert fromNow event =>
          have hle : 0 ≤ fromNow := hchange
          rw [apply, apply, insertUpper, if_pos (by show entry.1 ≤ entry.1 + fromNow; omega)]
          exact ih hchanges _

/-- Without a `clear` nothing is lost. -/
lemma all_perm {changes : List Change} (h : clear ∉ changes) (now : ℤ)
    (entries : List (ℤ × ℕ)) :
    (all now entries changes).Perm (entries ++ changes.filterMap (inserted? now)) := by
  induction changes generalizing entries with
  | nil => simp
  | cons change changes ih =>
      rw [List.mem_cons, not_or] at h
      obtain ⟨hchange, hchanges⟩ := h
      rw [all_cons]
      cases change with
      | clear => exact absurd rfl hchange
      | insert fromNow event =>
          have hinsert := (insertUpper_perm (now + fromNow, event) entries).append_right
            (changes.filterMap (inserted? now))
          exact ((ih hchanges _).trans hinsert).trans List.perm_middle.symm

/-- **The first entry is the one that was first**, and only it can be erased there, exactly if all
changes come behind it. -/
theorem tail_all_iff {entry : ℤ × ℕ} {rest : List (ℤ × ℕ)} {changes : List Change}
    (hsorted : Sorted (all entry.1 (entry :: rest) changes)) :
    (all entry.1 (entry :: rest) changes ≠ [] ∧
      (all entry.1 (entry :: rest) changes).tail = all entry.1 rest changes) ↔
      ∀ change ∈ changes, change.Later := by
  constructor
  · rintro ⟨hne, htail⟩
    obtain ⟨first, others, hqueue⟩ := List.exists_cons_of_ne_nil hne
    rw [hqueue, List.tail_cons] at htail
    have hclear : clear ∉ changes := by
      intro hclear
      have hlen := congrArg List.length (all_eq_of_clear hclear entry.1 (entry :: rest) rest)
      rw [hqueue, ← htail, List.length_cons] at hlen
      omega
    have hfirst : first = entry := by
      have hperm := all_perm hclear entry.1 (entry :: rest)
      have hperm' := all_perm hclear entry.1 rest
      rw [← htail] at hperm'
      rw [hqueue, List.cons_append] at hperm
      have hsame := hperm.trans (hperm'.symm.cons entry)
      exact (Multiset.cons_inj_left (others : Multiset (ℤ × ℕ))).mp (Multiset.coe_eq_coe.mpr hsame)
    intro change hchange
    cases change with
    | clear => exact hclear hchange
    | insert fromNow event =>
        have hmem : (entry.1 + fromNow, event) ∈ all entry.1 (entry :: rest) changes := by
          rw [(all_perm hclear entry.1 (entry :: rest)).mem_iff, List.mem_append]
          exact Or.inr (List.mem_filterMap.mpr ⟨_, hchange, rfl⟩)
        rw [hqueue] at hmem hsorted
        have hle : entry.1 ≤ entry.1 + fromNow := by
          rcases List.mem_cons.mp hmem with heq | hmem
          · exact le_of_eq (congrArg Prod.fst (heq.trans hfirst)).symm
          · rw [← hfirst]
            have hbehind := (List.pairwise_cons.mp hsorted).1 _ hmem
            rwa [← hfirst] at hbehind
        show 0 ≤ fromNow
        omega
  · intro h
    rw [all_cons_of_later h]
    exact ⟨List.cons_ne_nil _ _, rfl⟩

end Change

/-! ## What a task does -/

/-- The new events are the next addresses of the heap, one after the other. -/
def Change.event? : Change → Option ℕ
  | .insert _ event => some event
  | .clear => none

/-- What is left of a task: its changes, with the events it has scheduled; and no event has become
one that runs once, or is one no longer. -/
structure Served (s s' : MicroSimulator T) (changes : List Change) : Prop where
  now : s'.now = s.now
  entries : s'.events.entries = Change.all s.now s.events.entries changes
  grows : s.bodies.length ≤ s'.bodies.length
  fresh : changes.filterMap Change.event? =
    List.range' s.bodies.length (s'.bodies.length - s.bodies.length)
  oneShot : ∀ event < s.bodies.length, s'.period event = none ↔ s.period event = none

namespace Served

lemma refl (s : MicroSimulator T) : Served s s [] := by
  constructor <;> simp

lemma trans {s m s' : MicroSimulator T} {changes changes' : List Change}
    (h : Served s m changes) (h' : Served m s' changes') : Served s s' (changes ++ changes') where
  now := h'.now.trans h.now
  entries := by rw [h'.entries, h.entries, h.now, Change.all_append]
  grows := h.grows.trans h'.grows
  fresh := by
    have hgrows := h.grows
    have hgrows' := h'.grows
    rw [List.filterMap_append, h.fresh, h'.fresh]
    have hmid : m.bodies.length = s.bodies.length + (m.bodies.length - s.bodies.length) := by omega
    rw [hmid, Nat.add_sub_cancel_left, List.range'_append_1]
    congr 1
    omega
  oneShot event hevent := (h'.oneShot event (hevent.trans_le h.grows)).trans (h.oneShot event hevent)

/-- Only the body of `event` changes. -/
lemma set {s : MicroSimulator T} {event : ℕ} {body body' : EventBody T}
    (hbody : s.bodies[event]? = some body) (hperiod : body'.period = none ↔ body.period = none) :
    Served s { s with bodies := s.bodies.set event body' } [] := by
  refine ⟨rfl, rfl, by simp, by simp, ?_⟩
  intro other hother
  show ((s.bodies.set event body')[other]?).bind EventBody.period = none ↔ _
  rw [MicroSimulator.period]
  by_cases heq : event = other
  · subst heq
    rw [List.getElem?_set_self hother, hbody]
    exact hperiod
  · rw [List.getElem?_set_ne heq]

lemma schedule (s : MicroSimulator T) (task : T) (initialFromNow : ℤ) (period : Option ℤ) :
    Served s (s.schedule task initialFromNow period).2
      [.insert initialFromNow s.bodies.length] := by
  have hlength : (s.schedule task initialFromNow period).2.bodies.length = s.bodies.length + 1 := by
    simp [MicroSimulator.schedule]
  refine ⟨rfl, rfl, by omega, ?_, ?_⟩
  · rw [hlength, Nat.add_sub_cancel_left]
    rfl
  · intro event hevent
    show ((s.bodies ++ [_])[event]?).bind EventBody.period = none ↔ _
    rw [List.getElem?_append_left hevent, MicroSimulator.period]

lemma stop (s : MicroSimulator T) : Served s s.stop [] := by
  refine ⟨rfl, rfl, le_rfl, ?_, fun _ _ => Iff.rfl⟩
  simp [MicroSimulator.stop]

lemma clearSchedule (s : MicroSimulator T) : Served s s.clearSchedule [.clear] := by
  refine ⟨rfl, rfl, le_rfl, ?_, fun _ _ => Iff.rfl⟩
  simp [Change.event?, MicroSimulator.clearSchedule]

end Served

lemma Event.lockHeld_eq_some {s : MicroSimulator T} {held event : ℕ} {body : EventBody T}
    (h : Event.lockHeld s held event = some body) : s.bodies[event]? = some body := by
  unfold Event.lockHeld Event.lock at h
  split_ifs at h
  · exact h
  · exact h

lemma served_cancelHeld (s : MicroSimulator T) (held event : ℕ) :
    Served s (Event.cancelHeld s held event) [] := by
  unfold Event.cancelHeld
  cases hlock : Event.lockHeld s held event with
  | none => exact Served.refl s
  | some body => exact Served.set (Event.lockHeld_eq_some hlock) Iff.rfl

lemma served_changePeriodHeld (s : MicroSimulator T) (held event : ℕ) (period : ℤ) :
    Served s (Event.changePeriodHeld s held event period) [] := by
  unfold Event.changePeriodHeld
  cases hlock : Event.lockHeld s held event with
  | none => exact Served.refl s
  | some body =>
      show Served s (if body.period = none then s else _) []
      split
      case isTrue => exact Served.refl s
      case isFalse hperiod =>
        exact Served.set (Event.lockHeld_eq_some hlock) (by simp [hperiod])

/-- **Every task** does no more than its changes. -/
theorem Reentrant.served (held : ℕ) (program : Reentrant T W) (s : MicroSimulator T) :
    Served s (program.run held s).2.2 (program.run held s).1 := by
  induction program generalizing s with
  | done world => exact Served.refl s
  | schedule task initialFromNow period next ih =>
      exact (Served.schedule s task initialFromNow period).trans (ih _ _)
  | cancel event next ih => exact (served_cancelHeld s held event).trans (ih _)
  | changePeriod event period next ih =>
      exact (served_changePeriodHeld s held event period).trans (ih _)
  | isCanceled event next ih => exact ih _ s
  | now next ih => exact ih _ s
  | stop next ih => exact (Served.stop s).trans (ih _)
  | clearSchedule next ih => exact (Served.clearSchedule s).trans (ih _)

/-! ## What a pass does -/

namespace MicroSimulator

/-- The body called for the entry inserts nothing before it and does not clear the schedule, and
its event does not have a negative period afterwards.  No time overflows. -/
def Tame (exec : T → W → Reentrant T W) (s : MicroSimulator T) (world : W) (entry : ℤ × ℕ) :
    Prop :=
  ∀ body, s.bodies[entry.2]? = some body → body.isCanceled = false →
    let ran := (exec body.body world).run entry.2 { s with now := entry.1 }
    (∀ change ∈ ran.1, change.Later ∧ change.Fits entry.1) ∧
      ∀ period, ran.2.2.period entry.2 = some period →
        0 ≤ period ∧ TimePoint.Fits (entry.1 + period)

/-- `erase` is called with the entry dispatched: the queue is what it would be if that entry had been
taken out before its body was called. -/
def ErasesDispatched (exec : T → W → Reentrant T W) (s : MicroSimulator T) (world : W)
    (entry : ℤ × ℕ) : Prop :=
  ∃ dispatched world' s', s.pass exec world entry = some (dispatched, world', s') ∧
    s'.events.entries = Change.all entry.1 s.events.entries.tail dispatched.changes

/-- What a pass does before `erase`. -/
structure Dispatches (s s' : MicroSimulator T) (dispatched : Dispatch) : Prop where
  entries : s'.events.entries =
    Change.all dispatched.entry.1 s.events.entries dispatched.changes
  grows : s.bodies.length ≤ s'.bodies.length
  /-- The events inserted are new ones, and last the one of the entry if it is periodic. -/
  inserted : dispatched.changes.filterMap Change.event? =
    List.range' s.bodies.length (s'.bodies.length - s.bodies.length) ++
      if dispatched.executed ∧ s'.period dispatched.entry.2 ≠ none then [dispatched.entry.2] else []
  oneShot : ∀ event < s.bodies.length, s'.period event = none ↔ s.period event = none

variable (exec : T → W → Reentrant T W) (s : MicroSimulator T) (world : W) (entry : ℤ × ℕ)

lemma entry_dispatch : (s.dispatch exec world entry).1.entry = entry := by
  rw [dispatch]
  cases s.bodies[entry.2]? with
  | none => rfl
  | some body =>
      show (ite (body.isCanceled = true) _ _ : Dispatch × W × MicroSimulator T).1.entry = entry
      split
      · rfl
      · dsimp only
        split <;> rfl

lemma dispatch_dispatches :
    Dispatches s (s.dispatch exec world entry).2.2 (s.dispatch exec world entry).1 := by
  rw [dispatch]
  cases hbody : s.bodies[entry.2]? with
  | none => constructor <;> simp [period]
  | some body =>
      cases hcanceled : body.isCanceled with
      | true => constructor <;> simp [hcanceled, period]
      | false =>
          have hserved := (exec body.body world).served entry.2 { s with now := entry.1 }
          simp only [hcanceled, Bool.false_eq_true, if_false]
          cases hperiod : (((exec body.body world).run entry.2 { s with now := entry.1 }).2.2).period
              entry.2 with
          | none =>
              refine ⟨hserved.entries, hserved.grows, ?_, hserved.oneShot⟩
              rw [if_neg fun h => h.2 hperiod, List.append_nil]
              exact hserved.fresh
          | some p =>
              refine ⟨?_, hserved.grows, ?_, hserved.oneShot⟩
              · have hnow := hserved.now
                have hentries := hserved.entries
                show insertUpper _ _ = _
                rw [Change.all_append, hnow, hentries]
                rfl
              · have hsome : (((exec body.body world).run entry.2 { s with now := entry.1 }).2.2).period
                    entry.2 ≠ none := by simp [hperiod]
                rw [if_pos ⟨rfl, hsome⟩, List.filterMap_append, hserved.fresh]
                rfl

/-- The changes of a pass all come behind its entry, at times in range, exactly if it is tame. -/
lemma later_dispatch_iff :
    (∀ change ∈ (s.dispatch exec world entry).1.changes, change.Later ∧ change.Fits entry.1) ↔
      s.Tame exec world entry := by
  rw [dispatch, Tame]
  cases hbody : s.bodies[entry.2]? with
  | none => simp
  | some body =>
      cases hcanceled : body.isCanceled with
      | true => simp [hcanceled]
      | false =>
          simp only [hcanceled, Bool.false_eq_true, if_false, Option.some.injEq, forall_eq',
            forall_true_left]
          cases hperiod : (((exec body.body world).run entry.2 { s with now := entry.1 }).2.2).period
              entry.2 with
          | none => simp
          | some p =>
              simp only [List.forall_mem_append, List.forall_mem_singleton, Option.some.injEq,
                forall_eq']
              rfl

/-- **When a pass erases the entry it has dispatched**, and no other: exactly if it is tame. -/
lemma erasesDispatched_iff (hbegin : s.events.begin? = some entry) :
    s.ErasesDispatched exec world entry ↔ s.Tame exec world entry := by
  have hspec := s.dispatch_dispatches exec world entry
  have hentry := s.entry_dispatch exec world entry
  have hentries := hspec.entries
  rw [hentry, entries_of_begin? hbegin] at hentries
  have hsorted := (s.dispatch exec world entry).2.2.events.sorted
  rw [hentries] at hsorted
  rw [← s.later_dispatch_iff, forall₂_and, ← Change.tail_all_iff hsorted, ← hentries,
    entries_eraseBegin, ErasesDispatched, pass]
  by_cases hfits : ∀ change ∈ (s.dispatch exec world entry).1.changes, change.Fits entry.1
  case neg => simp [hfits]
  rw [and_iff_left hfits]
  simp only [if_pos hfits]
  cases hfirst : (s.dispatch exec world entry).2.2.events.begin? with
  | none =>
      have hempty : (s.dispatch exec world entry).2.2.events.entries = [] :=
        List.head?_eq_none_iff.mp hfirst
      simp [hempty]
  | some first =>
      have hne : (s.dispatch exec world entry).2.2.events.entries ≠ [] := by
        rw [entries_of_begin? hfirst]
        exact List.cons_ne_nil _ _
      simp only [Option.some.injEq, Prod.mk.injEq]
      constructor
      · rintro ⟨dispatched, world', s', ⟨rfl, rfl, rfl⟩, herased⟩
        exact ⟨hne, herased⟩
      · rintro ⟨-, herased⟩
        exact ⟨_, _, _, ⟨rfl, rfl, rfl⟩, herased⟩

end MicroSimulator

/-! ## Runs of the loop -/

/-- The entries a pass has inserted. -/
def Dispatch.inserted (dispatched : Dispatch) : List (ℤ × ℕ) :=
  dispatched.changes.filterMap (Change.inserted? dispatched.entry.1)

/-- One pass of the loop of `simulate`, on the simulator and the world of its tasks. -/
inductive Pass (exec : T → W → Reentrant T W) (endSim : ℤ) :
    MicroSimulator T × W → Dispatch → MicroSimulator T × W → Prop
  | mk {s s' world world' entry dispatched} : s.events.begin? = some entry → entry.1 ≤ endSim →
      s.stopped = false → s.pass exec world entry = some (dispatched, world', s') →
      Pass exec endSim (s, world) dispatched (s', world')

/-- One whose entry stays first while its body runs. -/
def TamePass (exec : T → W → Reentrant T W) (endSim : ℤ) (σ : MicroSimulator T × W)
    (dispatched : Dispatch) (σ' : MicroSimulator T × W) : Prop :=
  Pass exec endSim σ dispatched σ' ∧ σ.1.Tame exec σ.2 dispatched.entry

/-- What a tame pass does. -/
structure Takes (s s' : MicroSimulator T) (dispatched : Dispatch) : Prop where
  entries : ∃ rest, s.events.entries = dispatched.entry :: rest ∧
    s'.events.entries.Perm (rest ++ dispatched.inserted)
  grows : s.bodies.length ≤ s'.bodies.length
  inserted : dispatched.inserted.map Prod.snd =
    List.range' s.bodies.length (s'.bodies.length - s.bodies.length) ++
      if dispatched.executed ∧ s'.period dispatched.entry.2 ≠ none then [dispatched.entry.2] else []
  oneShot : ∀ event < s.bodies.length, s'.period event = none ↔ s.period event = none

lemma TamePass.takes {exec : T → W → Reentrant T W} {endSim : ℤ} {σ σ' : MicroSimulator T × W}
    {dispatched : Dispatch} (h : TamePass exec endSim σ dispatched σ') :
    Takes σ.1 σ'.1 dispatched := by
  obtain ⟨hpass, htame⟩ := h
  cases hpass with
  | @mk s s' world world' entry dispatched hbegin _ _ hpass =>
      have hspec := s.dispatch_dispatches exec world entry
      have hentry := s.entry_dispatch exec world entry
      have hlater := s.later_dispatch_iff exec world entry
      rw [MicroSimulator.pass] at hpass
      cases hfirst : (s.dispatch exec world entry).2.2.events.begin? with
      | none => simp [hfirst] at hpass
      | some first =>
          obtain ⟨rfl, rfl, rfl⟩ :
              (s.dispatch exec world entry).1 = dispatched ∧
              (s.dispatch exec world entry).2.1 = world' ∧
              { (s.dispatch exec world entry).2.2 with
                events := (s.dispatch exec world entry).2.2.events.eraseBegin } = s' := by
            simpa [hfirst] using (Option.ite_none_right_eq_some.mp hpass).2
          rw [hentry] at htame
          have hall : ∀ change ∈ (s.dispatch exec world entry).1.changes, change.Later :=
            fun change hchange => (hlater.mpr htame change hchange).1
          have hclear : Change.clear ∉ (s.dispatch exec world entry).1.changes :=
            fun hclear => hall _ hclear
          refine ⟨⟨s.events.eraseBegin.entries, ?_, ?_⟩, hspec.grows, ?_, hspec.oneShot⟩
          · rw [hentry, entries_of_begin? hbegin]
          · have hentries := hspec.entries
            rw [hentry, entries_of_begin? hbegin, Change.all_cons_of_later hall] at hentries
            show ((s.dispatch exec world entry).2.2.events.eraseBegin).entries.Perm _
            rw [entries_eraseBegin, hentries, Dispatch.inserted, hentry]
            exact Change.all_perm hclear _ _
          · have hevents : (fun change => (Change.inserted? (s.dispatch exec world entry).1.entry.1
                change).map Prod.snd) = Change.event? := by
              funext change
              cases change <;> rfl
            rw [Dispatch.inserted, List.map_filterMap, hevents]
            exact hspec.inserted

/-- **Nothing is lost**, and nothing is taken twice. -/
lemma taken_perm {exec : T → W → Reentrant T W} {endSim : ℤ} {σ σ' : MicroSimulator T × W}
    {ds : List Dispatch} (h : Run (TamePass exec endSim) σ ds σ') :
    (ds.map Dispatch.entry ++ σ'.1.events.entries).Perm
      (σ.1.events.entries ++ ds.flatMap Dispatch.inserted) := by
  induction h with
  | nil => simp
  | @snoc ds σ' σ'' d _ hlast ih =>
      obtain ⟨rest, hrest, hperm⟩ := hlast.takes.entries
      rw [List.map_append, List.flatMap_append, List.flatMap_singleton, List.append_assoc,
        ← List.append_assoc σ.1.events.entries]
      have hstep : (ds.map Dispatch.entry ++ ([d].map Dispatch.entry ++ σ''.1.events.entries)).Perm
          ((ds.map Dispatch.entry ++ σ'.1.events.entries) ++ d.inserted) := by
        rw [hrest, List.append_assoc]
        exact (hperm.cons d.entry).append_left _
      exact hstep.trans (ih.append_right d.inserted)

/-- Every body is in the queue at most once. -/
structure MicroSimulator.Single (s : MicroSimulator T) : Prop where
  allocated : ∀ x ∈ s.events.entries, x.2 < s.bodies.length
  nodup : (s.events.entries.map Prod.snd).Nodup

/-- An event without a period is at most once among the entries taken and those left. -/
structure Once (ds : List Dispatch) (s : MicroSimulator T) : Prop where
  allocated : ∀ x ∈ ds.map Dispatch.entry ++ s.events.entries, x.2 < s.bodies.length
  once : ∀ event, s.period event = none →
    ((ds.map Dispatch.entry ++ s.events.entries).map Prod.snd).count event ≤ 1

lemma Once.step {ds : List Dispatch} {d : Dispatch} {s s' : MicroSimulator T} (h : Once ds s)
    (htakes : Takes s s' d) : Once (ds ++ [d]) s' := by
  obtain ⟨rest, hrest, hperm⟩ := htakes.entries
  have hentry : d.entry.2 < s.bodies.length := h.allocated d.entry (by simp [hrest])
  have hgrows := htakes.grows
  have hall : ((ds ++ [d]).map Dispatch.entry ++ s'.events.entries).Perm
      ((ds.map Dispatch.entry ++ s.events.entries) ++ d.inserted) := by
    rw [List.map_append, hrest, List.append_assoc, List.append_assoc]
    exact (hperm.cons d.entry).append_left _
  constructor
  · intro x hx
    rw [hall.mem_iff, List.mem_append] at hx
    rcases hx with hx | hx
    · exact (h.allocated x hx).trans_le hgrows
    · have hevent := List.mem_map_of_mem (f := Prod.snd) hx
      rw [htakes.inserted, List.mem_append, List.mem_range'_1] at hevent
      rcases hevent with hevent | hevent
      · omega
      · split at hevent
        · rw [List.mem_singleton] at hevent
          omega
        · cases hevent
  · intro event hnone
    rw [(hall.map Prod.snd).count_eq, List.map_append, List.count_append, htakes.inserted,
      List.count_append]
    by_cases hnew : event < s.bodies.length
    · -- an event that was there before: it is not inserted again
      have hold := h.once event ((htakes.oneShot event hnew).mp hnone)
      have hrange : (List.range' s.bodies.length (s'.bodies.length - s.bodies.length)).count
          event = 0 := by
        rw [List.count_eq_zero, List.mem_range'_1]
        omega
      have hagain : (if d.executed ∧ s'.period d.entry.2 ≠ none then [d.entry.2] else []).count
          event = 0 := by
        rw [List.count_eq_zero]
        intro hmem
        split at hmem
        case isTrue hperiod =>
          rw [List.mem_singleton] at hmem
          exact hperiod.2 (hmem ▸ hnone)
        case isFalse => cases hmem
      omega
    · -- a new one: it is inserted where it is scheduled
      have hold : ((ds.map Dispatch.entry ++ s.events.entries).map Prod.snd).count event = 0 := by
        rw [List.count_eq_zero]
        intro hmem
        obtain ⟨x, hx, rfl⟩ := List.mem_map.mp hmem
        exact hnew (h.allocated x hx)
      have hrange := List.nodup_iff_count_le_one.mp
        (List.nodup_range' (s := s.bodies.length) (n := s'.bodies.length - s.bodies.length)) event
      have hagain : (if d.executed ∧ s'.period d.entry.2 ≠ none then [d.entry.2] else []).count
          event = 0 := by
        rw [List.count_eq_zero]
        intro hmem
        split at hmem
        · rw [List.mem_singleton] at hmem
          omega
        · cases hmem
      omega

/-! ## Tasks that do not clear the schedule -/

def Program.reentrant : Program T W → Reentrant T W
  | .done world => .done world
  | .schedule task initialFromNow period next =>
      .schedule task initialFromNow period fun event => (next event).reentrant
  | .cancel event next => .cancel event next.reentrant
  | .changePeriod event period next => .changePeriod event period next.reentrant
  | .isCanceled event next => .isCanceled event fun canceled => (next canceled).reentrant
  | .now next => .now fun time => (next time).reentrant
  | .stop next => .stop next.reentrant

namespace Event

variable {s : MicroSimulator T} {held : ℕ}

/-- As long as it is in the queue, it makes no difference that the loop holds the body. -/
lemma lockHeld_eq (hheld : held ∈ s.events.entries.map Prod.snd) (event : ℕ) :
    lockHeld s held event = lock s event := by
  rw [lockHeld]
  split
  case isTrue heq => rw [lock, heq, if_pos hheld]
  case isFalse => rfl

lemma cancelHeld_eq (hheld : held ∈ s.events.entries.map Prod.snd) (event : ℕ) :
    cancelHeld s held event = cancel s event := by
  rw [cancelHeld, lockHeld_eq hheld]
  rfl

lemma isCanceledHeld_eq (hheld : held ∈ s.events.entries.map Prod.snd) (event : ℕ) :
    isCanceledHeld s held event = isCanceled s event := by
  rw [isCanceledHeld, lockHeld_eq hheld]
  rfl

lemma changePeriodHeld_eq (hheld : held ∈ s.events.entries.map Prod.snd) (event : ℕ) (period : ℤ) :
    changePeriodHeld s held event period = changePeriod s event period := by
  rw [changePeriodHeld, lockHeld_eq hheld]
  rfl

lemma events_cancel (event : ℕ) : (cancel s event).events = s.events := by
  rw [cancel]
  cases lock s event with
  | none => rfl
  | some body => rfl

lemma events_changePeriod (event : ℕ) (period : ℤ) :
    (changePeriod s event period).events = s.events := by
  rw [changePeriod]
  cases lock s event with
  | none => rfl
  | some body =>
      show (ite (body.period = none) s _).events = s.events
      split <;> rfl

end Event

/-- A program that does not clear the schedule runs as it always did, and the event dispatched
stays in the queue. -/
lemma Program.run_reentrant (program : Program T W) {s : MicroSimulator T} {held : ℕ}
    (hheld : held ∈ s.events.entries.map Prod.snd) :
    (program.reentrant.run held s).2 = (program.run s).2 ∧
      held ∈ (program.run s).2.2.events.entries.map Prod.snd := by
  induction program generalizing s with
  | done world => exact ⟨rfl, hheld⟩
  | schedule task initialFromNow period next ih =>
      have hstays : held ∈ (s.schedule task initialFromNow period).2.events.entries.map Prod.snd := by
        obtain ⟨x, hx, rfl⟩ := List.mem_map.mp hheld
        exact List.mem_map_of_mem (mem_insertUpper.mpr (Or.inr hx))
      exact ih _ hstays
  | cancel event next ih =>
      rw [Program.reentrant, Reentrant.run, Event.cancelHeld_eq hheld]
      exact ih (by rwa [Event.events_cancel])
  | changePeriod event period next ih =>
      rw [Program.reentrant, Reentrant.run, Event.changePeriodHeld_eq hheld]
      exact ih (by rwa [Event.events_changePeriod])
  | isCanceled event next ih =>
      rw [Program.reentrant, Reentrant.run, Event.isCanceledHeld_eq hheld]
      exact ih _ hheld
  | now next ih => exact ih _ hheld
  | stop next ih => exact ih (s := s.stop) hheld

/-- **A pass with such tasks** is a pass of the loop without `clearSchedule`, as long as no time
overflows. -/
theorem MicroSimulator.pass_reentrant (exec : T → W → Program T W) {s : MicroSimulator T}
    (world : W) {entry : ℤ × ℕ} (hbegin : s.events.begin? = some entry)
    (hfits : ∀ change ∈ (s.dispatch (fun task world => (exec task world).reentrant) world
      entry).1.changes, change.Fits entry.1) :
    (s.pass (fun task world => (exec task world).reentrant) world entry).map Prod.snd =
      some (s.iterate exec world entry).2 := by
  have hheld : entry.2 ∈ ({ s with now := entry.1 } : MicroSimulator T).events.entries.map
      Prod.snd := by
    rw [entries_of_begin? hbegin]
    exact List.mem_cons_self
  simp only [pass, if_pos hfits]
  rw [dispatch, iterate]
  cases s.bodies[entry.2]? with
  | none => simp [hbegin]
  | some body =>
      cases hcanceled : body.isCanceled with
      | true => simp [hcanceled, hbegin]
      | false =>
          obtain ⟨hrun, hstays⟩ := (exec body.body world).run_reentrant hheld
          simp only [hcanceled, Bool.false_eq_true, if_false, execute, hrun]
          cases hperiod : (((exec body.body world).run { s with now := entry.1 }).2.2).period
              entry.2 with
          | none =>
              obtain ⟨x, hx, -⟩ := List.mem_map.mp hstays
              obtain ⟨first, hfirst⟩ := exists_begin?_of_mem hx
              simp only [hfirst, Option.map_some]
          | some p =>
              have hmem := Multimap.mem_insert_self
                (((exec body.body world).run { s with now := entry.1 }).2.2.events)
                ((((exec body.body world).run { s with now := entry.1 }).2.2).now + p) entry.2
              obtain ⟨first, hfirst⟩ := exists_begin?_of_mem hmem
              simp only [hfirst, Option.map_some]

/-! ## What becomes of the entries -/

lemma MicroSimulator.Single.once {s : MicroSimulator T} (h : s.Single) : Once [] s where
  allocated := h.allocated
  once event _ := List.nodup_iff_count_le_one.mp h.nodup event

lemma Once.executed {ds : List Dispatch} {s : MicroSimulator T} (h : Once ds s) {event : ℕ}
    (hnone : s.period event = none) :
    (ds.countP fun d => d.executed ∧ d.entry.2 = event) ≤ 1 := by
  have hall := h.once event hnone
  have hle : (ds.countP fun d => d.executed ∧ d.entry.2 = event) ≤
      ds.countP fun d => d.entry.2 = event :=
    List.countP_mono_left fun d _ hd => by
      simp only [decide_eq_true_eq] at hd ⊢
      exact hd.2
  have hcount : ((ds.map Dispatch.entry).map Prod.snd).count event =
      ds.countP fun d => d.entry.2 = event := by
    rw [List.map_map, List.count, List.countP_map]
    refine List.countP_congr fun d _ => ?_
    simp
  rw [List.map_append, List.count_append] at hall
  omega

/-- **When `simulate` removes exactly the entries it has dispatched.**  In any state, a pass erases
its own entry and no other if and only if its body stays behind that entry.  In a run of such
passes every entry that was there or is inserted is taken once or is still in the queue, and an
event without a period is executed at most once. -/
theorem simulate_erases_dispatched_iff (exec : T → W → Reentrant T W) :
    (∀ (s : MicroSimulator T) (world : W) (entry : ℤ × ℕ), s.events.begin? = some entry →
      (s.ErasesDispatched exec world entry ↔ s.Tame exec world entry)) ∧
    ∀ (endSim : ℤ) (σ σ' : MicroSimulator T × W) (ds : List Dispatch),
      Run (TamePass exec endSim) σ ds σ' →
      (ds.map Dispatch.entry ++ σ'.1.events.entries).Perm
        (σ.1.events.entries ++ ds.flatMap Dispatch.inserted) ∧
      (σ.1.Single → ∀ event, σ'.1.period event = none →
        (ds.countP fun d => d.executed ∧ d.entry.2 = event) ≤ 1) := by
  refine ⟨fun s world entry => s.erasesDispatched_iff exec world entry, ?_⟩
  intro endSim σ σ' ds hrun
  refine ⟨taken_perm hrun, ?_⟩
  intro hsingle event hnone
  have honce : Once ds σ'.1 :=
    hrun.induct (P := fun ds σ' => Once ds σ'.1) hsingle.once
      fun ds σ' d σ'' h hstep => h.step hstep.takes
  exact honce.executed hnone

/-- Two tasks: one schedules an event for the moment before, and one clears the schedule. -/
def hasty : Bool → Unit → Reentrant Bool Unit
  | true, world => .schedule false (-1) none fun _ => .done world
  | false, world => .clearSchedule (.done world)

/-- The first task loses the event it has scheduled, and will be run again; the second one leaves an
empty queue for `erase`. -/
theorem simulate_erases_another :
    (¬(({ now := 0 } : MicroSimulator Bool).schedule true 5 none).2.ErasesDispatched hasty () (5, 0) ∧
      ∃ dispatched s', (({ now := 0 } : MicroSimulator Bool).schedule true 5 none).2.pass hasty ()
        (5, 0) = some (dispatched, (), s') ∧ dispatched.changes = [.insert (-1) 1] ∧
          s'.events.entries = [(5, 0)]) ∧
    ¬(({ now := 0 } : MicroSimulator Bool).schedule false 5 none).2.ErasesDispatched hasty () (5, 0) ∧
      (({ now := 0 } : MicroSimulator Bool).schedule false 5 none).2.pass hasty () (5, 0) = none := by
  refine ⟨⟨?_, _, _, rfl, rfl, rfl⟩, ?_, rfl⟩
  · rw [MicroSimulator.erasesDispatched_iff hasty _ () (5, 0) rfl]
    intro htame
    have hlater : (0 : ℤ) ≤ -1 := ((htame ⟨true, none, false⟩ rfl rfl).1 _ List.mem_cons_self).1
    omega
  · rw [MicroSimulator.erasesDispatched_iff hasty _ () (5, 0) rfl]
    intro htame
    exact ((htame ⟨false, none, false⟩ rfl rfl).1 _ List.mem_cons_self).1

end CpsCore

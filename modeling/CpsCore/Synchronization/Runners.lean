import Mathlib
import CpsCore.Aggregation.Aggregator
import CpsCore.Synchronization.SynchronizedRunner

/-!
# The runners of an aggregator

`SimpleRunner` asks its aggregator for the runnable objects at each stage, and calls all of them
even if one fails.  `AggregatableRunner` is an object of the aggregator, is told of the others when
they are added, and stops at the first that fails.

* `Outcome`: what a runner has called, and with what result.
* `AggregatableRunner.Step`: the histories of aggregators one of whose objects is the runner.
* `RunnersAgree`: neither stops before a call fails; then the one stops at once, and the other behind the
  stage.
* `runners_agree`: so it is in every history.

The world an object acts on is not that of the aggregators: objects add nothing while they run.
-/

namespace CpsCore

variable {τ Obj ι W : Type}

/-! ## The loops -/

/-- The calls of `run` in their order, the world they have left behind, and whether a call has
failed. -/
structure Outcome (Obj W : Type) where
  calls : List (RunStage × Obj)
  world : W
  error : Bool

/-- `if (...) return true;`, and what comes after. -/
def Outcome.andThen (ran : Outcome Obj W) (next : W → Outcome Obj W) : Outcome Obj W :=
  if ran.error then ran
  else
    let rest := next ran.world
    { rest with calls := ran.calls ++ rest.calls }

namespace SimpleRunner

variable (run : Obj → RunStage → W → Bool × W)

/-- The loop of `runStage`, with its variable `error`. -/
def loop (stage : RunStage) : List Obj → Bool → W → Outcome Obj W
  | [], error, world => ⟨[], world, error⟩
  | it :: objects, error, world =>
      let ran := run it stage world
      let rest := loop stage objects (if ran.1 then true else error) ran.2
      { rest with calls := (stage, it) :: rest.calls }

def runStage (runnableObjects : List Obj) (stage : RunStage) (world : W) : Outcome Obj W :=
  loop run stage runnableObjects false world

def runStages (runnableObjects : List Obj) : List RunStage → W → Outcome Obj W
  | [], world => ⟨[], world, false⟩
  | stage :: stages, world =>
      (runStage run runnableObjects stage world).andThen (runStages runnableObjects stages)

def runAllStages (runnableObjects : List Obj) (world : W) : Outcome Obj W :=
  (runStage run runnableObjects .init world).andThen fun world =>
    (runStage run runnableObjects .normal world).andThen fun world =>
      (runStage run runnableObjects .final world).andThen fun world => ⟨[], world, false⟩

end SimpleRunner

namespace AggregatableRunner

variable (run : Obj → RunStage → W → Bool × W)

def runStage : List Obj → RunStage → W → Outcome Obj W
  | [], _, world => ⟨[], world, false⟩
  | it :: objects, stage, world =>
      let ran := run it stage world
      (⟨[(stage, it)], ran.2, ran.1⟩ : Outcome Obj W).andThen (runStage objects stage)

def runAllStages (runnableObjects_ : List Obj) (world : W) : Outcome Obj W :=
  (runStage run runnableObjects_ .init world).andThen fun world =>
    (runStage run runnableObjects_ .normal world).andThen fun world =>
      (runStage run runnableObjects_ .final world).andThen fun world => ⟨[], world, false⟩

end AggregatableRunner

/-! ## The objects a runner knows -/

namespace AggregatableRunner

variable [DecidableEq Obj] [DecidableEq ι] {C : Classes τ Obj}

def notifyAggregationOnUpdate (C : Classes τ Obj) (runnable : τ) (container : List Obj) :
    List Obj :=
  C.getAll container runnable none

/-- The aggregator whose objects an operation notifies, as it is then. -/
def notified (w : World C ι) : Operation ι Obj → List Obj
  | .add agg obj => w.container agg ++ [obj]
  | .merge agg source => w.container agg ++ w.container source
  | .clear _ => []
  | .release _ => []

/-- An operation on aggregators, and what `runnableObjects_` becomes.  The runner is not added to a
second aggregator; the other objects may be in any number of them. -/
structure Step (runnable : τ) (runner : Obj) (σ : World C ι × List Obj)
    (operation : Operation ι Obj) (σ' : World C ι × List Obj) : Prop where
  step : World.Step σ.1 operation σ'.1
  alone : ∀ agg, operation = .add agg runner → ∀ agg' ≠ agg, runner ∉ σ.1.container agg'
  update : σ'.2 = if runner ∈ notified σ.1 operation
    then notifyAggregationOnUpdate C runnable (notified σ.1 operation) else σ.2

/-- The runner is in one aggregator at most, and knows its runnable objects. -/
structure Tracks (runnable : τ) (runner : Obj) (σ : World C ι × List Obj) : Prop where
  alone : ∀ agg agg', runner ∈ σ.1.container agg → runner ∈ σ.1.container agg' → agg = agg'
  known : ∀ agg, runner ∈ σ.1.container agg → σ.2 = C.getAll (σ.1.container agg) runnable none

variable {runnable : τ} {runner : Obj}

omit [DecidableEq ι] in
lemma tracks_initial : Tracks runnable runner (({}, []) : World C ι × List Obj) :=
  ⟨fun _ _ hmem => absurd hmem List.not_mem_nil, fun _ hmem => absurd hmem List.not_mem_nil⟩

/-- The aggregators other than `agg` have lost the runner, or have it as before. -/
lemma Tracks.update {σ σ' : World C ι × List Obj} (h : Tracks runnable runner σ) (agg : ι)
    {pool : List Obj} (hagg : σ'.1.container agg = pool)
    (hothers : ∀ agg', agg' ≠ agg → runner ∈ σ'.1.container agg' →
      σ'.1.container agg' = σ.1.container agg' ∧ runner ∉ pool)
    (hknown : σ'.2 = if runner ∈ pool then C.getAll pool runnable none else σ.2) :
    Tracks runnable runner σ' := by
  constructor
  · intro agg₁ agg₂ h₁ h₂
    by_cases hne₁ : agg₁ = agg
    · by_cases hne₂ : agg₂ = agg
      · rw [hne₁, hne₂]
      · subst hne₁
        exact absurd (hagg ▸ h₁) (hothers agg₂ hne₂ h₂).2
    · obtain ⟨hsame₁, hpool⟩ := hothers agg₁ hne₁ h₁
      by_cases hne₂ : agg₂ = agg
      · subst hne₂
        exact absurd (hagg ▸ h₂) hpool
      · exact h.alone agg₁ agg₂ (hsame₁ ▸ h₁) ((hothers agg₂ hne₂ h₂).1 ▸ h₂)
  · intro agg' hmem
    by_cases hne : agg' = agg
    · subst hne
      rw [hagg] at hmem ⊢
      rw [hknown, if_pos hmem]
    · obtain ⟨hsame, hpool⟩ := hothers agg' hne hmem
      rw [hknown, if_neg hpool, hsame]
      exact h.known agg' (hsame ▸ hmem)

lemma Step.tracks {σ σ' : World C ι × List Obj} {operation : Operation ι Obj}
    (hstep : Step runnable runner σ operation σ') (h : Tracks runnable runner σ) :
    Tracks runnable runner σ' := by
  obtain ⟨w, objects⟩ := σ
  obtain ⟨w', objects'⟩ := σ'
  obtain ⟨hworld, halone, hupdate⟩ := hstep
  dsimp only at hworld halone hupdate
  cases hworld with
  | @add agg obj =>
      refine h.update agg (w.container_add agg obj) ?_ hupdate
      intro agg' hne hmem
      have hsame := w.container_add_of_ne obj hne
      refine ⟨hsame, fun hpool => ?_⟩
      rw [hsame] at hmem
      rcases List.mem_append.mp hpool with hold | hnew
      · exact hne (h.alone agg' agg hmem hold)
      · obtain rfl := List.mem_singleton.mp hnew
        exact halone agg rfl agg' hne hmem
  | @merge agg source hsource =>
      refine h.update agg (w.container_merge hsource) ?_ hupdate
      intro agg' hne hmem
      by_cases hfrom : agg' = source
      · rw [hfrom, w.container_merge_source] at hmem
        exact absurd hmem List.not_mem_nil
      · have hsame := w.container_merge_of_ne hne hfrom
        refine ⟨hsame, fun hpool => ?_⟩
        rw [hsame] at hmem
        rcases List.mem_append.mp hpool with hold | hmoved
        · exact hne (h.alone agg' agg hmem hold)
        · exact hfrom (h.alone agg' source hmem hmoved)
  | @clear agg =>
      refine h.update agg (Function.update_self ..) ?_ hupdate
      exact fun agg' hne _ => ⟨Function.update_of_ne hne .., List.not_mem_nil⟩
  | release =>
      have hsame : objects' = objects := by simpa [notified] using hupdate
      rw [hsame]
      exact ⟨h.alone, h.known⟩

end AggregatableRunner

/-! ## What the runners do -/

/-- Calls made one after the other, whatever they return. -/
def Outcome.ofCalls (run : Obj → RunStage → W → Bool × W) :
    List (RunStage × Obj) → W → Outcome Obj W
  | [], world => ⟨[], world, false⟩
  | call :: calls, world =>
      let ran := run call.2 call.1 world
      let rest := ofCalls run calls ran.2
      ⟨call :: rest.calls, rest.world, ran.1 || rest.error⟩

/-- Every object at every stage. -/
def stagedCalls (objects : List Obj) (stages : List RunStage) : List (RunStage × Obj) :=
  stages.flatMap fun stage => objects.map (stage, ·)

/-- Two runners over these objects and stages.  If no call fails, both make them all.  Otherwise the
first one ends with the first call that fails, and the second one with the stage of that call. -/
inductive RunnersAgree (run : Obj → RunStage → W → Bool × W) (objects : List Obj)
    (stages : List RunStage) (world : W) : Outcome Obj W → Outcome Obj W → Prop
  | succeed (hall : (Outcome.ofCalls run (stagedCalls objects stages) world).error = false) :
      RunnersAgree run objects stages world (.ofCalls run (stagedCalls objects stages) world)
        (.ofCalls run (stagedCalls objects stages) world)
  | fail {done rest : List RunStage} {stage : RunStage} {called left : List Obj} {it : Obj}
      (hstages : stages = done ++ stage :: rest) (hobjects : objects = called ++ it :: left)
      (hbefore : (Outcome.ofCalls run (stagedCalls objects done ++ called.map (stage, ·))
        world).error = false)
      (hfails : (Outcome.ofCalls run (stagedCalls objects done ++ (called ++ [it]).map (stage, ·))
        world).error = true) :
      RunnersAgree run objects stages world
        (.ofCalls run (stagedCalls objects done ++ (called ++ [it]).map (stage, ·)) world)
        (.ofCalls run (stagedCalls objects (done ++ [stage])) world)

variable {run : Obj → RunStage → W → Bool × W}

namespace Outcome

lemma ofCalls_append (calls calls' : List (RunStage × Obj)) (world : W) :
    ofCalls run (calls ++ calls') world =
      ⟨(ofCalls run calls world).calls ++ (ofCalls run calls' (ofCalls run calls world).world).calls,
        (ofCalls run calls' (ofCalls run calls world).world).world,
        (ofCalls run calls world).error ||
          (ofCalls run calls' (ofCalls run calls world).world).error⟩ := by
  induction calls generalizing world with
  | nil => rfl
  | cons call calls ih => simp only [List.cons_append, ofCalls, ih, Bool.or_assoc]

/-- What comes after is made, if nothing has failed. -/
lemma andThen_ofCalls {calls : List (RunStage × Obj)} {world : W}
    (h : (ofCalls run calls world).error = false) (calls' : List (RunStage × Obj)) :
    (ofCalls run calls world).andThen (ofCalls run calls') = ofCalls run (calls ++ calls') world := by
  rw [andThen, if_neg (by simp [h]), ofCalls_append, h, Bool.false_or]

end Outcome

/-! ## One stage -/

/-- The `SimpleRunner` calls all objects. -/
lemma SimpleRunner.runStage_eq (objects : List Obj) (stage : RunStage) (world : W) :
    SimpleRunner.runStage run objects stage world =
      .ofCalls run (objects.map (stage, ·)) world := by
  have hloop : ∀ (error : Bool) (world : W), loop run stage objects error world =
      { Outcome.ofCalls run (objects.map (stage, ·)) world with
        error := error || (Outcome.ofCalls run (objects.map (stage, ·)) world).error } := by
    induction objects with
    | nil => intro error world; simp [loop, Outcome.ofCalls]
    | cons it objects ih =>
        intro error world
        simp only [loop, ih, List.map_cons, Outcome.ofCalls]
        cases (run it stage world).1 <;> simp
  rw [runStage, hloop, Bool.false_or]

/-- The `AggregatableRunner` calls all objects, or those up to the first that fails. -/
lemma AggregatableRunner.runStage_cases (objects : List Obj) (stage : RunStage) (world : W) :
    ((Outcome.ofCalls run (objects.map (stage, ·)) world).error = false ∧
      AggregatableRunner.runStage run objects stage world =
        .ofCalls run (objects.map (stage, ·)) world) ∨
    ∃ called it left, objects = called ++ it :: left ∧
      (Outcome.ofCalls run (called.map (stage, ·)) world).error = false ∧
      (Outcome.ofCalls run ((called ++ [it]).map (stage, ·)) world).error = true ∧
      AggregatableRunner.runStage run objects stage world =
        .ofCalls run ((called ++ [it]).map (stage, ·)) world := by
  induction objects generalizing world with
  | nil => exact Or.inl ⟨rfl, rfl⟩
  | cons it objects ih =>
      rw [runStage, Outcome.andThen]
      cases hfails : (run it stage world).1 with
      | true => exact Or.inr ⟨[], it, objects, rfl, rfl, by simp [Outcome.ofCalls, hfails],
          by simp [Outcome.ofCalls, hfails]⟩
      | false =>
          rcases ih (run it stage world).2 with
            ⟨hall, hran⟩ | ⟨called, failed, left, rfl, hbefore, herror, hran⟩
          · exact Or.inl ⟨by simp [Outcome.ofCalls, hfails, hall],
              by simp [Outcome.ofCalls, hfails, hran]⟩
          · exact Or.inr ⟨it :: called, failed, left, rfl,
              by simp [Outcome.ofCalls, hfails, hbefore],
              by simpa [Outcome.ofCalls, hfails] using herror,
              by simp [Outcome.ofCalls, hfails, hran]⟩

/-! ## All stages -/

/-- A stage at which nothing fails, in front. -/
lemma RunnersAgree.cons {objects : List Obj} {stage : RunStage} {stages : List RunStage} {world : W}
    {own simple : Outcome Obj W}
    (hstage : (Outcome.ofCalls run (objects.map (stage, ·)) world).error = false)
    (h : RunnersAgree run objects stages (Outcome.ofCalls run (objects.map (stage, ·)) world).world own
      simple) :
    RunnersAgree run objects (stage :: stages) world
      ((Outcome.ofCalls run (objects.map (stage, ·)) world).andThen fun _ => own)
      ((Outcome.ofCalls run (objects.map (stage, ·)) world).andThen fun _ => simple) := by
  have hfront : ∀ calls,
      ((Outcome.ofCalls run (objects.map (stage, ·)) world).andThen fun _ =>
        .ofCalls run calls (Outcome.ofCalls run (objects.map (stage, ·)) world).world) =
      .ofCalls run (objects.map (stage, ·) ++ calls) world :=
    fun calls => Outcome.andThen_ofCalls hstage calls
  have herror : ∀ calls, (Outcome.ofCalls run (objects.map (stage, ·) ++ calls) world).error =
      (Outcome.ofCalls run calls
        (Outcome.ofCalls run (objects.map (stage, ·)) world).world).error := by
    intro calls
    rw [Outcome.ofCalls_append, hstage, Bool.false_or]
  cases h with
  | succeed hall =>
      rw [hfront]
      exact .succeed ((herror _).trans hall)
  | @fail done rest failing called left it hstages hobjects hbefore hfails =>
      have hcalls : ∀ calls, objects.map (stage, ·) ++ (stagedCalls objects done ++ calls) =
          stagedCalls objects (stage :: done) ++ calls := fun calls =>
        (List.append_assoc _ _ _).symm
      rw [hfront, hfront, hcalls]
      refine .fail (congrArg (stage :: ·) hstages) hobjects ?_ ?_
      · rw [← hcalls, herror]
        exact hbefore
      · rw [← hcalls, herror]
        exact hfails

/-- The stages of the `AggregatableRunner`, one after the other. -/
lemma agree_runStages (objects : List Obj) (stages : List RunStage) (world : W) :
    RunnersAgree run objects stages world
      (stages.foldr (fun stage next world =>
        (AggregatableRunner.runStage run objects stage world).andThen next)
        (fun world => ⟨[], world, false⟩) world)
      (SimpleRunner.runStages run objects stages world) := by
  induction stages generalizing world with
  | nil => exact .succeed rfl
  | cons stage stages ih =>
      rw [List.foldr_cons, SimpleRunner.runStages, SimpleRunner.runStage_eq]
      rcases AggregatableRunner.runStage_cases objects stage world with
        ⟨hstage, hran⟩ | ⟨called, it, left, hobjects, hbefore, hfails, hran⟩
      · rw [hran]
        exact (ih _).cons hstage
      · have hfailed : (Outcome.ofCalls run (objects.map (stage, ·)) world).error = true := by
          rw [hobjects, List.append_cons, List.map_append, Outcome.ofCalls_append, hfails,
            Bool.true_or]
        rw [hran, Outcome.andThen, Outcome.andThen, if_pos hfails, if_pos hfailed]
        have hstaged : stagedCalls objects ([] ++ [stage]) = objects.map (stage, ·) := by
          simp [stagedCalls]
        rw [← hstaged]
        exact @RunnersAgree.fail _ _ run objects _ world [] stages stage called left it rfl hobjects
          hbefore hfails

/-- **The two runners agree.**  In every history of aggregators in which the `AggregatableRunner`
is in no two of them at once, it and a `SimpleRunner` of its aggregator call all runnable objects of
the aggregator, stage by stage, as long as none fails.  Then it stops at once, and the other at the
end of the stage, and both fail. -/
theorem runners_agree [DecidableEq Obj] [DecidableEq ι] (C : Classes τ Obj) (runnable : τ)
    (runner : Obj) {operations : List (Operation ι Obj)} {w : World C ι}
    {runnableObjects_ : List Obj}
    (hrun : Transition.Run (AggregatableRunner.Step runnable runner) ({}, []) operations
      (w, runnableObjects_)) {agg : ι} (hmem : runner ∈ w.container agg)
    (run : Obj → RunStage → W → Bool × W) (world : W) :
    let objects := C.getAll (w.container agg) runnable none
    RunnersAgree run objects [.init, .normal, .final] world
      (AggregatableRunner.runAllStages run runnableObjects_ world)
      (SimpleRunner.runAllStages run objects world) := by
  intro objects
  have htracks : AggregatableRunner.Tracks runnable runner (w, runnableObjects_) :=
    hrun.invariant AggregatableRunner.tracks_initial fun _ _ _ h hstep => hstep.tracks h
  have hknown : runnableObjects_ = objects := htracks.known agg hmem
  rw [hknown]
  exact agree_runStages objects _ world

/-- Object 0 is the runner, the others can be run. -/
def runnerAndObjects : Classes Unit (Fin 3) where
  deps _ := []
  isA obj _ := 0 < obj.val
  isBaseOf _ _ := true
  isComplete _ := true
  isBaseOf_refl _ := rfl

/-- The first object fails in the second stage: the other runner goes on to the end of it. -/
theorem runners_agree_failing :
    ∃ (w : World runnerAndObjects Unit) (run : Fin 3 → RunStage → ℕ → Bool × ℕ),
      let objects := runnerAndObjects.getAll (w.container ()) () none
      let simple := SimpleRunner.runAllStages run objects 0
      let own := AggregatableRunner.runAllStages run [1, 2] 0
      own.calls = [(.init, 1), (.init, 2), (.normal, 1)] ∧
      simple.calls = [(.init, 1), (.init, 2), (.normal, 1), (.normal, 2)] ∧ simple.world = 4 ∧
      RunnersAgree run objects [.init, .normal, .final] 0 own simple := by
  let w₁ : World runnerAndObjects Unit := ({} : World runnerAndObjects Unit).add () 1
  have hone : AggregatableRunner.Step () 0 (({}, []) : World runnerAndObjects Unit × _)
      (.add () 1) (w₁, []) := ⟨World.Step.add rfl, by simp, rfl⟩
  have htwo : AggregatableRunner.Step () 0 (w₁, []) (.add () 0) (w₁.add () 0, [1]) :=
    ⟨World.Step.add rfl, fun _ _ _ _ => show (0 : Fin 3) ∉ [1] by decide, rfl⟩
  have hthree : AggregatableRunner.Step () 0 (w₁.add () 0, [1]) (.add () 2)
      ((w₁.add () 0).add () 2, [1, 2]) := ⟨World.Step.add rfl, by simp, rfl⟩
  have hrun := ((Transition.Run.single hone).snoc htwo).snoc hthree
  have hmem : 0 ∈ ((w₁.add () 0).add () 2).container () := by decide
  exact ⟨_, fun obj stage world => (obj = 1 ∧ stage = .normal, world + 1), by decide, by decide,
    by decide, runners_agree runnerAndObjects () 0 hrun hmem _ 0⟩

end CpsCore

import Mathlib
import CpsCore.Synchronization.StageBarrier

/-!
# Spurious wake-ups

The condition wait of a runner may return without a notify.  The runner looks at the failure flag
again, but not at the stage: it goes on with whatever stage there is, the one it has just finished
included.

* `System.Stale`: a runner whose wait has returned is about to go on with a stage it has finished.
* `System.dozing`: the same system with everyone still asleep who has been woken and not gone on.
  Short of a stale step it satisfies the invariant of the barrier (`System.Dozes`), so what is true
  there is true here.
-/

namespace CpsCore

/-! ## What a runner has posted for -/

/-- The stages a runner has run without an error. -/
def Runner.completed (r : Runner) : List RunStage :=
  (r.history.filter fun entry => true ∉ entry.2).map Prod.fst

/-- The stages a runner has posted for: all it has completed, unless it is just about to post. -/
def Runner.posted (r : Runner) : List RunStage :=
  if r.pc = .post then r.completed.dropLast else r.completed

lemma Runner.history_prefix_executed (r : Runner) : r.history <+: r.executed := by
  unfold executed
  split
  · exact List.prefix_append _ _
  · exact List.prefix_rfl

lemma Runner.posted_sublist (r : Runner) : r.posted.Sublist (r.executed.map Prod.fst) := by
  have hcompleted : r.completed.Sublist (r.executed.map Prod.fst) :=
    ((List.filter_sublist).trans r.history_prefix_executed.sublist).map Prod.fst
  unfold posted
  split
  · exact (List.dropLast_sublist _).trans hcompleted
  · exact hcompleted

instance (objects : ℕ) (r : Runner) (stage : RunStage) : Decidable (r.Finished objects stage) :=
  inferInstanceAs (Decidable (_ ∈ r.history))

/-- Every stage change makes a runner run once. -/
structure System.RunsOnce {n : ℕ} (objects : Fin n → ℕ) (s : System n) : Prop where
  executes : ∀ i, ((s.runner i).executed.map Prod.fst).Nodup
  /-- The master has set the first `rank` stages. -/
  posts : ∀ i stage, (s.runner i).posted.count stage ≤
    (runStages.take s.sync.runStage.rank).count stage
  /-- The posts the master has taken in a stage, and those that wait for it. -/
  received : ∀ stage k, s.master = .timedWait stage k → k + s.sync.finishedStage ≤
    (Finset.univ.filter fun i => (s.runner i).Finished (objects i) stage).card

/-! ## Asleep -/

/-- A runner whose wait has returned, as if it had not. -/
def Runner.dozing (r : Runner) : Runner :=
  if r.pc = .notified ∨ r.pc = .recheck then { r with pc := .waiting } else r

lemma Runner.dozing_of_woken {r : Runner} (h : r.pc = .notified ∨ r.pc = .recheck) :
    r.dozing = { r with pc := .waiting } := if_pos h

lemma Runner.dozing_of_awake {r : Runner} (h : ¬ (r.pc = .notified ∨ r.pc = .recheck)) :
    r.dozing = r := if_neg h

@[simp] lemma Runner.dozing_wake (r : Runner) : r.wake.dozing = r.dozing := by
  unfold wake
  split
  case isTrue hwaiting =>
    rw [dozing_of_woken (Or.inl rfl), dozing_of_awake (by simp [hwaiting]), ← hwaiting]
  case isFalse => rfl

@[simp] lemma Runner.executed_dozing (r : Runner) : r.dozing.executed = r.executed := by
  by_cases h : r.pc = .notified ∨ r.pc = .recheck
  · rw [dozing_of_woken h]
    rcases h with h | h <;> simp [executed, h]
  · rw [dozing_of_awake h]

lemma Runner.history_dozing (r : Runner) : r.dozing.history = r.history := by
  unfold dozing
  split <;> rfl

def System.dozing {n : ℕ} (s : System n) : System n :=
  ⟨s.sync, s.master, fun i => (s.runner i).dozing⟩

/-- Runner `i` is about to go on with the stage it has run last. -/
def System.Stale {n : ℕ} (s : System n) (actor : Actor n) : Prop :=
  ∃ i, actor = .runner i ∧ (s.runner i).pc = .recheck ∧ s.sync.failure = false ∧
    s.sync.runStage = (s.runner i).lastRunStage

/-- What holds although waits return at will. -/
structure System.Dozes {n : ℕ} (objects : Fin n → ℕ) (s : System n) : Prop where
  inv : s.dozing.Inv objects
  holds : ∀ i, (s.runner i).pc.holdsMutex = true → s.sync.runStageMutex = .runner i

lemma System.Dozes.initial {n : ℕ} (objects : Fin n → ℕ) : System.Dozes objects ({} : System n) where
  inv := by simpa [System.dozing, Runner.dozing] using System.Inv.initial objects
  holds := by simp

/-- Only a spurious wake-up and a notify make a runner notified. -/
lemma RunnerStep.awake {n objects : ℕ} {i : Fin n} {s s' : Synchronizer n} {r r' : Runner}
    (hstep : RunnerStep objects true i s r s' r') (h : r'.pc ≠ .notified) :
    RunnerStep objects false i s r s' r' := by
  cases hstep with
  | wakeup _ _ => exact absurd rfl h
  | lock h₁ h₂ => exact .lock h₁ h₂
  | failure h₁ h₂ => exact .failure h₁ h₂
  | changed h₁ h₂ h₃ => exact .changed h₁ h₂ h₃
  | wait h₁ h₂ h₃ => exact .wait h₁ h₂ h₃
  | reacquire h₁ h₂ => exact .reacquire h₁ h₂
  | woken h₁ h₂ => exact .woken h₁ h₂
  | unlock h₁ => exact .unlock h₁
  | call error h₁ h₂ => exact .call error h₁ h₂
  | failed h₁ h₂ h₃ => exact .failed h₁ h₂ h₃
  | finished h₁ h₂ h₃ => exact .finished h₁ h₂ h₃
  | post h₁ => exact .post h₁

/-- A runner that is awake does in the sleeping system what it does here. -/
lemma System.Dozes.step_awake {n : ℕ} {objects : Fin n → ℕ} {s : System n} (h : s.Dozes objects)
    {i : Fin n} {sync : Synchronizer n} {r : Runner}
    (hstep : RunnerStep (objects i) true i s.sync (s.runner i) sync r)
    (hbefore : ¬ ((s.runner i).pc = .notified ∨ (s.runner i).pc = .recheck))
    (hafter : ¬ (r.pc = .notified ∨ r.pc = .recheck)) :
    System.Inv objects ⟨sync, s.master, Function.update s.dozing.runner i r.dozing⟩ := by
  have hsame : s.dozing.runner i = s.runner i := Runner.dozing_of_awake hbefore
  have hstep' := hstep.awake fun hpc => hafter (Or.inl hpc)
  rw [← hsame] at hstep'
  rw [Runner.dozing_of_awake hafter]
  exact h.inv.stepRunner ⟨sync, r, hstep', rfl⟩

/-- A runner whose wait has returned goes on with the stage it finds, which it has not run. -/
lemma System.Dozes.step_woken {n : ℕ} {objects : Fin n → ℕ} {s : System n} (h : s.Dozes objects)
    {i : Fin n} (hpc : (s.runner i).pc = .recheck)
    (hnew : s.sync.runStage ≠ (s.runner i).lastRunStage) :
    System.Inv objects ⟨s.sync, s.master, Function.update s.dozing.runner i
      { s.runner i with pc := .unlock s.sync.runStage }⟩ := by
  have hdozing : s.dozing.runner i = { s.runner i with pc := .waiting } :=
    Runner.dozing_of_woken (Or.inr hpc)
  have hrunner := h.inv.runner i
  have hbehind := h.inv.behind i
  rw [hdozing] at hrunner hbehind
  have hlt : (s.runner i).lastRunStage.rank < s.sync.runStage.rank :=
    lt_of_le_of_ne hrunner.bound fun heq => hnew (RunStage.rank_injective heq).symm
  have hstage := Runner.next_stage hbehind hlt (rfl : RunnerPc.unlock s.sync.runStage = _)
  refine h.inv.updateRunner rfl rfl (hrunner.goto (by simp) (by simp) hstage (by simp)) le_rfl ?_
    (Or.inl rfl) (fun _ => h.holds i (by simp [hpc])) (by simp)
  rw [hdozing]
  simp [Runner.posts, System.dozing]

theorem System.Dozes.stepRunner {n : ℕ} {objects : Fin n → ℕ} {s s' : System n}
    (h : s.Dozes objects) {i : Fin n} (hstep : System.step objects true s (.runner i) s')
    (hfresh : ¬ s.Stale (.runner i)) : s'.Dozes objects := by
  obtain ⟨sync, r, hstep, rfl⟩ := hstep
  obtain ⟨hmutex, hholds⟩ := hstep.mutex (h.holds i)
  have hrunners : System.dozing ⟨sync, s.master, Function.update s.runner i r⟩ =
      ⟨sync, s.master, Function.update s.dozing.runner i r.dozing⟩ := by
    simp only [System.dozing, System.mk.injEq, true_and]
    exact funext (Function.apply_update (fun _ => Runner.dozing) s.runner i r)
  constructor
  case holds =>
    apply forall_update (P := fun j r => r.pc.holdsMutex = true → sync.runStageMutex = .runner j)
      hholds
    intro j hne hj
    exact hmutex.keeps (by simpa using hne) (by simp) (h.holds j hj)
  case inv =>
    rw [hrunners]
    cases hstep with
    | wakeup _ hpc =>
        -- nothing to see from outside
        have hsame : Runner.dozing { s.runner i with pc := .notified } = (s.runner i).dozing := by
          have hasleep := @Runner.dozing_of_awake (s.runner i) (by simp [hpc])
          rw [Runner.dozing_of_woken (Or.inl rfl), hasleep, ← hpc]
        rw [hsame]
        change System.Inv objects ⟨s.sync, s.master,
          Function.update s.dozing.runner i (s.dozing.runner i)⟩
        rw [Function.update_eq_self]
        exact h.inv
    | reacquire hpc hfree =>
        have hsame : Runner.dozing { s.runner i with pc := .recheck } = s.dozing.runner i :=
          (Runner.dozing_of_woken (Or.inr rfl)).trans (Runner.dozing_of_woken (Or.inl hpc)).symm
        have hnot : (s.dozing.runner i).pc.holdsMutex ≠ true := by
          rw [← hsame, Runner.dozing_of_woken (Or.inr rfl)]
          simp
        rw [hsame]
        refine h.inv.updateRunner rfl rfl ((h.inv.runner i).mono le_rfl id) le_rfl rfl
          (Or.inr (Or.inl hfree)) (fun hheld => absurd hheld hnot) ?_
        intro stage hnotify
        have hmasters := h.inv.masterHolds (by simp [hnotify])
        exact absurd (hmasters.symm.trans hfree) (by simp)
    | woken hpc hfailure =>
        have hnew : s.sync.runStage ≠ (s.runner i).lastRunStage :=
          fun heq => hfresh ⟨i, rfl, hpc, hfailure, heq⟩
        rw [Runner.dozing_of_awake (by simp)]
        exact h.step_woken hpc hnew
    | failure hpc hflag =>
        rcases hpc with hpc | hpc
        · exact h.step_awake (.failure (Or.inl hpc) hflag) (by simp [hpc]) (by simp)
        · have hdozing : s.dozing.runner i = { s.runner i with pc := .waiting } :=
            Runner.dozing_of_woken (Or.inr hpc)
          have hrunner := h.inv.runner i
          rw [hdozing] at hrunner
          rw [Runner.dozing_of_awake (by simp)]
          refine h.inv.updateRunner rfl rfl ?_ le_rfl ?_ hmutex (by simp) (by simp)
          · exact (hrunner.goto (by simp) (by simp) (by simp) (by simp)).mono le_rfl id
          · rw [hdozing]
            simp [Runner.posts, System.dozing]
    | lock hpc hfree => exact h.step_awake (.lock hpc hfree) (by simp [hpc]) (by simp)
    | changed hpc hflag hstage =>
        exact h.step_awake (.changed hpc hflag hstage) (by simp [hpc]) (by simp)
    | wait hpc hflag hstage =>
        exact h.step_awake (.wait hpc hflag hstage) (by simp [hpc]) (by simp)
    | unlock hpc => exact h.step_awake (.unlock hpc) (by simp [hpc]) (by simp)
    | call error hpc hlt => exact h.step_awake (.call error hpc hlt) (by simp [hpc]) (by simp)
    | failed hpc hlen herror =>
        exact h.step_awake (.failed hpc hlen herror) (by simp [hpc]) (by simp)
    | finished hpc hlen herror =>
        exact h.step_awake (.finished hpc hlen herror) (by simp [hpc]) (by simp)
    | post hpc =>
        refine h.step_awake (.post hpc) (by simp [hpc]) ?_
        split <;> simp

theorem System.Dozes.stepMaster {n : ℕ} {objects : Fin n → ℕ} {s s' : System n}
    (h : s.Dozes objects) (hstep : System.step objects true s .master s') : s'.Dozes objects := by
  obtain ⟨sync, pc, wake, hstep, rfl⟩ := hstep
  obtain ⟨hmutex, -⟩ := hstep.mutex h.inv.masterHolds
  have hinv := h.inv.stepMaster ⟨sync, pc, wake, hstep, rfl⟩
  have hholds : ∀ i, (s.runner i).pc.holdsMutex = true → sync.runStageMutex = .runner i :=
    fun i hi => hmutex.keeps (by simp) (by simp) (h.holds i hi)
  cases wake with
  | false => exact ⟨hinv, hholds⟩
  | true =>
      refine ⟨?_, fun i hi => hholds i ((s.runner i).holdsMutex_wake ▸ hi)⟩
      -- whom the master has notified goes on sleeping
      obtain ⟨rfl, -⟩ := hstep.notifies rfl
      simp only [System.dozing, if_true, Runner.dozing_wake]
      constructor
      case runner => exact h.inv.runner
      case behind => exact h.inv.behind
      case balance => simpa [System.dozing] using hinv.balance
      case master => exact hinv.master
      case masterHolds => exact hinv.masterHolds
      case runnerHolds => exact h.inv.runnerHolds
      case news =>
        intro stage hnotify
        exact absurd (hstep.assigned hnotify).1 (by simp)

theorem System.Dozes.step {n : ℕ} {objects : Fin n → ℕ} {s s' : System n} {actor : Actor n}
    (h : s.Dozes objects) (hstep : System.step objects true s actor s')
    (hfresh : ¬ s.Stale actor) : s'.Dozes objects := by
  cases actor with
  | master => exact h.stepMaster hstep
  | runner i => exact h.stepRunner hstep hfresh

/-! ## Once -/

/-- Parties of whom none posted more than `k + 1` times, and those who did. -/
lemma sum_le_add_card {n k : ℕ} {posts : Fin n → ℕ} (hle : ∀ i, posts i ≤ k + 1) :
    ∑ i, posts i ≤ k * n + (Finset.univ.filter fun i => posts i = k + 1).card := by
  have hone : ∀ i, posts i ≤ k + if posts i = k + 1 then 1 else 0 := by
    intro i
    have hposts := hle i
    split <;> omega
  calc ∑ i, posts i ≤ ∑ i, (k + if posts i = k + 1 then 1 else 0) :=
        Finset.sum_le_sum fun i _ => hone i
    _ = k * n + (Finset.univ.filter fun i => posts i = k + 1).card := by
        rw [Finset.sum_add_distrib, Finset.card_filter]
        simp [mul_comm]

theorem System.Dozes.runsOnce {n : ℕ} {objects : Fin n → ℕ} {s : System n} (h : s.Dozes objects) :
    s.RunsOnce objects := by
  have hexecuted : ∀ i, ∃ k ≤ s.sync.runStage.rank,
      (s.runner i).executed.map Prod.fst = runStages.take k := by
    intro i
    obtain ⟨k, hk, hexecuted⟩ := (h.inv.runner i).executed
    exact ⟨k, hk, by simpa [System.dozing] using hexecuted⟩
  constructor
  case executes =>
    intro i
    obtain ⟨k, -, hk⟩ := hexecuted i
    rw [hk]
    exact (List.take_sublist k runStages).nodup (by decide)
  case posts =>
    intro i stage
    obtain ⟨k, hle, hk⟩ := hexecuted i
    have hposted := (s.runner i).posted_sublist
    rw [hk] at hposted
    exact (hposted.trans (List.take_sublist_take_left hle)).count_le stage
  case received =>
    intro stage k hmaster
    have hdozing : s.dozing.master = .timedWait stage k := hmaster
    have hmasterInv := h.inv.master
    rw [hdozing] at hmasterInv
    obtain ⟨hstage, hpositive, -⟩ := hmasterInv
    have hrank : s.dozing.sync.runStage.rank = stage.rank - 1 + 1 := by
      rw [hstage]
      omega
    have hle : ∀ i, (s.dozing.runner i).posts ≤ stage.rank - 1 + 1 := by
      intro i
      rw [← hrank]
      exact (s.dozing.runner i).posts_le.trans (h.inv.runner i).bound
    have hsum := h.inv.balance ((stage.rank - 1) * n + k) (by simp [hdozing])
    have htotal := sum_le_add_card hle
    have hsubset : (Finset.univ.filter fun i => (s.dozing.runner i).posts = stage.rank - 1 + 1) ⊆
        Finset.univ.filter fun i => (s.runner i).Finished (objects i) stage := by
      refine Finset.monotone_filter_right _ fun i _ hposts => ?_
      have hplace : runStages[stage.rank - 1]? = some stage :=
        RunStage.getElem?_runStages.mpr (by omega)
      have hfinished := (h.inv.runner i).finished hplace (by omega)
      unfold Runner.Finished at hfinished ⊢
      rwa [← Runner.history_dozing]
    have hcard := Finset.card_le_card hsubset
    change _ = _ + s.sync.finishedStage at hsum
    omega

/-! ## And no longer -/

/-- A step of one runner, whatever the others are doing. -/
lemma System.step_update {n : ℕ} {objects : Fin n → ℕ} {i : Fin n} {sync sync' : Synchronizer n}
    {master : MasterPc} {runner : Fin n → Runner} {r r' : Runner}
    (hstep : RunnerStep (objects i) true i sync r sync' r') :
    System.step objects true ⟨sync, master, Function.update runner i r⟩ (.runner i)
      ⟨sync', master, Function.update runner i r'⟩ := by
  refine ⟨sync', r', ?_, by simp⟩
  simpa using hstep

/-- A runner calls its objects one after the other, and none returns an error. -/
lemma System.run_objects {n : ℕ} {objects : Fin n → ℕ} {i : Fin n} {sync : Synchronizer n}
    {master : MasterPc} {runner : Fin n → Runner} {r : Runner} {stage : RunStage} {k : ℕ}
    (hk : k ≤ objects i) :
    Transition.Run (System.step objects true)
      ⟨sync, master, Function.update runner i { r with pc := .run stage [] }⟩
      (List.replicate k (.runner i))
      ⟨sync, master, Function.update runner i
        { r with pc := .run stage (List.replicate k false) }⟩ := by
  induction k with
  | zero => exact Transition.Run.nil
  | succ k ih =>
      have hcall := @System.step_update n objects i sync sync master runner _ _
        (.call false (r := { r with pc := .run stage (List.replicate k false) }) rfl
          (by simpa using hk))
      rw [List.replicate_succ', List.replicate_succ']
      exact (ih (Nat.le_of_succ_le hk)).snoc hcall

/-- Then it posts, whatever the stage. -/
lemma System.run_post {n : ℕ} {objects : Fin n → ℕ} {i : Fin n} {sync : Synchronizer n}
    {master : MasterPc} {runner : Fin n → Runner} {r : Runner} {stage : RunStage} :
    ∃ actors, Transition.Run (System.step objects true)
      ⟨sync, master, Function.update runner i { r with pc := .run stage [] }⟩ actors
      ⟨{ sync with finishedStage := sync.finishedStage + 1 }, master, Function.update runner i
        ⟨if stage = .final then .returned false else .lock, stage,
          r.history ++ [(stage, List.replicate (objects i) false)]⟩⟩ := by
  have hcalls := @System.run_objects n objects i sync master runner r stage _ le_rfl
  have hfinished := @System.step_update n objects i sync sync master runner _ _
    (.finished (r := { r with pc := .run stage (List.replicate (objects i) false) }) rfl
      (by simp) (by simp))
  have hpost := @System.step_update n objects i sync _ master runner _ _
    (.post (r := ⟨.post, stage, r.history ++ [(stage, List.replicate (objects i) false)]⟩) rfl)
  exact ⟨_, (hcalls.snoc hfinished).snoc hpost⟩

/-- A stage that is run again. -/
lemma Runner.not_runsOnce_of_mem {n : ℕ} {objects : Fin n → ℕ} {s : System n} {i : Fin n}
    {stage : RunStage} {results : List Bool} (hpc : (s.runner i).pc = .run stage results)
    (hmem : stage ∈ (s.runner i).history.map Prod.fst) : ¬ s.RunsOnce objects := by
  intro honce
  have hnodup := honce.executes i
  rw [Runner.executed, hpc, List.map_append, List.nodup_append] at hnodup
  exact hnodup.2.2 stage hmem stage (by simp) rfl

/-- **A stale step is one too many**: the runner alone can go on to break the rule. -/
theorem System.Dozes.stale_breaks {n : ℕ} {objects : Fin n → ℕ} {s : System n}
    (h : s.Dozes objects) {i : Fin n} (hstale : s.Stale (.runner i)) :
    ∃ actors s', Transition.Run (System.step objects true) s actors s' ∧
      ¬ s'.RunsOnce objects := by
  obtain ⟨_, ⟨⟩, hpc, hfailure, hsame⟩ := hstale
  have hpast := (h.inv.runner i).past
  have hdozing : s.dozing.runner i = { s.runner i with pc := .waiting } :=
    Runner.dozing_of_woken (Or.inr hpc)
  rw [hdozing] at hpast
  have hhistory : (s.runner i).history =
      finishedStages (objects i) (s.runner i).lastRunStage.rank := hpast (by simp)
  have hself : Function.update s.runner i (s.runner i) = s.runner := Function.update_eq_self i _
  have hstart : Transition.Run (System.step objects true) s [.runner i, .runner i]
      ⟨{ s.sync with runStageMutex := .free }, s.master, Function.update s.runner i
        { s.runner i with pc := .run s.sync.runStage [] }⟩ := by
    have hwoken := @System.step_update n objects i _ _ s.master s.runner _ _
      (RunnerStep.woken hpc hfailure)
    have hunlock := @System.step_update n objects i s.sync _ s.master s.runner _ _
      (RunnerStep.unlock (r := { s.runner i with pc := .unlock s.sync.runStage }) rfl)
    rw [hself] at hwoken
    exact (Transition.Run.single hwoken).snoc hunlock
  cases hlast : (s.runner i).lastRunStage with
  | synchronize =>
      -- there was no stage to finish yet, and the master gets a post for none
      obtain ⟨actors, hpost⟩ := @System.run_post n objects i
        { s.sync with runStageMutex := .free } s.master s.runner (s.runner i) s.sync.runStage
      refine ⟨_, _, hstart.trans hpost, fun honce => ?_⟩
      have hstage : s.sync.runStage = .synchronize := hsame.trans hlast
      have hposts := honce.posts i .synchronize
      have hnone : runStages.take s.sync.runStage.rank = [] := by rw [hstage]; rfl
      simp only [hnone, List.count_nil, Nat.le_zero, List.count_eq_zero] at hposts
      refine hposts ?_
      simp [Runner.posted, Runner.completed, hstage]
  | _ =>
      refine ⟨_, _, hstart, @Runner.not_runsOnce_of_mem n objects _ i s.sync.runStage [] ?_ ?_⟩
      · simp
      · simp [hhistory, hsame, hlast, RunStage.rank, runStages]

/-- **Once for every stage**, as long as no runner takes a stage it has run for a new one; and the
first such step is where it ends. -/
theorem runs_once_while_fresh {n : ℕ} (objects : Fin n → ℕ) {actors : List (Actor n)}
    {s : System n} (hrun : Transition.Run
      (fun s actor s' => System.step objects true s actor s' ∧ ¬ s.Stale actor) {} actors s) :
    s.RunsOnce objects ∧ ∀ i, s.Stale (.runner i) →
      ∃ actors' s', Transition.Run (System.step objects true) s actors' s' ∧
        ¬ s'.RunsOnce objects := by
  have hdozes : s.Dozes objects := hrun.invariant (System.Dozes.initial objects)
    fun _ _ _ h hstep => h.step hstep.1 hstep.2
  exact ⟨hdozes.runsOnce, fun i hstale => hdozes.stale_breaks hstale⟩

/-- A step of the only runner. -/
lemma System.step_single {objects : ℕ} {spurious : Bool} {master : MasterPc}
    {s s' : Synchronizer 1} {r r' : Runner} (hstep : RunnerStep objects spurious 0 s r s' r') :
    System.step (fun _ => objects) spurious ⟨s, master, fun _ => r⟩ (.runner 0)
      ⟨s', master, fun _ => r'⟩ := by
  refine ⟨s', r', hstep, ?_⟩
  congr
  funext i
  rw [Subsingleton.elim i 0, Function.update_self]

/-- A step of its master. -/
lemma System.step_master {objects : ℕ} {spurious : Bool} {s s' : Synchronizer 1}
    {pc pc' : MasterPc} {r : Runner} {wake : Bool} (hstep : MasterStep s pc s' pc' wake)
    (hwake : r.wake = r) :
    System.step (fun _ => objects) spurious ⟨s, pc, fun _ => r⟩ .master
      ⟨s', pc', fun _ => r⟩ := by
  refine ⟨s', pc', wake, hstep, ?_⟩
  cases wake <;> simp [hwake]

/-- A fresh step of the only runner. -/
lemma System.fresh_single {objects : ℕ} {master : MasterPc} {s s' : Synchronizer 1} {r r' : Runner}
    (hstep : RunnerStep objects true 0 s r s' r')
    (hfresh : r.pc = .recheck → s.runStage ≠ r.lastRunStage) :
    System.step (fun _ => objects) true ⟨s, master, fun _ => r⟩ (.runner 0)
      ⟨s', master, fun _ => r'⟩ ∧ ¬ System.Stale ⟨s, master, fun _ => r⟩ (.runner 0) := by
  refine ⟨System.step_single hstep, ?_⟩
  rintro ⟨_, -, hpc, -, hsame⟩
  exact hfresh hpc hsame

lemma System.fresh_master {objects : ℕ} {s s' : Synchronizer 1} {pc pc' : MasterPc} {r : Runner}
    {wake : Bool} (hstep : MasterStep s pc s' pc' wake) (hwake : r.wake = r) :
    System.step (fun _ => objects) true ⟨s, pc, fun _ => r⟩ .master ⟨s', pc', fun _ => r⟩ ∧
      ¬ System.Stale ⟨s, pc, fun _ => r⟩ .master := by
  refine ⟨System.step_master hstep hwake, ?_⟩
  rintro ⟨_, hactor, -⟩
  cases hactor

/-- A wait that returns by itself, and goes on once the master has set a stage. -/
theorem runs_once_late : ∃ actors, ∃ s : System 1, Transition.Run
    (fun s actor s' => System.step (fun _ => 1) true s actor s' ∧ ¬ s.Stale actor) {} actors s ∧
    (s.runner 0).Started .init ∧ s.RunsOnce fun _ => 1 := by
  have hwait : Transition.Run
      (fun s actor s' => System.step (fun _ => 1) true s actor s' ∧ ¬ s.Stale actor) {}
      (List.replicate 3 (.runner 0)) ⟨{}, .lock .init, fun _ => { pc := .notified }⟩ :=
    ((Transition.Run.nil.snoc (System.fresh_single (.lock rfl rfl) (by simp))).snoc
      (System.fresh_single (.wait rfl rfl rfl) (by simp))).snoc
      (System.fresh_single (.wakeup rfl rfl) (by simp))
  have hstage : Transition.Run
      (fun s actor s' => System.step (fun _ => 1) true s actor s' ∧ ¬ s.Stale actor)
      ⟨{}, .lock .init, fun _ => { pc := .notified }⟩ (List.replicate 4 .master)
      ⟨⟨.init, false, .free, 0⟩, .timedWait .init 0, fun _ => { pc := .notified }⟩ :=
    (((Transition.Run.nil.snoc (System.fresh_master (.lock rfl) rfl)).snoc
      (System.fresh_master .assign rfl)).snoc (System.fresh_master .notify rfl)).snoc
      (System.fresh_master .unlock rfl)
  have hstart : Transition.Run
      (fun s actor s' => System.step (fun _ => 1) true s actor s' ∧ ¬ s.Stale actor)
      ⟨⟨.init, false, .free, 0⟩, .timedWait .init 0, fun _ => { pc := .notified }⟩
      (List.replicate 3 (.runner 0))
      ⟨⟨.init, false, .free, 0⟩, .timedWait .init 0, fun _ => { pc := .run .init [] }⟩ :=
    ((Transition.Run.nil.snoc (System.fresh_single (.reacquire rfl rfl) (by simp))).snoc
      (System.fresh_single (.woken rfl rfl) (by simp))).snoc
      (System.fresh_single (.unlock rfl) (by simp))
  have hrun := (hwait.trans hstage).trans hstart
  exact ⟨_, _, hrun, by simp [Runner.Started, Runner.executed],
    (runs_once_while_fresh (fun _ => 1) hrun).1⟩

/-- A wait that returns before there is a stage: the runner posts for none, and the master takes
the post for one of the first stage, which nobody has started. -/
theorem runs_once_fails : ¬ ∀ (n : ℕ) (objects : Fin n → ℕ) (actors : List (Actor n))
    (s : System n), Transition.Run (System.step objects true) {} actors s →
    s.RunsOnce objects := by
  intro honce
  have hrunner : Transition.Run (System.step (fun _ : Fin 1 => 1) true) {}
      (List.replicate 9 (.runner 0)) ⟨⟨.synchronize, false, .free, 1⟩, .lock .init,
        fun _ => { history := [(.synchronize, [false])] }⟩ :=
    ((((((((Transition.Run.nil.snoc (System.step_single (.lock rfl rfl))).snoc
      (System.step_single (.wait rfl rfl rfl))).snoc (System.step_single (.wakeup rfl rfl))).snoc
      (System.step_single (.reacquire rfl rfl))).snoc (System.step_single (.woken rfl rfl))).snoc
      (System.step_single (.unlock rfl))).snoc
      (System.step_single (.call false rfl (by decide)))).snoc
      (System.step_single (.finished rfl rfl (by decide)))).snoc (System.step_single (.post rfl))
  have hmaster : Transition.Run (System.step (fun _ : Fin 1 => 1) true)
      ⟨⟨.synchronize, false, .free, 1⟩, .lock .init,
        fun _ => { history := [(.synchronize, [false])] }⟩
      (List.replicate 5 .master) ⟨⟨.init, false, .free, 0⟩, .timedWait .init 1,
        fun _ => { history := [(.synchronize, [false])] }⟩ :=
    ((((Transition.Run.nil.snoc (System.step_master (.lock rfl) rfl)).snoc
      (System.step_master .assign rfl)).snoc (System.step_master .notify rfl)).snoc
      (System.step_master .unlock rfl)).snoc (System.step_master (.take (by decide) rfl) rfl)
  have hreceived := (honce 1 _ _ _ (hrunner.trans hmaster)).received .init 1 rfl
  revert hreceived
  decide

end CpsCore

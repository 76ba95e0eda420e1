import Mathlib
import CpsCore.Synchronization.SynchronizedRunner

/-!
# The stage barrier

No runner starts a stage before all runners have finished the one before it, whatever the
interleaving and wherever the master's timeout fires.

* `Runner.Inv`: what one runner knows of the shared state — its history, and how far it is
  from the current stage.
* `MasterPc.Inv`: what the master knows of it.
* `System.Inv`: the two, who holds the mutex, and the **balance**: the posts of all runners are
  those the master has taken and those still in the semaphore.

The semaphore only counts.  That the master has taken `k * n` posts while no runner can have
posted more than `k` times is what makes each of them have posted `k` times (`all_posted`).
-/

namespace CpsCore

/-! ## Stages and their ranks -/

/-- The stages in the order `runAllStages` runs them. -/
def runStages : List RunStage := [.init, .normal, .final]

/-- How many stages are over when this one is. -/
def RunStage.rank : RunStage → ℕ
  | .synchronize => 0
  | .init => 1
  | .normal => 2
  | .final => 3

lemma RunStage.rank_injective : Function.Injective RunStage.rank := by
  intro a b h
  cases a <;> cases b <;> simp_all [rank]

lemma RunStage.rank_le (stage : RunStage) : stage.rank ≤ 3 := by
  cases stage <;> simp [rank]

/-- A stage stands in the list at the place its rank says. -/
lemma RunStage.getElem?_runStages {stage : RunStage} {k : ℕ} :
    runStages[k]? = some stage ↔ stage.rank = k + 1 := by
  rcases k with - | - | - | k <;> cases stage <;> simp [runStages, rank]

lemma RunStage.rank_le_of_mem_take {stage : RunStage} {k : ℕ} (h : stage ∈ runStages.take k) :
    stage.rank ≤ k := by
  obtain ⟨i, hi⟩ := List.getElem?_of_mem h
  rw [List.getElem?_take] at hi
  split at hi
  case isTrue hlt =>
    rw [RunStage.getElem?_runStages] at hi
    omega
  case isFalse => exact absurd hi (by simp)

lemma RunStage.take_append {stage : RunStage} {k : ℕ} (h : stage.rank = k + 1) :
    runStages.take k ++ [stage] = runStages.take (k + 1) := by
  rw [List.take_add_one, RunStage.getElem?_runStages.mpr h, Option.toList_some]

/-- The history of a runner that has finished the first `k` stages. -/
def finishedStages (objects k : ℕ) : List (RunStage × List Bool) :=
  (runStages.take k).map fun stage => (stage, List.replicate objects false)

@[simp] lemma finishedStages_zero (objects : ℕ) : finishedStages objects 0 = [] := by
  simp [finishedStages]

@[simp] lemma map_fst_finishedStages (objects k : ℕ) :
    (finishedStages objects k).map Prod.fst = runStages.take k := by
  simp [finishedStages, Function.comp_def]

lemma finishedStages_succ {stage : RunStage} {k : ℕ} (objects : ℕ) (h : stage.rank = k + 1) :
    finishedStages objects k ++ [(stage, List.replicate objects false)] =
      finishedStages objects (k + 1) := by
  simp [finishedStages, ← RunStage.take_append h]

lemma mem_finishedStages {stage : RunStage} {objects i k : ℕ} (h : runStages[i]? = some stage)
    (hk : i < k) : (stage, List.replicate objects false) ∈ finishedStages objects k := by
  refine List.mem_map.mpr ⟨stage, ?_, rfl⟩
  apply List.mem_of_getElem? (i := i)
  rw [List.getElem?_take_of_lt hk, h]

/-! ## One runner -/

/-- How often a runner has posted. -/
def Runner.posts (r : Runner) : ℕ :=
  if r.pc = .post then r.lastRunStage.rank - 1 else r.lastRunStage.rank

lemma Runner.posts_le (r : Runner) : r.posts ≤ r.lastRunStage.rank := by
  unfold posts
  split <;> omega

@[simp] lemma Runner.posts_wake (r : Runner) : r.wake.posts = r.posts := by
  unfold wake posts
  split <;> simp_all

/-- The stage a runner has read and not finished. -/
@[simp] def RunnerPc.stage? : RunnerPc → Option RunStage
  | .unlock stage => some stage
  | .run stage _ => some stage
  | _ => none

structure Runner.Inv {n : ℕ} (objects : ℕ) (s : Synchronizer n) (r : Runner) : Prop where
  bound : r.lastRunStage.rank ≤ s.runStage.rank
  woken : r.pc = .notified ∨ r.pc = .recheck →
    s.failure = true ∨ r.lastRunStage.rank < s.runStage.rank
  stage : ∀ stage, r.pc.stage? = some stage →
    stage.rank = r.lastRunStage.rank + 1 ∧ stage.rank ≤ s.runStage.rank
  posted : r.pc = .post → 1 ≤ r.lastRunStage.rank
  past : r.pc ≠ .returned true → r.history = finishedStages objects r.lastRunStage.rank
  failed : r.pc = .returned true →
    r.history = finishedStages objects r.lastRunStage.rank ∨
    ∃ stage results, stage.rank = r.lastRunStage.rank + 1 ∧ stage.rank ≤ s.runStage.rank ∧
      r.history = finishedStages objects r.lastRunStage.rank ++ [(stage, results)]

lemma Runner.Inv.initial {n objects : ℕ} : Runner.Inv objects ({} : Synchronizer n) {} := by
  constructor <;> simp [RunStage.rank]

/-- The shared state only moves forward. -/
lemma Runner.Inv.mono {n objects : ℕ} {s s' : Synchronizer n} {r : Runner}
    (h : r.Inv objects s) (hstage : s.runStage.rank ≤ s'.runStage.rank)
    (hfailure : s.failure = true → s'.failure = true) : r.Inv objects s' where
  bound := h.bound.trans hstage
  woken hpc := (h.woken hpc).imp hfailure fun hlt => lt_of_lt_of_le hlt hstage
  stage st hst := ⟨(h.stage st hst).1, (h.stage st hst).2.trans hstage⟩
  posted := h.posted
  past := h.past
  failed hpc := by
    refine (h.failed hpc).imp_right ?_
    rintro ⟨st, results, hrank, hle, hhistory⟩
    exact ⟨st, results, hrank, hle.trans hstage, hhistory⟩

/-- A runner in the middle of a stage goes on with it. -/
lemma Runner.Inv.goto {n objects : ℕ} {s : Synchronizer n} {r : Runner} (h : r.Inv objects s)
    {pc : RunnerPc} (hpc : r.pc ≠ .returned true)
    (hwoken : pc = .notified ∨ pc = .recheck →
      s.failure = true ∨ r.lastRunStage.rank < s.runStage.rank)
    (hstage : ∀ stage, pc.stage? = some stage →
      stage.rank = r.lastRunStage.rank + 1 ∧ stage.rank ≤ s.runStage.rank)
    (hpost : pc ≠ .post) : Runner.Inv objects s { r with pc := pc } where
  bound := h.bound
  woken := hwoken
  stage := hstage
  posted heq := absurd heq hpost
  past _ := h.past hpc
  failed _ := Or.inl (h.past hpc)

lemma Runner.Inv.wake {n objects : ℕ} {s : Synchronizer n} {r : Runner} (h : r.Inv objects s)
    (hnews : r.pc = .waiting → s.failure = true ∨ r.lastRunStage.rank < s.runStage.rank) :
    r.wake.Inv objects s := by
  unfold Runner.wake
  split
  case isTrue hpc =>
    exact h.goto (by simp [hpc]) (fun _ => hnews hpc) (by simp) (by simp)
  case isFalse => exact h

lemma RunnerStep.keeps_sync {n objects : ℕ} {spurious : Bool} {i : Fin n} {s s' : Synchronizer n}
    {r r' : Runner} (hstep : RunnerStep objects spurious i s r s' r') :
    s'.runStage = s.runStage ∧ s'.failure = s.failure ∧ s.finishedStage ≤ s'.finishedStage := by
  cases hstep <;> simp

/-- A runner posts what it counts. -/
lemma RunnerStep.balance {n objects : ℕ} {spurious : Bool} {i : Fin n} {s s' : Synchronizer n}
    {r r' : Runner} (hstep : RunnerStep objects spurious i s r s' r') (h : r.Inv objects s) :
    r'.posts + s.finishedStage = r.posts + s'.finishedStage := by
  cases hstep with
  | post hpc =>
      have hpositive := h.posted hpc
      simp only [Runner.posts, hpc]
      split <;> simp <;> omega
  | failure hpc _ => rcases hpc with hpc | hpc <;> simp [Runner.posts, hpc]
  | finished hpc _ _ =>
      have hrank := (h.stage _ (by rw [hpc, RunnerPc.stage?])).1
      simp [Runner.posts, hpc, hrank]
  | lock hpc _ => simp [Runner.posts, hpc]
  | changed hpc _ _ => simp [Runner.posts, hpc]
  | wait hpc _ _ => simp [Runner.posts, hpc]
  | wakeup _ hpc => simp [Runner.posts, hpc]
  | reacquire hpc _ => simp [Runner.posts, hpc]
  | woken hpc _ => simp [Runner.posts, hpc]
  | unlock hpc => simp [Runner.posts, hpc]
  | call _ hpc _ => simp [Runner.posts, hpc]
  | failed hpc _ _ => simp [Runner.posts, hpc]

/-- A runner that is at most one post behind finds either the stage it has finished or the next. -/
lemma Runner.next_stage {n : ℕ} {s : Synchronizer n} {r : Runner}
    (hbehind : s.runStage.rank ≤ r.posts + 1) (hlt : r.lastRunStage.rank < s.runStage.rank)
    {pc : RunnerPc} (hpc : pc = .unlock s.runStage) :
    ∀ stage, pc.stage? = some stage →
      stage.rank = r.lastRunStage.rank + 1 ∧ stage.rank ≤ s.runStage.rank := by
  have hposts := r.posts_le
  intro stage hstage
  obtain rfl : s.runStage = stage := by simpa [hpc] using hstage
  exact ⟨by omega, le_rfl⟩

/-- **One step of a runner** keeps what it knows. -/
theorem RunnerStep.inv {n objects : ℕ} {i : Fin n} {s s' : Synchronizer n} {r r' : Runner}
    (hstep : RunnerStep objects false i s r s' r') (h : r.Inv objects s)
    (hbehind : s.runStage.rank ≤ r.posts + 1) : r'.Inv objects s' := by
  obtain ⟨hsame, hflag, -⟩ := hstep.keeps_sync
  suffices r'.Inv objects s from this.mono (by rw [hsame]) (by rw [hflag]; exact id)
  cases hstep with
  | lock hpc _ => exact h.goto (by simp [hpc]) (by simp) (by simp) (by simp)
  | failure hpc _ =>
      have hrunning : r.pc ≠ .returned true := by rcases hpc with hpc | hpc <;> simp [hpc]
      exact h.goto hrunning (by simp) (by simp) (by simp)
  | changed hpc _ hstage =>
      have hlt : r.lastRunStage.rank < s.runStage.rank :=
        lt_of_le_of_ne h.bound fun heq => hstage (RunStage.rank_injective heq).symm
      exact h.goto (by simp [hpc]) (by simp) (Runner.next_stage hbehind hlt rfl) (by simp)
  | wait hpc _ _ => exact h.goto (by simp [hpc]) (by simp) (by simp) (by simp)
  | wakeup hspurious _ => exact absurd hspurious (by simp)
  | reacquire hpc _ =>
      exact h.goto (by simp [hpc]) (fun _ => h.woken (Or.inl hpc)) (by simp) (by simp)
  | woken hpc hfailure =>
      have hlt : r.lastRunStage.rank < s.runStage.rank := by
        simpa [hfailure] using h.woken (Or.inr hpc)
      exact h.goto (by simp [hpc]) (by simp) (Runner.next_stage hbehind hlt rfl) (by simp)
  | unlock hpc =>
      exact h.goto (by simp [hpc]) (by simp) (fun st hst => h.stage st (by simpa [hpc] using hst))
        (by simp)
  | call _ hpc _ =>
      exact h.goto (by simp [hpc]) (by simp) (fun st hst => h.stage st (by simpa [hpc] using hst))
        (by simp)
  | failed hpc _ _ =>
      have hstage := h.stage _ (by rw [hpc, RunnerPc.stage?])
      have hpast := h.past (by simp [hpc])
      refine ⟨h.bound, by simp, by simp, by simp, by simp, fun _ => Or.inr ?_⟩
      exact ⟨_, _, hstage.1, hstage.2, by rw [hpast]⟩
  | finished hpc hlength herror =>
      have hstage := h.stage _ (by rw [hpc, RunnerPc.stage?])
      have hpast := h.past (by simp [hpc])
      -- no call returned an error, so the results are those of a finished stage
      have hresults := List.eq_replicate_iff.mpr
        ⟨hlength, fun error hmem => Bool.eq_false_iff.mpr fun htrue => herror (htrue ▸ hmem)⟩
      refine ⟨hstage.2, by simp, by simp, fun _ => by simp [hstage.1], fun _ => ?_, by simp⟩
      simp only
      rw [hpast, hresults, hstage.1, finishedStages_succ objects hstage.1]
  | post hpc =>
      split
      case isTrue => exact h.goto (by simp [hpc]) (by simp) (by simp) (by simp)
      case isFalse => exact h.goto (by simp [hpc]) (by simp) (by simp) (by simp)

/-! ## The mutex -/

@[simp] def MasterPc.holdsMutex : MasterPc → Bool
  | .assign _ | .notify _ | .unlock _ | .failAssign | .failNotify | .failUnlock => true
  | _ => false

@[simp] def RunnerPc.holdsMutex : RunnerPc → Bool
  | .check | .recheck | .unlock _ => true
  | _ => false

@[simp] lemma Runner.holdsMutex_wake (r : Runner) : r.wake.pc.holdsMutex = r.pc.holdsMutex := by
  unfold wake
  split <;> simp_all

/-- The mutex changes hands only by the step of a party that takes or releases it. -/
def Moves {n : ℕ} (party owner owner' : Owner n) : Prop :=
  owner' = owner ∨ owner = .free ∨ owner = party

lemma Moves.keeps {n : ℕ} {party other owner owner' : Owner n} (h : Moves party owner owner')
    (hne : other ≠ party) (hfree : other ≠ .free) (hother : owner = other) : owner' = other := by
  subst hother
  rcases h with h | h | h
  · exact h
  · exact absurd h hfree
  · exact absurd h hne

lemma RunnerStep.mutex {n objects : ℕ} {spurious : Bool} {i : Fin n} {s s' : Synchronizer n}
    {r r' : Runner} (hstep : RunnerStep objects spurious i s r s' r')
    (h : r.pc.holdsMutex = true → s.runStageMutex = .runner i) :
    Moves (.runner i) s.runStageMutex s'.runStageMutex ∧
      (r'.pc.holdsMutex = true → s'.runStageMutex = .runner i) := by
  unfold Moves
  cases hstep with
  | failure hpc _ => rcases hpc with hpc | hpc <;> simp_all
  | post hpc => split <;> simp
  | _ => simp_all

lemma MasterStep.mutex {n : ℕ} {s s' : Synchronizer n} {pc pc' : MasterPc} {wake : Bool}
    (hstep : MasterStep s pc s' pc' wake)
    (h : pc.holdsMutex = true → s.runStageMutex = .master) :
    Moves .master s.runStageMutex s'.runStageMutex ∧
      (pc'.holdsMutex = true → s'.runStageMutex = .master) := by
  unfold Moves
  cases hstep with
  | @finished stage => cases stage <;> simp_all [afterStage]
  | _ => simp_all

/-- A runner begins to wait with the mutex in its hands. -/
lemma RunnerStep.waits {n objects : ℕ} {spurious : Bool} {i : Fin n} {s s' : Synchronizer n}
    {r r' : Runner} (hstep : RunnerStep objects spurious i s r s' r') (h : r'.pc = .waiting) :
    r.pc = .check := by
  cases hstep with
  | post _ => split at h <;> simp_all
  | _ => simp_all

/-! ## The master -/

/-- How many posts of `n` runners the master has taken, as long as it has not given up. -/
@[simp] def MasterPc.taken (n : ℕ) : MasterPc → Option ℕ
  | .lock stage | .assign stage | .notify stage | .unlock stage => some ((stage.rank - 1) * n)
  | .timedWait stage i => some ((stage.rank - 1) * n + i)
  | .returned false => some (3 * n)
  | _ => none

@[simp] def MasterPc.Inv {n : ℕ} (s : Synchronizer n) : MasterPc → Prop
  | .lock stage | .assign stage => stage.rank = s.runStage.rank + 1
  | .notify stage | .unlock stage => s.runStage = stage ∧ 1 ≤ stage.rank
  | .timedWait stage i => s.runStage = stage ∧ 1 ≤ stage.rank ∧ i ≤ n
  | .failNotify => s.failure = true
  | .returned false => s.runStage = .final
  | _ => True

/-- The master's facts are about the stage and the flag. -/
lemma MasterPc.Inv.mono {n : ℕ} {s s' : Synchronizer n} {pc : MasterPc} (h : pc.Inv s)
    (hstage : s'.runStage = s.runStage) (hfailure : s'.failure = s.failure) : pc.Inv s' := by
  unfold MasterPc.Inv at h ⊢
  rw [hstage, hfailure]
  exact h

lemma MasterPc.Inv.afterStage {n : ℕ} {s : Synchronizer n} {stage : RunStage}
    (hstage : s.runStage = stage) (hpositive : 1 ≤ stage.rank) : (afterStage stage).Inv s := by
  cases stage <;> simp_all [CpsCore.afterStage, RunStage.rank]

lemma MasterPc.taken_afterStage (n : ℕ) {stage : RunStage} (hpositive : 1 ≤ stage.rank) :
    (afterStage stage).taken n = some ((stage.rank - 1) * n + n) := by
  cases stage <;> simp_all [afterStage, RunStage.rank] <;> omega

/-- What a step of the master does to the stage and the flag: the stage moves on by one, and only
when the master has the mutex. -/
lemma MasterStep.moves_stage {n : ℕ} {s s' : Synchronizer n} {pc pc' : MasterPc} {wake : Bool}
    (hstep : MasterStep s pc s' pc' wake) (h : pc.Inv s) :
    (s'.runStage = s.runStage ∨
      ∃ stage, pc = .assign stage ∧ s'.runStage = stage ∧ stage.rank = s.runStage.rank + 1) ∧
    (s.failure = true → s'.failure = true) := by
  cases hstep <;> simp_all

lemma MasterStep.inv {n : ℕ} {s s' : Synchronizer n} {pc pc' : MasterPc} {wake : Bool}
    (hstep : MasterStep s pc s' pc' wake) (h : pc.Inv s) : pc'.Inv s' := by
  cases hstep with
  | finished => exact MasterPc.Inv.afterStage h.1 h.2.1
  | assign =>
      simp only [MasterPc.Inv] at h ⊢
      exact ⟨trivial, by omega⟩
  | take hi _ =>
      simp only [MasterPc.Inv] at h ⊢
      exact ⟨h.1, h.2.1, hi⟩
  | _ => simp_all

/-- The master takes what it counts. -/
lemma MasterStep.balance {n : ℕ} {s s' : Synchronizer n} {pc pc' : MasterPc} {wake : Bool}
    (hstep : MasterStep s pc s' pc' wake) (h : pc.Inv s) {total : ℕ}
    (hbefore : ∀ taken, pc.taken n = some taken → total = taken + s.finishedStage) :
    ∀ taken, pc'.taken n = some taken → total = taken + s'.finishedStage := by
  intro taken htaken
  cases hstep with
  | finished =>
      rw [MasterPc.taken_afterStage n h.2.1, Option.some_inj] at htaken
      rw [← htaken]
      exact hbefore _ (by simp)
  | take _ hcount =>
      have hbefore := hbefore _ (by rw [MasterPc.taken])
      simp only [MasterPc.taken, Option.some_inj] at htaken ⊢
      omega
  | _ => simp_all

/-- The master notifies in two places. -/
lemma MasterStep.notifies {n : ℕ} {s s' : Synchronizer n} {pc pc' : MasterPc} {wake : Bool}
    (hstep : MasterStep s pc s' pc' wake) (hwake : wake = true) :
    s' = s ∧ ((∃ stage, pc = .notify stage) ∨ pc = .failNotify) := by
  cases hstep <;> simp_all

lemma MasterStep.assigned {n : ℕ} {s s' : Synchronizer n} {pc pc' : MasterPc} {wake : Bool}
    {stage : RunStage} (hstep : MasterStep s pc s' pc' wake) (hpc' : pc' = .notify stage) :
    wake = false ∧ pc = .assign stage ∧ s'.runStage = stage := by
  cases hstep with
  | @finished stage' => cases stage' <;> simp [afterStage] at hpc'
  | _ => simp_all

/-! ## The system -/

structure System.Inv {n : ℕ} (objects : Fin n → ℕ) (s : System n) : Prop where
  runner : ∀ i, (s.runner i).Inv (objects i) s.sync
  behind : ∀ i, s.sync.runStage.rank ≤ (s.runner i).posts + 1
  balance : ∀ taken, s.master.taken n = some taken →
    ∑ i, (s.runner i).posts = taken + s.sync.finishedStage
  master : s.master.Inv s.sync
  masterHolds : s.master.holdsMutex = true → s.sync.runStageMutex = .master
  runnerHolds : ∀ i, (s.runner i).pc.holdsMutex = true → s.sync.runStageMutex = .runner i
  /-- Before the master notifies, all who wait have news to find. -/
  news : ∀ stage, s.master = .notify stage → ∀ i, (s.runner i).pc = .waiting →
    (s.runner i).lastRunStage.rank < s.sync.runStage.rank

lemma System.Inv.initial {n : ℕ} (objects : Fin n → ℕ) : System.Inv objects {} where
  runner _ := Runner.Inv.initial
  behind := by simp [RunStage.rank]
  balance := by simp [Runner.posts, RunStage.rank]
  master := by simp [RunStage.rank]
  masterHolds := by simp
  runnerHolds := by simp
  news := by simp

/-- `n` parties of whom none posted more than `k` times, and who together posted at least `k * n`
times, have all posted `k` times. -/
lemma all_posted {n k : ℕ} {posts : Fin n → ℕ} (hle : ∀ i, posts i ≤ k)
    (hsum : k * n ≤ ∑ i, posts i) : ∀ i, posts i = k := by
  have htop : ∑ _i : Fin n, k = k * n := by simp [mul_comm]
  have heq : ∑ i, posts i = ∑ _i : Fin n, k :=
    le_antisymm (Finset.sum_le_sum fun i _ => hle i) (htop ▸ hsum)
  intro i
  exact (Finset.sum_eq_sum_iff_of_le fun i _ => hle i).mp heq i (Finset.mem_univ i)

/-- Each runner has posted for every stage the master has counted. -/
lemma System.Inv.posted {n : ℕ} {objects : Fin n → ℕ} {s : System n} (h : s.Inv objects)
    (htaken : s.master.taken n = some (s.sync.runStage.rank * n)) (i : Fin n) :
    (s.runner i).posts = s.sync.runStage.rank := by
  have hle : ∀ i, (s.runner i).posts ≤ s.sync.runStage.rank :=
    fun i => (s.runner i).posts_le.trans (h.runner i).bound
  exact all_posted hle (by rw [h.balance _ htaken]; omega) i

lemma sum_update {n : ℕ} (f : Fin n → ℕ) (i : Fin n) (x : ℕ) :
    ∑ j, Function.update f i x j + f i = ∑ j, f j + x := by
  rw [Finset.sum_update_of_mem (Finset.mem_univ i), Finset.sdiff_singleton_eq_erase,
    ← Finset.add_sum_erase Finset.univ f (Finset.mem_univ i)]
  omega

/-- A fact about every runner, after a step of one. -/
lemma forall_update {n : ℕ} {P : Fin n → Runner → Prop} {runner : Fin n → Runner} {i : Fin n}
    {r : Runner} (hi : P i r) (hothers : ∀ j, j ≠ i → P j (runner j)) :
    ∀ j, P j (Function.update runner i r j) :=
  (Function.forall_update_iff runner P).mpr ⟨hi, hothers⟩

/-- One runner goes on, from whatever place, and only its own facts have to be shown. -/
lemma System.Inv.updateRunner {n : ℕ} {objects : Fin n → ℕ} {s : System n} (h : s.Inv objects)
    {i : Fin n} {sync : Synchronizer n} {r : Runner} (hstage : sync.runStage = s.sync.runStage)
    (hfailure : sync.failure = s.sync.failure) (hrunner : r.Inv (objects i) sync)
    (hcount : s.sync.finishedStage ≤ sync.finishedStage)
    (hbalance : r.posts + s.sync.finishedStage = (s.runner i).posts + sync.finishedStage)
    (hmutex : Moves (.runner i) s.sync.runStageMutex sync.runStageMutex)
    (hholds : r.pc.holdsMutex = true → sync.runStageMutex = .runner i)
    (hnews : ∀ stage, s.master = .notify stage → r.pc = .waiting →
      r.lastRunStage.rank < s.sync.runStage.rank) :
    System.Inv objects ⟨sync, s.master, Function.update s.runner i r⟩ := by
  constructor
  case runner =>
    apply forall_update (P := fun j r => r.Inv (objects j) sync) hrunner
    intro j _
    exact (h.runner j).mono (by rw [hstage]) (by rw [hfailure]; exact id)
  case behind =>
    simp only [hstage]
    apply forall_update (P := fun _ r => s.sync.runStage.rank ≤ r.posts + 1)
    · have hbehind := h.behind i
      omega
    · exact fun j _ => h.behind j
  case balance =>
    intro taken htaken
    have htotal := h.balance taken htaken
    have hsum := sum_update (fun j => (s.runner j).posts) i r.posts
    have hposts : ∀ j, (Function.update s.runner i r j).posts =
        Function.update (fun j => (s.runner j).posts) i r.posts j :=
      Function.apply_update (fun _ => Runner.posts) s.runner i r
    simp only [hposts]
    omega
  case master => exact h.master.mono hstage hfailure
  case masterHolds =>
    intro hmaster
    exact hmutex.keeps (by simp) (by simp) (h.masterHolds hmaster)
  case runnerHolds =>
    apply forall_update (P := fun j r => r.pc.holdsMutex = true → sync.runStageMutex = .runner j)
      hholds
    intro j hne hj
    exact hmutex.keeps (by simpa using hne) (by simp) (h.runnerHolds j hj)
  case news =>
    intro stage hnotify
    change s.master = .notify stage at hnotify
    simp only [hstage]
    apply forall_update
      (P := fun _ r => r.pc = .waiting → r.lastRunStage.rank < s.sync.runStage.rank)
    · exact hnews stage hnotify
    · exact fun j _ => h.news stage hnotify j

theorem System.Inv.stepRunner {n : ℕ} {objects : Fin n → ℕ} {s s' : System n} (h : s.Inv objects)
    {i : Fin n} (hstep : System.step objects false s (.runner i) s') : s'.Inv objects := by
  obtain ⟨sync, r, hstep, rfl⟩ := hstep
  obtain ⟨hstage, hfailure, hcount⟩ := hstep.keeps_sync
  obtain ⟨hmutex, hholds⟩ := hstep.mutex (h.runnerHolds i)
  have hbalance := hstep.balance (h.runner i)
  refine h.updateRunner hstage hfailure (hstep.inv (h.runner i) (h.behind i)) hcount hbalance
    hmutex hholds ?_
  intro stage hnotify hwaiting
  have hmine := h.runnerHolds i (by simp [hstep.waits hwaiting])
  have hmasters := h.masterHolds (by simp [hnotify])
  exact absurd (hmine.symm.trans hmasters) (by simp)

theorem System.Inv.stepMaster {n : ℕ} {objects : Fin n → ℕ} {s s' : System n} (h : s.Inv objects)
    (hstep : System.step objects false s .master s') : s'.Inv objects := by
  obtain ⟨sync, pc, wake, hstep, rfl⟩ := hstep
  obtain ⟨hmoves, hfailure⟩ := hstep.moves_stage h.master
  obtain ⟨hmutex, hholds⟩ := hstep.mutex h.masterHolds
  have hforward : s.sync.runStage.rank ≤ sync.runStage.rank := by
    rcases hmoves with hsame | ⟨stage, -, rfl, hnext⟩
    · rw [hsame]
    · omega
  have hbehind : ∀ i, sync.runStage.rank ≤ (s.runner i).posts + 1 := by
    intro i
    rcases hmoves with hsame | ⟨stage, hpc, rfl, hnext⟩
    · rw [hsame]
      exact h.behind i
    · -- all posts for the stage before are taken, so everyone has posted for it
      rw [h.posted (by simp [hpc, hnext]) i]
      omega
  have hnews : wake = true → ∀ i, (s.runner i).pc = .waiting →
      sync.failure = true ∨ (s.runner i).lastRunStage.rank < sync.runStage.rank := by
    intro hwake i hwaiting
    obtain ⟨rfl, ⟨stage, hpc⟩ | hpc⟩ := hstep.notifies hwake
    · exact Or.inr (h.news stage hpc i hwaiting)
    · exact Or.inl (by simpa [hpc] using h.master)
  constructor
  case runner =>
    intro i
    have hrunner := (h.runner i).mono hforward hfailure
    cases wake with
    | false => exact hrunner
    | true => exact hrunner.wake (hnews rfl i)
  case behind => cases wake <;> simpa using hbehind
  case balance =>
    have hbalance := hstep.balance h.master h.balance
    cases wake <;> simpa using hbalance
  case master => exact hstep.inv h.master
  case masterHolds => exact hholds
  case runnerHolds =>
    have hrunners : ∀ i, (s.runner i).pc.holdsMutex = true → sync.runStageMutex = .runner i :=
      fun i hi => hmutex.keeps (by simp) (by simp) (h.runnerHolds i hi)
    cases wake with
    | false => exact hrunners
    | true =>
        intro i hi
        exact hrunners i ((s.runner i).holdsMutex_wake ▸ hi)
  case news =>
    intro stage hnotify i hwaiting
    obtain ⟨rfl, hpc, hstage⟩ := hstep.assigned hnotify
    have hnext : stage.rank = s.sync.runStage.rank + 1 := by simpa [hpc] using h.master
    have hbound := (h.runner i).bound
    simp only [Bool.false_eq_true, if_false, hstage]
    omega

theorem System.Inv.step {n : ℕ} {objects : Fin n → ℕ} {s s' : System n} {actor : Actor n}
    (h : s.Inv objects) (hstep : System.step objects false s actor s') : s'.Inv objects := by
  cases actor with
  | master => exact h.stepMaster hstep
  | runner i => exact h.stepRunner hstep

/-! ## The barrier -/

/-- What a runner has executed is a beginning of the stages, the last of them possibly not over. -/
lemma Runner.Inv.executed {n objects : ℕ} {s : Synchronizer n} {r : Runner} (h : r.Inv objects s) :
    ∃ k ≤ s.runStage.rank, r.executed.map Prod.fst = runStages.take k := by
  have hrunning : ∀ {stage : RunStage} {results : List Bool},
      stage.rank = r.lastRunStage.rank + 1 →
      (finishedStages objects r.lastRunStage.rank ++ [(stage, results)]).map Prod.fst =
        runStages.take stage.rank := by
    intro stage results hrank
    rw [List.map_append, map_fst_finishedStages, hrank]
    exact RunStage.take_append hrank
  by_cases hreturned : r.pc = .returned true
  · have hexecuted : r.executed = r.history := by simp [Runner.executed, hreturned]
    rw [hexecuted]
    rcases h.failed hreturned with hpast | ⟨stage, results, hrank, hle, hpast⟩
    · exact ⟨r.lastRunStage.rank, h.bound, by rw [hpast, map_fst_finishedStages]⟩
    · exact ⟨stage.rank, hle, by rw [hpast, hrunning hrank]⟩
  · have hpast := h.past hreturned
    unfold Runner.executed
    split
    case h_1 stage results hpc =>
      obtain ⟨hrank, hle⟩ := h.stage stage (by simp [hpc])
      exact ⟨stage.rank, hle, by rw [hpast, hrunning hrank]⟩
    case h_2 => exact ⟨r.lastRunStage.rank, h.bound, by rw [hpast, map_fst_finishedStages]⟩

/-- A runner has finished every stage it has posted for. -/
lemma Runner.Inv.finished {n objects : ℕ} {s : Synchronizer n} {r : Runner} (h : r.Inv objects s)
    {stage : RunStage} {k : ℕ} (hstage : runStages[k]? = some stage) (hk : k < r.posts) :
    r.Finished objects stage := by
  have hmem : (stage, List.replicate objects false) ∈
      finishedStages objects r.lastRunStage.rank :=
    mem_finishedStages hstage (lt_of_lt_of_le hk r.posts_le)
  unfold Runner.Finished
  by_cases hreturned : r.pc = .returned true
  · rcases h.failed hreturned with hpast | ⟨_, _, -, -, hpast⟩
    · rwa [hpast]
    · rw [hpast]
      exact List.mem_append_left _ hmem
  · rwa [h.past hreturned]

/-- A runner that has posted for all stages has nothing left to execute. -/
lemma Runner.Inv.complete {n objects : ℕ} {s : Synchronizer n} {r : Runner} (h : r.Inv objects s)
    (hposts : 3 ≤ r.posts) : r.executed = finishedStages objects 3 := by
  have hrank : r.lastRunStage.rank = 3 := by
    have hle := r.lastRunStage.rank_le
    have hpost := r.posts_le
    omega
  have hlast : ∀ stage : RunStage, stage.rank ≠ r.lastRunStage.rank + 1 := by
    intro stage
    have hle := stage.rank_le
    omega
  by_cases hreturned : r.pc = .returned true
  · rcases h.failed hreturned with hpast | ⟨stage, _, hnext, -, -⟩
    · simp [Runner.executed, hreturned, hpast, hrank]
    · exact absurd hnext (hlast stage)
  · unfold Runner.executed
    split
    case h_1 stage _ hpc => exact absurd (h.stage stage (by simp [hpc])).1 (hlast stage)
    case h_2 => rw [h.past hreturned, hrank]

/-- **The stage barrier**, in every state of every interleaving: whoever has started a stage has
been preceded by all runners through the stage before; each runner executes the stages in order;
and the master returns without error only when all runners have finished all stages. -/
theorem stage_barrier {n : ℕ} (objects : Fin n → ℕ) {actors : List (Actor n)} {s : System n}
    (hrun : Transition.Run (System.step objects false) {} actors s) :
    (∀ k stage next, runStages[k]? = some stage → runStages[k + 1]? = some next →
      ∀ i, (s.runner i).Started next → ∀ j, (s.runner j).Finished (objects j) stage) ∧
    (∀ i, (s.runner i).executed.map Prod.fst <+: runStages) ∧
    (s.master = .returned false → ∀ i, (s.runner i).executed =
      runStages.map fun stage => (stage, List.replicate (objects i) false)) := by
  have hinv : s.Inv objects :=
    hrun.invariant (System.Inv.initial objects) fun _ _ _ h hstep => h.step hstep
  refine ⟨?_, ?_, ?_⟩
  · intro k stage next hstage hnext i hstarted j
    obtain ⟨len, hle, hexecuted⟩ := (hinv.runner i).executed
    rw [Runner.Started, hexecuted] at hstarted
    have hrank : next.rank = k + 2 := RunStage.getElem?_runStages.mp hnext
    have hlen : next.rank ≤ len := RunStage.rank_le_of_mem_take hstarted
    have hbehind := hinv.behind j
    exact (hinv.runner j).finished hstage (by omega)
  · intro i
    obtain ⟨len, -, hexecuted⟩ := (hinv.runner i).executed
    rw [hexecuted]
    exact List.take_prefix len runStages
  · intro hreturned i
    have hfinal : s.sync.runStage = .final := by simpa [hreturned] using hinv.master
    have hposts := hinv.posted (by simp [hreturned, hfinal, RunStage.rank]) i
    exact (hinv.runner i).complete (by rw [hposts, hfinal, RunStage.rank])

section Pair

variable {objects : Fin 2 → ℕ} {spurious : Bool} {master master' : MasterPc}
  {s s' : Synchronizer 2} {r₀ r₀' r₁ r₁' : Runner}

/-- A step of the first of two runners. -/
lemma System.step_first (hstep : RunnerStep (objects 0) spurious 0 s r₀ s' r₀') :
    System.step objects spurious ⟨s, master, ![r₀, r₁]⟩ (.runner 0) ⟨s', master, ![r₀', r₁]⟩ :=
  ⟨s', r₀', hstep, congrArg _ (funext (Fin.forall_fin_two.mpr ⟨rfl, rfl⟩))⟩

lemma System.step_second (hstep : RunnerStep (objects 1) spurious 1 s r₁ s' r₁') :
    System.step objects spurious ⟨s, master, ![r₀, r₁]⟩ (.runner 1) ⟨s', master, ![r₀, r₁']⟩ :=
  ⟨s', r₁', hstep, congrArg _ (funext (Fin.forall_fin_two.mpr ⟨rfl, rfl⟩))⟩

/-- A step of their master. -/
lemma System.step_pair {wake : Bool} (hstep : MasterStep s master s' master' wake) :
    System.step objects spurious ⟨s, master, ![r₀, r₁]⟩ .master
      ⟨s', master', ![if wake then r₀.wake else r₀, if wake then r₁.wake else r₁]⟩ := by
  refine ⟨s', master', wake, hstep, congrArg _ (funext (Fin.forall_fin_two.mpr ?_))⟩
  cases wake <;> exact ⟨rfl, rfl⟩

end Pair

/-- Two runners with one object each, one of which already waits when the master begins: the run
through the first stage, and of the other runner into the second. -/
theorem stage_barrier_pair : ∃ actors, ∃ s : System 2,
    Transition.Run (System.step (fun _ => 1) false) {} actors s ∧
    (s.runner 0).Started .normal ∧ (s.runner 1).Finished 1 .init := by
  have hempty : ({} : System 2) = ⟨{}, .lock .init, ![{}, {}]⟩ :=
    congrArg _ (funext (Fin.forall_fin_two.mpr ⟨rfl, rfl⟩))
  have hwait : Transition.Run (System.step (fun _ => 1) false) (⟨{}, .lock .init, ![{}, {}]⟩)
      [.runner 1, .runner 1] ⟨{}, .lock .init, ![{}, { pc := .waiting }]⟩ :=
    (Transition.Run.nil.snoc (System.step_second (.lock rfl rfl))).snoc
      (System.step_second (.wait rfl rfl rfl))
  have hinit : Transition.Run (System.step (fun _ => 1) false)
      ⟨{}, .lock .init, ![{}, { pc := .waiting }]⟩ [.master, .master, .master, .master]
      ⟨⟨.init, false, .free, 0⟩, .timedWait .init 0, ![{}, { pc := .notified }]⟩ :=
    (((Transition.Run.nil.snoc (System.step_pair (.lock rfl))).snoc
      (System.step_pair .assign)).snoc (System.step_pair .notify)).snoc (System.step_pair .unlock)
  have hfirst : Transition.Run (System.step (fun _ => 1) false)
      ⟨⟨.init, false, .free, 0⟩, .timedWait .init 0, ![{}, { pc := .notified }]⟩
      (List.replicate 6 (.runner 0))
      ⟨⟨.init, false, .free, 1⟩, .timedWait .init 0,
        ![⟨.lock, .init, [(.init, [false])]⟩, { pc := .notified }]⟩ :=
    (((((Transition.Run.nil.snoc (System.step_first (.lock rfl rfl))).snoc
      (System.step_first (.changed rfl rfl (by decide)))).snoc
      (System.step_first (.unlock rfl))).snoc
      (System.step_first (.call false rfl (by decide)))).snoc
      (System.step_first (.finished rfl rfl (by decide)))).snoc (System.step_first (.post rfl))
  have hsecond : Transition.Run (System.step (fun _ => 1) false)
      ⟨⟨.init, false, .free, 1⟩, .timedWait .init 0,
        ![⟨.lock, .init, [(.init, [false])]⟩, { pc := .notified }]⟩
      (List.replicate 6 (.runner 1))
      ⟨⟨.init, false, .free, 2⟩, .timedWait .init 0,
        ![⟨.lock, .init, [(.init, [false])]⟩, ⟨.lock, .init, [(.init, [false])]⟩]⟩ :=
    (((((Transition.Run.nil.snoc (System.step_second (.reacquire rfl rfl))).snoc
      (System.step_second (.woken rfl rfl))).snoc
      (System.step_second (.unlock rfl))).snoc
      (System.step_second (.call false rfl (by decide)))).snoc
      (System.step_second (.finished rfl rfl (by decide)))).snoc (System.step_second (.post rfl))
  have hnormal : Transition.Run (System.step (fun _ => 1) false)
      ⟨⟨.init, false, .free, 2⟩, .timedWait .init 0,
        ![⟨.lock, .init, [(.init, [false])]⟩, ⟨.lock, .init, [(.init, [false])]⟩]⟩
      (List.replicate 7 .master)
      ⟨⟨.normal, false, .free, 0⟩, .timedWait .normal 0,
        ![⟨.lock, .init, [(.init, [false])]⟩, ⟨.lock, .init, [(.init, [false])]⟩]⟩ :=
    ((((((Transition.Run.nil.snoc (System.step_pair (.take (by decide) rfl))).snoc
      (System.step_pair (.take (by decide) rfl))).snoc (System.step_pair .finished)).snoc
      (System.step_pair (.lock rfl))).snoc (System.step_pair .assign)).snoc
      (System.step_pair .notify)).snoc (System.step_pair .unlock)
  have hnext : Transition.Run (System.step (fun _ => 1) false)
      ⟨⟨.normal, false, .free, 0⟩, .timedWait .normal 0,
        ![⟨.lock, .init, [(.init, [false])]⟩, ⟨.lock, .init, [(.init, [false])]⟩]⟩
      (List.replicate 3 (.runner 0))
      ⟨⟨.normal, false, .free, 0⟩, .timedWait .normal 0,
        ![⟨.run .normal [], .init, [(.init, [false])]⟩, ⟨.lock, .init, [(.init, [false])]⟩]⟩ :=
    ((Transition.Run.nil.snoc (System.step_first (.lock rfl rfl))).snoc
      (System.step_first (.changed rfl rfl (by decide)))).snoc (System.step_first (.unlock rfl))
  have hrun := ((((hwait.trans hinit).trans hfirst).trans hsecond).trans hnormal).trans hnext
  rw [← hempty] at hrun
  have hstarted : Runner.Started ⟨.run .normal [], .init, [(.init, [false])]⟩ .normal := by
    simp [Runner.Started, Runner.executed]
  exact ⟨_, _, hrun, hstarted, (stage_barrier (fun _ => 1) hrun).1 0 .init .normal rfl rfl 0
    hstarted 1⟩

end CpsCore

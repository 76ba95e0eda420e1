import Mathlib
import CpsCore.Scheduler.Dependencies

/-!
# Starvation in the thread pool

A finished task stays in `tasks_` and is taken again, so a worker goes back to the first entries.
`Started`: some run starts the task.  `started_iff`: these are as many tasks as there are workers,
the first ones that get past the check; the others are never started.
-/

namespace CpsCore.ThreadPoolScheduler.Pool

variable {ω : Type} {s s₀ : Pool ω} {tasks : List (ℤ × ℕ)} {e : ℕ}

/-! ## The first tasks -/

lemma ready_append_subset (front after : List (ℤ × ℕ)) :
    s.ready front ⊆ s.ready (front ++ after) := by
  intro e he
  obtain ⟨time, hmem, hpasses⟩ := mem_ready.mp he
  exact mem_ready.mpr ⟨time, List.mem_append_left _ hmem, hpasses⟩

lemma card_ready_snoc (tasks : List (ℤ × ℕ)) (x : ℤ × ℕ) :
    (s.ready (tasks ++ [x])).card ≤ (s.ready tasks).card + 1 := by
  rw [ready_snoc]
  split
  · exact Finset.card_insert_le _ _
  · exact Nat.le_succ _

/-- Up to where there are `n` tasks, or to the end. -/
lemma exists_front (s : Pool ω) (n : ℕ) (tasks : List (ℤ × ℕ)) : ∃ front after,
    tasks = front ++ after ∧ (s.ready front).card = min n (s.ready tasks).card := by
  induction tasks using List.reverseRecOn with
  | nil => exact ⟨[], [], rfl, by simp [ready]⟩
  | append_singleton tasks x ih =>
      obtain ⟨front, after, hsplit, hcard⟩ := ih
      have hgrows := Finset.card_le_card (ready_append_subset (s := s) tasks [x])
      have hone := card_ready_snoc (s := s) tasks x
      by_cases hfull : n ≤ (s.ready tasks).card
      · refine ⟨front, after ++ [x], by rw [hsplit, List.append_assoc], ?_⟩
        omega
      · refine ⟨tasks ++ [x], [], (List.append_nil _).symm, ?_⟩
        omega

/-- Where the task is for the first time. -/
lemma exists_first (he : e ∈ s.ready tasks) : ∃ before time after,
    tasks = before ++ (time, e) :: after ∧ passes s.heap s.tasks_.entries (time, e) = true ∧
      e ∉ s.ready before := by
  induction tasks using List.reverseRecOn with
  | nil => simp [ready] at he
  | append_singleton tasks x ih =>
      by_cases hbefore : e ∈ s.ready tasks
      · obtain ⟨before, time, after, hsplit, hpasses, hnew⟩ := ih hbefore
        exact ⟨before, time, after ++ [x], by simp [hsplit], hpasses, hnew⟩
      · rw [ready_snoc] at he
        split at he
        case isFalse => exact absurd he hbefore
        case isTrue hpasses =>
          obtain rfl := (Finset.mem_insert.mp he).resolve_right hbefore
          exact ⟨tasks, x.1, [], rfl, hpasses, hbefore⟩

/-! ## What is ever started -/

variable [DecidableEq ω]

/-- In some run, a worker starts the task. -/
def Started (s₀ : Pool ω) (e : ℕ) : Prop :=
  ∃ ws s w now time, Transition.Run Step s₀ ws s ∧ s.Starts w now time e

variable [Fintype ω]

/-- There is a worker left for the task: the others take what comes before it. -/
lemma started_of_first (hfresh : s₀.Fresh) {before after : List (ℤ × ℕ)} {time : ℤ}
    (hentries : s₀.tasks_.entries = before ++ (time, e) :: after)
    (hpasses : passes s₀.heap s₀.tasks_.entries (time, e) = true) (hnew : e ∉ s₀.ready before)
    (hcard : (s₀.ready before).card < Fintype.card ω) : s₀.Started e := by
  obtain ⟨ws, s, busy, hrun, hstaged⟩ := exists_staged hfresh before _ hentries hcard.le
  obtain ⟨w, hw⟩ : ∃ w, w ∉ busy := by
    by_contra! hall
    rw [← hstaged.card, Finset.eq_univ_iff_forall.mpr hall, Finset.card_univ] at hcard
    exact lt_irrefl _ hcard
  have hcheck : Step s w (s.goto w .lock) := .check (hstaged.free w hw) hstaged.canceled
  exact ⟨_, _, w, time, time, hrun.snoc hcheck, hstaged.starts hentries hpasses hnew w⟩

/-- **Starvation.**  The tasks that are started in some run are the first ones that get past the
check, as many as there are workers. -/
theorem started_iff (hfresh : s₀.Fresh) : ∃ front after,
    s₀.tasks_.entries = front ++ after ∧
    (s₀.ready front).card = min (Fintype.card ω) (s₀.ready s₀.tasks_.entries).card ∧
    ∀ e, s₀.Started e ↔ e ∈ s₀.ready front := by
  obtain ⟨front, after, hsplit, hcard⟩ := exists_front s₀ (Fintype.card ω) s₀.tasks_.entries
  refine ⟨front, after, hsplit, hcard, fun e => ⟨?_, ?_⟩⟩
  · rintro ⟨ws, s, w, now, time, hrun, hstarts⟩
    have hinv : Inv s₀ s := hrun.invariant (Inv.initial hfresh) fun _ _ _ h hstep => hstep.inv h
    obtain ⟨hpasses, before, later, hentries, hnew, hbefore⟩ := hinv.starts hstarts
    have hall : e ∈ s₀.ready s₀.tasks_.entries :=
      mem_ready.mpr ⟨time, by simp [hentries], hpasses⟩
    have hprefix : before ++ [(time, e)] <+: s₀.tasks_.entries := ⟨later, by simp [hentries]⟩
    rcases List.prefix_or_prefix_of_prefix hprefix ⟨after, hsplit.symm⟩ with hin | hout
    · obtain ⟨rest, rfl⟩ := hin
      exact mem_ready.mpr ⟨time, by simp, hpasses⟩
    · rcases List.prefix_concat_iff.mp hout with rfl | ⟨rest, rfl⟩
      · exact mem_ready.mpr ⟨time, by simp, hpasses⟩
      · -- Then all that get past the check are in front, as there are fewer than workers.
        have hfew := Finset.card_le_card (ready_append_subset (s := s₀) front rest)
        have hsame : s₀.ready front = s₀.ready s₀.tasks_.entries := by
          refine Finset.eq_of_subset_of_card_le (hsplit ▸ ready_append_subset _ _) ?_
          omega
        rwa [hsame]
  · intro he
    obtain ⟨before, time, rest, rfl, hpasses, hnew⟩ := exists_first he
    have hentries : s₀.tasks_.entries = before ++ (time, e) :: (rest ++ after) := by
      rw [hsplit, List.append_assoc, List.cons_append]
    refine started_of_first hfresh hentries hpasses hnew ?_
    have hless : (s₀.ready before).card < (s₀.ready (before ++ (time, e) :: rest)).card :=
      Finset.card_lt_card
        ((Finset.ssubset_iff_of_subset (ready_append_subset _ _)).mpr ⟨e, he, hnew⟩)
    omega

/-- Two tasks and one worker, who runs the first one again and again. -/
theorem started_iff_single : ∃ s₀ : Pool Unit, s₀.tasks_.entries = [(3, 2), (5, 3)] ∧
    s₀.ready s₀.tasks_.entries = {2, 3} ∧
    ∃ front after, s₀.tasks_.entries = front ++ after ∧
      (s₀.ready front).card = min (Fintype.card Unit) (s₀.ready s₀.tasks_.entries).card ∧
      ∀ e, s₀.Started e ↔ e ∈ s₀.ready front :=
  ⟨{ tasks_ := (({} : Multimap ℤ ℕ).insert 3 2).insert 5 3, heap := provider }, rfl, by decide,
    started_iff (fresh_provider _)⟩

end CpsCore.ThreadPoolScheduler.Pool

import Mathlib
import CpsCore.Scheduler.ThreadPoolScheduler

/-!
# Dependencies between tasks

A task that is started must not depend on what another unfinished task of no later time provides,
nor provide what an unfinished task of an earlier time depends on.

The scan for such tasks looks at all entries of earlier times, and at the first one of the same
time.  It does not look at what is running or finished, so whether an entry gets past it is settled
by the names alone: a worker takes the first entry that does and is not running.

* `Pool.Running`: every running task has its worker.
* `Pool.Staged`: the workers have taken what gets past the check, one each.
* `respects_iff_orderly`: what that comes to, for any number of workers.
-/

namespace CpsCore.ThreadPoolScheduler

/-! ## The scan -/

section Scan

variable {heap heap' : ℕ → Task} {tasks : List (ℤ × ℕ)}

/-- The names are the same. -/
def SameNames (heap heap' : ℕ → Task) : Prop :=
  ∀ e, (heap' e).depends = (heap e).depends ∧ (heap' e).provides = (heap e).provides

lemma dependencyFound_congr (h : SameNames heap heap') (e : ℕ) (time : ℤ) :
    dependencyFound heap' (heap' e) time tasks = dependencyFound heap (heap e) time tasks := by
  induction tasks with
  | nil => rfl
  | cons entry tasks ih =>
      simp only [dependencyFound, (h e).1, (h e).2, (h entry.2).1, (h entry.2).2, ih]

lemma passes_congr (h : SameNames heap heap') (entry : ℤ × ℕ) :
    passes heap' tasks entry = passes heap tasks entry := by
  simp only [passes, (h entry.2).1, (h entry.2).2, dependencyFound_congr h]

/-- What the scan has ruled out. -/
lemma disjoint_of_not_found {task : Task} {time : ℤ} (hsorted : Multimap.Sorted tasks)
    (h : dependencyFound heap task time tasks = false) :
    ∀ x ∈ tasks, x.1 < time → Disjoint (heap x.2).provides task.depends ∧
      Disjoint (heap x.2).depends task.provides := by
  induction tasks with
  | nil => simp
  | cons entry tasks ih =>
      obtain ⟨hfirst, hrest⟩ := List.pairwise_cons.mp hsorted
      intro x hx hearly
      have hentry : entry.1 < time := by
        rcases List.mem_cons.mp hx with rfl | hx
        · exact hearly
        · exact lt_of_le_of_lt (hfirst x hx) hearly
      rw [dependencyFound, if_neg (not_lt.mpr hentry.le)] at h
      split at h
      case isTrue => simp at h
      case isFalse hprovides =>
        rw [if_neg hentry.ne] at h
        split at h
        case isTrue => simp at h
        case isFalse hdepends =>
          rcases List.mem_cons.mp hx with rfl | hx
          · refine ⟨Finset.disjoint_left.mpr ?_, Finset.disjoint_left.mpr ?_⟩
            · exact fun name hname hdepend => hprovides ⟨name, hdepend, hname⟩
            · exact fun name hname hprovide => hdepends ⟨name, hprovide, hname⟩
          · exact ih hrest h x hx hearly

lemma disjoint_of_passes {entry : ℤ × ℕ} (hsorted : Multimap.Sorted tasks)
    (h : passes heap tasks entry = true) :
    ∀ x ∈ tasks, x.1 < entry.1 → Disjoint (heap x.2).provides (heap entry.2).depends ∧
      Disjoint (heap x.2).depends (heap entry.2).provides := by
  rw [passes] at h
  split at h
  case isTrue =>
    exact disjoint_of_not_found hsorted (by simpa using h)
  case isFalse hnone =>
    obtain ⟨hdepends, hprovides⟩ := by simpa only [not_or, not_not] using hnone
    intro x _ _
    rw [hdepends, hprovides]
    exact ⟨Finset.disjoint_empty_right _, Finset.disjoint_empty_right _⟩

/-- The entry is not one that a worker could take. -/
def Skipped (heap : ℕ → Task) (tasks : List (ℤ × ℕ)) (x : ℤ × ℕ) : Prop :=
  (heap x.2).running = true ∨ passes heap tasks x = false

/-- **The selection** takes the first entry that is not running and gets past the check. -/
lemma select_run {now time : ℤ} {e : ℕ} {later : List (ℤ × ℕ)}
    (h : select heap tasks now later = .run time e) :
    (heap e).running = false ∧ passes heap tasks (time, e) = true ∧
      ∃ before after, later = before ++ (time, e) :: after ∧
        ∀ x ∈ before, Skipped heap tasks x := by
  induction later with
  | nil => simp [select] at h
  | cons entry later ih =>
      have hskip : Skipped heap tasks entry → select heap tasks now later = .run time e →
          (heap e).running = false ∧ passes heap tasks (time, e) = true ∧
            ∃ before after, entry :: later = before ++ (time, e) :: after ∧
              ∀ x ∈ before, Skipped heap tasks x := by
        intro hentry hlater
        obtain ⟨hidle, hpasses, before, after, rfl, hbefore⟩ := ih hlater
        exact ⟨hidle, hpasses, entry :: before, after, rfl,
          List.forall_mem_cons.mpr ⟨hentry, hbefore⟩⟩
      rw [select] at h
      split at h
      case isTrue => simp at h
      case isFalse =>
        split at h
        case isTrue hrunning => exact hskip (Or.inl hrunning) h
        case isFalse hidle =>
          split at h
          case isFalse hblocked => exact hskip (Or.inr (by simpa using hblocked)) h
          case isTrue hpasses =>
            obtain ⟨rfl, rfl⟩ := Selection.run.inj h
            exact ⟨by simpa using hidle, hpasses, [], later, rfl, by simp⟩

lemma select_of_skipped {now time : ℤ} {e : ℕ} {before after : List (ℤ × ℕ)}
    (hbefore : ∀ x ∈ before, x.1 ≤ now ∧ Skipped heap tasks x) (hdue : time ≤ now)
    (hidle : (heap e).running = false) (hpasses : passes heap tasks (time, e) = true) :
    select heap tasks now (before ++ (time, e) :: after) = .run time e := by
  induction before with
  | nil => simp [select, not_lt.mpr hdue, hidle, hpasses]
  | cons entry before ih =>
      obtain ⟨⟨hentry, hskipped⟩, hbefore⟩ := List.forall_mem_cons.mp hbefore
      rw [List.cons_append, select, if_neg (not_lt.mpr hentry), ih hbefore]
      rcases hskipped with hrunning | hblocked
      · rw [if_pos hrunning]
      · simp [hblocked]

end Scan

namespace Pool

variable {ω : Type} {s s' s₀ : Pool ω} {w : ω} {now time : ℤ} {e : ℕ}

/-! ## What holds in every run -/

/-- Who starts the task now, in this state, respects the dependencies. -/
structure Respects (s : Pool ω) (time : ℤ) (e : ℕ) : Prop where
  provided : ∀ x ∈ s.tasks_.entries, x.2 ≠ e → (s.heap x.2).finished = false → x.1 ≤ time →
    Disjoint (s.heap x.2).provides (s.heap e).depends
  used : ∀ x ∈ s.tasks_.entries, (s.heap x.2).finished = false → x.1 < time →
    Disjoint (s.heap x.2).depends (s.heap e).provides

/-- As constructed, with its tasks. -/
structure Fresh (s : Pool ω) : Prop where
  tasks : ∀ e, (s.heap e).running = false ∧ (s.heap e).finished = false
  workers : ∀ w, s.worker w = .loop
  canceled : s.canceled_ = false

structure Inv (s₀ s : Pool ω) : Prop where
  tasks : s.tasks_ = s₀.tasks_
  names : SameNames s₀.heap s.heap
  /-- Every running task has its worker. -/
  held : ∀ e, (s.heap e).running = true → ∃ w, s.worker w = .task e

lemma Inv.initial (h : s₀.Fresh) : Inv s₀ s₀ :=
  ⟨rfl, fun _ => ⟨rfl, rfl⟩, fun e hrunning => absurd hrunning (by simp [(h.tasks e).1])⟩

lemma sameNames_set {task : Task} (h : SameNames s₀.heap s.heap)
    (hdepends : task.depends = (s.heap e).depends)
    (hprovides : task.provides = (s.heap e).provides) : SameNames s₀.heap (s.set e task).heap := by
  intro e'
  by_cases hne : e' = e
  · subst hne
    rw [heap_set_self]
    exact ⟨hdepends.trans (h e').1, hprovides.trans (h e').2⟩
  · rw [heap_set_of_ne s task hne]
    exact h e'

section Step

variable [DecidableEq ω]

/-- Somebody who does not have the task goes on to something else. -/
lemma held_goto (hheld : ∃ w', s.worker w' = .task e) (hw : s.worker w ≠ .task e) (pc : WorkerPc) :
    ∃ w', (s.goto w pc).worker w' = .task e := by
  obtain ⟨w', hw'⟩ := hheld
  have hne : w' ≠ w := fun heq => hw (heq ▸ hw')
  exact ⟨w', (s.worker_goto_of_ne pc hne).trans hw'⟩

lemma Inv.goto (h : Inv s₀ s) (hw : ∀ e, s.worker w ≠ .task e) (pc : WorkerPc) :
    Inv s₀ (s.goto w pc) :=
  ⟨h.tasks, h.names, fun e hrunning => held_goto (h.held e hrunning) (hw e) pc⟩

theorem Step.inv (hstep : Step s w s') (h : Inv s₀ s) : Inv s₀ s' := by
  cases hstep with
  | check hw => exact h.goto (by simp [hw]) _
  | «return» hw => exact h.goto (by simp [hw]) _
  | waitUntil hw => exact h.goto (by simp [hw]) _
  | nothing hw => exact h.goto (by simp [hw]) _
  | wakeup hw => exact h.goto (by simp [hw]) _
  | cancel => exact ⟨h.tasks, h.names, h.held⟩
  | @start now time e hstarts =>
      refine ⟨h.tasks, sameNames_set h.names rfl rfl, fun e' hrunning => ?_⟩
      by_cases hne : e' = e
      · subst hne
        exact ⟨w, worker_goto_self _ _ _⟩
      · rw [heap_goto, heap_set_of_ne s _ hne] at hrunning
        exact held_goto (s := s.set e _) (h.held e' hrunning)
          (fun hw => by simp [hstarts.1, Pool.set] at hw) _
  | @finish e hw =>
      refine ⟨h.tasks, sameNames_set h.names rfl rfl, fun e' hrunning => ?_⟩
      by_cases hne : e' = e
      · subst hne
        simp at hrunning
      · rw [heap_goto, heap_set_of_ne s _ hne] at hrunning
        refine held_goto (s := s.set e _) (h.held e' hrunning) (fun hw' => ?_) _
        exact hne (WorkerPc.task.inj (hw.symm.trans hw')).symm

end Step

/-! ## Which tasks a worker can get to -/

/-- The tasks of those of the entries that get past the check. -/
def ready (s : Pool ω) (tasks : List (ℤ × ℕ)) : Finset ℕ :=
  ((tasks.filter fun x => passes s.heap s.tasks_.entries x).map Prod.snd).toFinset

lemma mem_ready {tasks : List (ℤ × ℕ)} :
    e ∈ s.ready tasks ↔ ∃ time, (time, e) ∈ tasks ∧
      passes s.heap s.tasks_.entries (time, e) = true := by
  simp [ready]

lemma ready_snoc (tasks : List (ℤ × ℕ)) (x : ℤ × ℕ) : s.ready (tasks ++ [x]) =
    if passes s.heap s.tasks_.entries x then insert x.2 (s.ready tasks) else s.ready tasks := by
  ext e
  split
  case isTrue hpasses => simp [ready, hpasses]
  case isFalse hblocked => simp [ready, hblocked]

/-- No task that gets past the check, and that one of so many workers can get to, depends on what
another task of the same time provides. -/
def Orderly (s : Pool ω) (workers : ℕ) : Prop :=
  ∀ before time e after, s.tasks_.entries = before ++ (time, e) :: after →
    passes s.heap s.tasks_.entries (time, e) = true → e ∉ s.ready before →
    (s.ready before).card < workers →
    ∀ x ∈ s.tasks_.entries, x.1 = time → x.2 ≠ e → Disjoint (s.heap x.2).provides (s.heap e).depends

/-- The task of a worker. -/
def WorkerPc.task? : WorkerPc → Option ℕ
  | .task e => some e
  | _ => none

variable [DecidableEq ω]

/-- A worker that starts a task has found all that come before it taken by others. -/
lemma Inv.starts [Fintype ω] (h : Inv s₀ s) (hstarts : s.Starts w now time e) :
    passes s₀.heap s₀.tasks_.entries (time, e) = true ∧ ∃ before after,
      s₀.tasks_.entries = before ++ (time, e) :: after ∧ e ∉ s₀.ready before ∧
        (s₀.ready before).card < Fintype.card ω := by
  obtain ⟨hidle, hpasses, before, after, hentries, hbefore⟩ := select_run hstarts.2
  rw [h.tasks] at hentries hpasses hbefore
  have hrunning : ∀ e' ∈ s₀.ready before, (s.heap e').running = true := by
    intro e' he'
    obtain ⟨time', hmem, hpasses'⟩ := mem_ready.mp he'
    refine (hbefore _ hmem).resolve_right ?_
    rw [passes_congr h.names, hpasses']
    simp
  refine ⟨(passes_congr h.names _).symm.trans hpasses, before, after, hentries, ?_, ?_⟩
  · intro hready
    exact absurd (hrunning e hready) (by simp [hidle])
  · have htaken : (s₀.ready before).image some ⊆
        (Finset.univ.erase w).image fun w' => WorkerPc.task? (s.worker w') := by
      intro pc hpc
      obtain ⟨e', he', rfl⟩ := Finset.mem_image.mp hpc
      obtain ⟨w', hw'⟩ := h.held e' (hrunning e' he')
      have hne : w' ≠ w := fun heq => by simp [heq, hstarts.1] at hw'
      refine Finset.mem_image.mpr ⟨w', Finset.mem_erase.mpr ⟨hne, Finset.mem_univ w'⟩, ?_⟩
      rw [hw', WorkerPc.task?]
    calc (s₀.ready before).card
        = ((s₀.ready before).image some).card :=
          (Finset.card_image_of_injective _ (Option.some_injective ℕ)).symm
      _ ≤ (Finset.univ.erase w).card := (Finset.card_le_card htaken).trans Finset.card_image_le
      _ < Fintype.card ω := Finset.card_erase_lt_of_mem (Finset.mem_univ w)

lemma Inv.respects [Fintype ω] (h : Inv s₀ s) (horderly : s₀.Orderly (Fintype.card ω))
    (hstarts : s.Starts w now time e) : s.Respects time e := by
  obtain ⟨hpasses, before, after, hentries, hnew, hcard⟩ := h.starts hstarts
  have hearlier := disjoint_of_passes s₀.tasks_.sorted hpasses
  have hsame := horderly before time e after hentries hpasses hnew hcard
  constructor
  · intro x hx hne _ hle
    rw [h.tasks] at hx
    rw [(h.names x.2).2, (h.names e).1]
    rcases lt_or_eq_of_le hle with hlt | heq
    · exact (hearlier x hx hlt).1
    · exact hsame x hx heq hne
  · intro x hx _ hlt
    rw [h.tasks] at hx
    rw [(h.names x.2).1, (h.names e).2]
    exact (hearlier x hx hlt).2

/-! ## A run that gets there -/

/-- The `busy` workers have taken all of the first entries that get past the check, and nobody has
finished. -/
structure Staged (s₀ : Pool ω) (front : List (ℤ × ℕ)) (busy : Finset ω) (s : Pool ω) : Prop where
  tasks : s.tasks_ = s₀.tasks_
  names : SameNames s₀.heap s.heap
  running : ∀ e, (s.heap e).running = true ↔ e ∈ s₀.ready front
  unfinished : ∀ e, (s.heap e).finished = false
  canceled : s.canceled_ = false
  free : ∀ w ∉ busy, s.worker w = .loop
  card : busy.card = (s₀.ready front).card

/-- The next worker starts the next task. -/
lemma Staged.starts {front after : List (ℤ × ℕ)} {busy : Finset ω} (h : Staged s₀ front busy s)
    (hentries : s₀.tasks_.entries = front ++ (time, e) :: after)
    (hpasses : passes s₀.heap s₀.tasks_.entries (time, e) = true) (hnew : e ∉ s₀.ready front)
    (w : ω) : (s.goto w .lock).Starts w time time e := by
  refine ⟨worker_goto_self _ _ _, ?_⟩
  show ThreadPoolScheduler.select s.heap s.tasks_.entries time s.tasks_.entries = _
  rw [h.tasks]
  have hselect :=
    @select_of_skipped s.heap s₀.tasks_.entries time time e front after ?_ le_rfl ?_ ?_
  · rwa [← hentries] at hselect
  · intro x hx
    have hsorted := s₀.tasks_.sorted
    rw [hentries] at hsorted
    refine ⟨(List.pairwise_append.mp hsorted).2.2 x hx _ List.mem_cons_self, ?_⟩
    rw [Skipped, passes_congr h.names, h.running]
    by_cases hx' : passes s₀.heap s₀.tasks_.entries x = true
    · exact Or.inl (mem_ready.mpr ⟨x.1, hx, hx'⟩)
    · exact Or.inr (Bool.eq_false_iff.mpr hx')
  · rw [← Bool.not_eq_true, h.running]
    exact hnew
  · rw [passes_congr h.names]
    exact hpasses

lemma Staged.next {front : List (ℤ × ℕ)} {busy : Finset ω} (h : Staged s₀ front busy s)
    (hpasses : passes s₀.heap s₀.tasks_.entries (time, e) = true) (hnew : e ∉ s₀.ready front)
    (hw : w ∉ busy) : Staged s₀ (front ++ [(time, e)]) (insert w busy)
      (((s.goto w .lock).set e { s.heap e with running := true }).goto w (.task e)) := by
  have hready : s₀.ready (front ++ [(time, e)]) = insert e (s₀.ready front) := by
    rw [ready_snoc, if_pos hpasses]
  refine ⟨h.tasks, sameNames_set (s := s) h.names rfl rfl, ?_, ?_, h.canceled, ?_, ?_⟩
  · intro e'
    rw [hready, Finset.mem_insert, ← h.running, heap_goto]
    by_cases hne : e' = e
    · simp [hne]
    · simp [heap_set_of_ne _ _ hne, hne]
  · intro e'
    rw [heap_goto]
    by_cases hne : e' = e
    · simp [hne, h.unfinished]
    · simp [heap_set_of_ne _ _ hne, h.unfinished]
  · intro w' hw'
    obtain ⟨hne, hfree⟩ := not_or.mp (Finset.mem_insert.not.mp hw')
    rw [worker_goto_of_ne _ _ hne]
    exact (s.worker_goto_of_ne .lock hne).trans (h.free w' hfree)
  · rw [hready, Finset.card_insert_of_notMem hw, Finset.card_insert_of_notMem hnew, h.card]

/-- As long as there are workers, somebody takes what gets past the check.  Induction on the
entries, from the front. -/
lemma exists_staged [Fintype ω] (hfresh : s₀.Fresh) (front after : List (ℤ × ℕ))
    (hentries : s₀.tasks_.entries = front ++ after)
    (hcard : (s₀.ready front).card ≤ Fintype.card ω) :
    ∃ ws s busy, Transition.Run Step s₀ ws s ∧ Staged s₀ front busy s := by
  induction front using List.reverseRecOn generalizing after with
  | nil =>
      refine ⟨[], s₀, ∅, .nil, rfl, fun _ => ⟨rfl, rfl⟩, ?_, fun e => (hfresh.tasks e).2,
        hfresh.canceled, fun w _ => hfresh.workers w, by simp [ready]⟩
      intro e
      simp [ready, (hfresh.tasks e).1]
  | append_singleton front x ih =>
      rw [List.append_assoc, List.singleton_append] at hentries
      have hgrows : s₀.ready front ⊆ s₀.ready (front ++ [x]) := by
        rw [ready_snoc]
        split
        · exact Finset.subset_insert _ _
        · exact Finset.Subset.refl _
      obtain ⟨ws, s, busy, hrun, hstaged⟩ :=
        ih (x :: after) hentries ((Finset.card_le_card hgrows).trans hcard)
      by_cases hnew : passes s₀.heap s₀.tasks_.entries x = true ∧ x.2 ∉ s₀.ready front
      · obtain ⟨hpasses, hnew⟩ := hnew
        rw [ready_snoc, if_pos hpasses, Finset.card_insert_of_notMem hnew, ← hstaged.card] at hcard
        obtain ⟨w, hw⟩ : ∃ w, w ∉ busy := by
          by_contra! hall
          have huniv : busy = Finset.univ := Finset.eq_univ_iff_forall.mpr hall
          rw [huniv, Finset.card_univ] at hcard
          omega
        have hcheck : Step s w (s.goto w .lock) := .check (hstaged.free w hw) hstaged.canceled
        have hstart := Step.start (hstaged.starts hentries hpasses hnew w)
        exact ⟨_, _, _, (hrun.snoc hcheck).snoc hstart, hstaged.next hpasses hnew hw⟩
      · refine ⟨ws, s, busy, hrun, ?_⟩
        have hsame : s₀.ready (front ++ [x]) = s₀.ready front := by
          rw [ready_snoc]
          split
          case isFalse => rfl
          case isTrue hpasses =>
            exact Finset.insert_eq_of_mem (by simpa [hpasses] using hnew)
        exact ⟨hstaged.tasks, hstaged.names, fun e => hsame ▸ hstaged.running e,
          hstaged.unfinished, hstaged.canceled, hstaged.free, hsame ▸ hstaged.card⟩

/-! ## All together -/

/-- **Dependencies.**  In every run every task that is started respects the dependencies, exactly if
the tasks are orderly for the number of workers. -/
theorem respects_iff_orderly [Fintype ω] (hfresh : s₀.Fresh) :
    (∀ ws s, Transition.Run Step s₀ ws s → ∀ w now time e, s.Starts w now time e →
      s.Respects time e) ↔ s₀.Orderly (Fintype.card ω) := by
  constructor
  · intro hrespects before time e after hentries hpasses hnew hcard x hx hsame hne
    obtain ⟨ws, s, busy, hrun, hstaged⟩ := exists_staged hfresh before _ hentries hcard.le
    obtain ⟨w, hw⟩ : ∃ w, w ∉ busy := by
      by_contra! hall
      rw [← hstaged.card, Finset.eq_univ_iff_forall.mpr hall, Finset.card_univ] at hcard
      exact lt_irrefl _ hcard
    have hcheck : Step s w (s.goto w .lock) := .check (hstaged.free w hw) hstaged.canceled
    have hstarts := hstaged.starts hentries hpasses hnew w
    have hprovided := (hrespects _ _ (hrun.snoc hcheck) w time time e hstarts).provided x
      (hstaged.tasks ▸ hx) hne (hstaged.unfinished x.2) hsame.le
    show Disjoint (s₀.heap x.2).provides (s₀.heap e).depends
    rw [← (hstaged.names x.2).2, ← (hstaged.names e).1]
    exact hprovided
  · intro horderly ws s hrun w now time e hstarts
    have hinv : Inv s₀ s := hrun.invariant (Inv.initial hfresh) fun _ _ _ h hstep => hstep.inv h
    exact hinv.respects horderly hstarts

/-- One task that provides `x`, and one that depends on it. -/
def provider : ℕ → Task
  | 0 => { provides := {"x"} }
  | 1 => { depends := {"x"} }
  | _ => {}

omit [DecidableEq ω] in
lemma fresh_provider (tasks : Multimap ℤ ℕ) :
    ({ tasks_ := tasks, heap := provider } : Pool ω).Fresh := by
  refine ⟨fun e => ?_, fun _ => rfl, rfl⟩
  match e with
  | 0 => exact ⟨rfl, rfl⟩
  | 1 => exact ⟨rfl, rfl⟩
  | _ + 2 => exact ⟨rfl, rfl⟩

/-- The provider is scheduled earlier: a worker that may start both starts it. -/
theorem respects_earlier : ∃ ws s,
    Transition.Run Step
      ({ tasks_ := (({} : Multimap ℤ ℕ).insert 3 0).insert 5 1, heap := provider } : Pool (Fin 2))
      ws s ∧ s.Starts 0 5 3 0 ∧ s.Respects 3 0 := by
  have horderly : ({ tasks_ := (({} : Multimap ℤ ℕ).insert 3 0).insert 5 1, heap := provider } :
      Pool (Fin 2)).Orderly (Fintype.card (Fin 2)) := by
    intro before time e after hentries _ _ _ x hx hsame hne
    have hmem : (time, e) ∈ [((3 : ℤ), 0), (5, 1)] :=
      (congrArg ((time, e) ∈ ·) hentries).mpr (List.mem_append_right _ List.mem_cons_self)
    have hother : x ∈ [((3 : ℤ), 0), (5, 1)] := hx
    -- No two entries have the same time.
    simp only [List.mem_cons, Prod.ext_iff, List.not_mem_nil, or_false] at hmem hother
    omega
  have hrun := (Transition.Run.nil (s := ({ tasks_ := (({} : Multimap ℤ ℕ).insert 3 0).insert 5 1
                                            heap := provider } : Pool (Fin 2)))).snoc
    (Step.check (w := 0) rfl rfl)
  have hrespects := (respects_iff_orderly (fresh_provider _)).mpr horderly _ _ hrun
  exact ⟨_, _, hrun, ⟨rfl, by decide⟩, hrespects 0 5 3 0 ⟨rfl, by decide⟩⟩

/-- The two are scheduled for the same time, the provider later: the scan for what the other one
depends on ends at its own entry. -/
theorem respects_fails : ¬ ∀ s₀ : Pool Unit, s₀.Fresh → ∀ ws s, Transition.Run Step s₀ ws s →
    ∀ w now time e, s.Starts w now time e → s.Respects time e := by
  intro hrespects
  have hrun := (Transition.Run.nil (s := ({ tasks_ := (({} : Multimap ℤ ℕ).insert 5 1).insert 5 0
                                            heap := provider } : Pool Unit))).snoc
    (Step.check (w := ()) rfl rfl)
  have hprovided := (hrespects _ (fresh_provider _) _ _ hrun () 5 5 1 ⟨rfl, by decide⟩).provided
    (5, 0) (by decide) (by decide) rfl le_rfl
  exact Finset.disjoint_left.mp hprovided (Finset.mem_singleton_self "x")
    (Finset.mem_singleton_self "x")

end Pool

end CpsCore.ThreadPoolScheduler

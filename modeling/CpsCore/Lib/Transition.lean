import Mathlib

/-!
# Runs of a labelled transition system

`Run step s es s'` — the events `es`, one after the other, lead from `s` to `s'`.

A statement about every run is proved from one step: `Run.induct` carries a fact about the
events so far and the state reached, `Run.invariant` one about the state alone.
-/

namespace Transition

universe u v
variable {σ : Type u} {ε : Type v}

inductive Run (step : σ → ε → σ → Prop) (s : σ) : List ε → σ → Prop
  | nil : Run step s [] s
  | snoc {es : List ε} {s' s'' : σ} {e : ε} :
      Run step s es s' → step s' e s'' → Run step s (es ++ [e]) s''

variable {step : σ → ε → σ → Prop}

/-- **From one step to every run**, with the history. -/
theorem Run.induct {s s' : σ} {es : List ε} {P : List ε → σ → Prop} (h : Run step s es s')
    (hinit : P [] s)
    (hstep : ∀ es s' e s'', P es s' → step s' e s'' → P (es ++ [e]) s'') : P es s' := by
  induction h with
  | nil => exact hinit
  | snoc _ hlast ih => exact hstep _ _ _ _ ih hlast

theorem Run.invariant {s s' : σ} {es : List ε} {I : σ → Prop} (h : Run step s es s')
    (hinit : I s) (hstep : ∀ s' e s'', I s' → step s' e s'' → I s'') : I s' :=
  h.induct hinit fun _ s' e s'' => hstep s' e s''

/-- The same for runs of certain events. -/
theorem Run.invariant_of {s s' : σ} {es : List ε} {I : σ → Prop} {P : ε → Prop}
    (h : Run step s es s') (hes : ∀ e ∈ es, P e) (hinit : I s)
    (hstep : ∀ s' e s'', P e → I s' → step s' e s'' → I s'') : I s' := by
  induction h with
  | nil => exact hinit
  | snoc _ hlast ih =>
      have hbefore := ih fun e he => hes e (List.mem_append_left _ he)
      exact hstep _ _ _ (hes _ (List.mem_append_right _ (List.mem_singleton_self _))) hbefore hlast

lemma Run.single {s s' : σ} {e : ε} (h : step s e s') : Run step s [e] s' := Run.nil.snoc h

lemma Run.mono {step' : σ → ε → σ → Prop} {s s' : σ} {es : List ε} (h : Run step s es s')
    (hstep : ∀ s e s', step s e s' → step' s e s') : Run step' s es s' := by
  induction h with
  | nil => exact Run.nil
  | snoc _ hlast ih => exact ih.snoc (hstep _ _ _ hlast)

theorem Run.trans {s s' s'' : σ} {es es' : List ε} (h : Run step s es s')
    (h' : Run step s' es' s'') : Run step s (es ++ es') s'' := by
  induction h' with
  | nil => rwa [List.append_nil]
  | snoc _ hlast ih =>
      rw [← List.append_assoc]
      exact ih.snoc hlast

lemma Run.snoc_inv {s s'' : σ} {es : List ε} {e : ε} (h : Run step s (es ++ [e]) s'') :
    ∃ s', Run step s es s' ∧ step s' e s'' := by
  generalize hes : es ++ [e] = es' at h
  cases h with
  | nil => exact absurd hes (by simp)
  | snoc hrun hlast =>
      obtain ⟨rfl, hsame⟩ := List.append_inj' hes rfl
      obtain rfl : e = _ := List.singleton_inj.mp hsame
      exact ⟨_, hrun, hlast⟩

lemma Run.nil_inv {s s' : σ} (h : Run step s [] s') : s' = s := by
  generalize hes : ([] : List ε) = es at h
  cases h with
  | nil => rfl
  | snoc => simp at hes

lemma Run.single_inv {s s' : σ} {e : ε} (h : Run step s [e] s') : step s e s' := by
  obtain ⟨m, hnil, hlast⟩ := @Run.snoc_inv _ _ step s s' [] e h
  obtain rfl := hnil.nil_inv
  exact hlast

/-- A run passes through a state after each part of its events. -/
theorem Run.split {s s'' : σ} {es es' : List ε} (h : Run step s (es ++ es') s'') :
    ∃ s', Run step s es s' ∧ Run step s' es' s'' := by
  induction es' using List.reverseRecOn generalizing s'' with
  | nil =>
      rw [List.append_nil] at h
      exact ⟨s'', h, Run.nil⟩
  | append_singleton es' e ih =>
      rw [← List.append_assoc] at h
      obtain ⟨m, hm, hlast⟩ := h.snoc_inv
      obtain ⟨s', hs', hrest⟩ := ih hm
      exact ⟨s', hs', hrest.snoc hlast⟩

/-- **Termination**: a run of events of which each makes the measure smaller is no longer than the
measure at its start. -/
theorem Run.bounded {s s' : σ} {es : List ε} {I : σ → Prop} {P : ε → Prop} {μ : σ → ℕ}
    (h : Run step s es s') (hes : ∀ e ∈ es, P e) (hinit : I s)
    (hstep : ∀ s e s', P e → I s → step s e s' → I s' ∧ μ s' < μ s) :
    I s' ∧ es.length + μ s' ≤ μ s := by
  induction h with
  | nil => simpa using hinit
  | @snoc es s' s'' e _ hlast ih =>
      obtain ⟨hs', hle⟩ := ih fun e he => hes e (List.mem_append_left _ he)
      obtain ⟨hs'', hlt⟩ := hstep s' e s'' (hes e (by simp)) hs' hlast
      refine ⟨hs'', ?_⟩
      simp only [List.length_append, List.length_singleton]
      omega

/-- **Forward simulation.**  Each event is one of the other system, or none. -/
theorem Run.simulates {σ' ε' : Type*} {step' : σ' → ε' → σ' → Prop} {R : σ → σ' → Prop}
    {f : ε → Option ε'} {P : ε → Prop} {s s' : σ} {t : σ'} {es : List ε} (h : Run step s es s')
    (hes : ∀ e ∈ es, P e) (hinit : R s t)
    (hskip : ∀ s e s' t, P e → f e = none → step s e s' → R s t → R s' t)
    (hmove : ∀ s e s' t e', P e → f e = some e' → step s e s' → R s t →
      ∃ t', step' t e' t' ∧ R s' t') : ∃ t', Run step' t (es.filterMap f) t' ∧ R s' t' := by
  induction h with
  | nil => exact ⟨t, Run.nil, hinit⟩
  | @snoc es s' s'' e _ hlast ih =>
      obtain ⟨t', hrun, ht'⟩ := ih fun e he => hes e (List.mem_append_left _ he)
      have hP := hes e (by simp)
      rw [List.filterMap_append]
      cases hf : f e with
      | none =>
          refine ⟨t', ?_, hskip _ _ _ _ hP hf hlast ht'⟩
          rw [List.filterMap_cons_none hf, List.filterMap_nil, List.append_nil]
          exact hrun
      | some e' =>
          obtain ⟨t'', hstep, ht''⟩ := hmove _ _ _ _ _ hP hf hlast ht'
          refine ⟨t'', ?_, ht''⟩
          rw [List.filterMap_cons_some hf, List.filterMap_nil]
          exact hrun.snoc hstep

/-- Where each step can come closer, some run arrives. -/
theorem exists_run {s : σ} {I Done : σ → Prop} {μ : σ → ℕ} (hinit : I s)
    (hstep : ∀ s, I s → ∃ e s', step s e s' ∧ (Done s' ∨ I s' ∧ μ s' < μ s)) :
    ∃ es s', Run step s es s' ∧ Done s' := by
  induction hμ : μ s using Nat.strong_induction_on generalizing s with
  | _ n ih =>
      obtain ⟨e, s', hs', hdone | ⟨hI, hlt⟩⟩ := hstep s hinit
      · exact ⟨[e], s', Run.single hs', hdone⟩
      · obtain ⟨es, s'', hrun, hdone⟩ := ih _ (hμ ▸ hlt) hI rfl
        exact ⟨[e] ++ es, s'', (Run.single hs').trans hrun, hdone⟩

end Transition

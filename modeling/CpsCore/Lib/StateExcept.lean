import Mathlib

/-!
# Stateful computations that may fail

Rules for `EStateM`: a computation that keeps its state when it throws.

* `Keeps I E m` — started where `I` holds, `m` ends where `I` holds, or throws an error and
  stops in a state that `E` allows.
* `Tracks R E m m'` — `m` follows `m'` step by step: from states related by `R`, a normal end
  of `m'` is the same normal end of `m` in related states, and an error of `m'` leaves `m` in
  an end that `E` allows.  `E` may say less than "the same error", so it also describes a run
  that went on past the point where `m'` stopped.

Both are `Compositional`: closed under `pure` and `bind`, hence under the bounded loops
`iterate` and `collect`, so a program is treated once, by induction on how it is built.
-/

namespace StateExcept

universe u
variable {ε ε' σ τ α β : Type u}

/-- The state a computation stopped in, whether or not it threw. -/
def endState : EStateM.Result ε σ α → σ
  | .ok _ s => s
  | .error _ s => s

/-- The error a computation ended with, if it threw one. -/
def endError : EStateM.Result ε σ α → Option ε
  | .ok _ _ => none
  | .error e _ => some e

@[simp] lemma endState_ok (a : α) (s : σ) : endState (.ok a s : EStateM.Result ε σ α) = s := rfl

/-! ## Running a sequence -/

lemma run_bind_ok {m : EStateM ε σ α} {s s' : σ} {a : α} (h : m.run s = .ok a s')
    (f : α → EStateM ε σ β) : (m >>= f).run s = (f a).run s' := by
  rw [EStateM.run_bind, h]

lemma run_bind_error {m : EStateM ε σ α} {s s' : σ} {e : ε} (h : m.run s = .error e s')
    (f : α → EStateM ε σ β) : (m >>= f).run s = .error e s' := by
  rw [EStateM.run_bind, h]

/-- A sequence that ends normally has done so in both its parts. -/
lemma run_bind_eq_ok {m : EStateM ε σ α} {f : α → EStateM ε σ β} {s s' : σ} {b : β}
    (h : (m >>= f).run s = .ok b s') :
    ∃ a s₁, m.run s = .ok a s₁ ∧ (f a).run s₁ = .ok b s' := by
  rw [EStateM.run_bind] at h
  cases hm : m.run s with
  | error e s₁ => rw [hm] at h; cases h
  | ok a s₁ =>
      rw [hm] at h
      exact ⟨a, s₁, rfl, h⟩

/-- Runs `f` `n` times, threading the accumulator: the loop `for i < n: acc = f(acc)`. -/
def iterate : ℕ → (α → EStateM ε σ α) → α → EStateM ε σ α
  | 0, _, a => pure a
  | n + 1, f, a => f a >>= iterate n f

/-- Runs `m` `n` times and collects the results. -/
def collect (m : EStateM ε σ α) : (n : ℕ) → EStateM ε σ (List.Vector α n)
  | 0 => pure List.Vector.nil
  | n + 1 => m >>= fun a => collect m n >>= fun v => pure (a ::ᵥ v)

/-! ## Relations that sequencing respects -/

/-- A relation between computations that follows them through sequences.  A program that two
interfaces run in the same way is related as soon as their primitives are. -/
structure Compositional
    (Rel : ∀ {α : Type u}, EStateM ε σ α → EStateM ε' τ α → Prop) : Prop where
  pure : ∀ {α : Type u} (a : α), Rel (pure a) (pure a)
  bind : ∀ {α β : Type u} {m : EStateM ε σ α} {m' : EStateM ε' τ α} {f : α → EStateM ε σ β}
    {f' : α → EStateM ε' τ β}, Rel m m' → (∀ a, Rel (f a) (f' a)) → Rel (m >>= f) (m' >>= f')

section Compositional

variable {Rel : ∀ {α : Type u}, EStateM ε σ α → EStateM ε' τ α → Prop}

lemma Compositional.iterate (hRel : Compositional Rel) {f : α → EStateM ε σ α}
    {f' : α → EStateM ε' τ α} (hf : ∀ a, Rel (f a) (f' a)) :
    ∀ (n : ℕ) (a : α), Rel (iterate n f a) (iterate n f' a)
  | 0, a => hRel.pure a
  | n + 1, a => hRel.bind (hf a) fun b => Compositional.iterate hRel hf n b

lemma Compositional.collect (hRel : Compositional Rel) {m : EStateM ε σ α} {m' : EStateM ε' τ α}
    (hm : Rel m m') : ∀ n : ℕ, Rel (collect m n) (collect m' n)
  | 0 => hRel.pure _
  | n + 1 => hRel.bind hm fun _ =>
      hRel.bind (Compositional.collect hRel hm n) fun _ => hRel.pure _

end Compositional

/-! ## Invariants -/

/-- `m` keeps `I` while it runs normally, and an error is thrown only where `E` allows it. -/
def Keeps (I : σ → Prop) (E : ε → σ → Prop) (m : EStateM ε σ α) : Prop :=
  ∀ s, I s →
    match m.run s with
    | .ok _ s' => I s'
    | .error e s' => E e s'

section Keeps

variable {I : σ → Prop} {E : ε → σ → Prop}

lemma Keeps.pure (a : α) : Keeps I E (pure a : EStateM ε σ α) := fun _ hs => hs

lemma Keeps.bind {m : EStateM ε σ α} {f : α → EStateM ε σ β} (hm : Keeps I E m)
    (hf : ∀ a, Keeps I E (f a)) : Keeps I E (m >>= f) := by
  intro s hs
  have h := hm s hs
  rw [EStateM.run_bind]
  cases hr : m.run s with
  | ok a s' =>
      rw [hr] at h
      exact hf a s' h
  | error e s' =>
      rw [hr] at h
      exact h

lemma Keeps.compositional : Compositional fun {α : Type u} (m _ : EStateM ε σ α) => Keeps I E m where
  pure := Keeps.pure
  bind := Keeps.bind

lemma Keeps.iterate {f : α → EStateM ε σ α} (hf : ∀ a, Keeps I E (f a)) (n : ℕ) (a : α) :
    Keeps I E (iterate n f a) :=
  @Compositional.iterate _ _ _ _ _ _ Keeps.compositional f f hf n a

lemma Keeps.collect {m : EStateM ε σ α} (hm : Keeps I E m) (n : ℕ) : Keeps I E (collect m n) :=
  @Compositional.collect _ _ _ _ _ _ Keeps.compositional m m hm n

lemma Keeps.throw {e : ε} (h : ∀ s, I s → E e s) : Keeps I E (throw e : EStateM ε σ α) :=
  fun s hs => h s hs

/-- A continuation that branches on the state it reads. -/
lemma Keeps.get {f : σ → EStateM ε σ α} (hf : ∀ s, Keeps I E (f s)) :
    Keeps I E ((get : EStateM ε σ σ) >>= f) := fun s hs => hf s s hs

end Keeps

/-! ## Following a reference computation -/

/-- `m` follows `m'`: same results from related states, and where `m'` throws, `m` ends as `E`
says (with an error or without one). -/
def Tracks (R : σ → τ → Prop) (E : ε' → Option ε → σ → Prop) (m : EStateM ε σ α)
    (m' : EStateM ε' τ α) : Prop :=
  ∀ s t, R s t →
    match m'.run t with
    | .ok a t' => ∃ s', m.run s = .ok a s' ∧ R s' t'
    | .error e _ => E e (endError (m.run s)) (endState (m.run s))

/-- What may follow a computation that has already gone past its reference: it must stay in the
ends `E` allows. -/
def Absorbs (E : ε' → Option ε → σ → Prop) (m : EStateM ε σ α) : Prop :=
  ∀ e s, E e none s → E e (endError (m.run s)) (endState (m.run s))

section Tracks

variable {R : σ → τ → Prop} {E : ε' → Option ε → σ → Prop}

lemma Absorbs.pure (a : α) : Absorbs E (pure a : EStateM ε σ α) := fun _ _ h => h

lemma Absorbs.bind {m : EStateM ε σ α} {f : α → EStateM ε σ β} (hm : Absorbs E m)
    (hf : ∀ a, Absorbs E (f a)) : Absorbs E (m >>= f) := by
  intro e s h
  have h₁ := hm e s h
  rw [EStateM.run_bind]
  cases hr : m.run s with
  | ok a s' =>
      rw [hr] at h₁
      exact hf a e s' h₁
  | error e' s' =>
      rw [hr] at h₁
      exact h₁

lemma Absorbs.get {f : σ → EStateM ε σ α} (hf : ∀ s, Absorbs E (f s)) :
    Absorbs E ((get : EStateM ε σ σ) >>= f) := fun e s h => hf s e s h

lemma Tracks.pure (a : α) : Tracks R E (pure a : EStateM ε σ α) (pure a : EStateM ε' τ α) :=
  fun s _ hR => ⟨s, rfl, hR⟩

lemma Tracks.bind {m : EStateM ε σ α} {m' : EStateM ε' τ α} {f : α → EStateM ε σ β}
    {f' : α → EStateM ε' τ β} (hm : Tracks R E m m') (hf : ∀ a, Tracks R E (f a) (f' a))
    (hE : ∀ a, Absorbs E (f a)) : Tracks R E (m >>= f) (m' >>= f') := by
  intro s t hR
  have h := hm s t hR
  rw [EStateM.run_bind]
  cases hr' : m'.run t with
  | ok a t' =>
      rw [hr'] at h
      obtain ⟨s', hs', hR'⟩ := h
      rw [run_bind_ok hs']
      exact hf a s' t' hR'
  | error e t' =>
      rw [hr'] at h
      show E e (endError ((m >>= f).run s)) (endState ((m >>= f).run s))
      rw [EStateM.run_bind]
      cases hr : m.run s with
      | ok a s' =>
          -- `m` went on past the point where `m'` stopped
          rw [hr] at h
          exact hE a e s' h
      | error e₂ s' =>
          rw [hr] at h
          exact h

lemma Tracks.compositional : Compositional fun {α : Type u} (m : EStateM ε σ α)
    (m' : EStateM ε' τ α) => Tracks R E m m' ∧ Absorbs E m where
  pure a := ⟨Tracks.pure a, Absorbs.pure a⟩
  bind hm hf := ⟨hm.1.bind (fun a => (hf a).1) fun a => (hf a).2, hm.2.bind fun a => (hf a).2⟩

lemma Tracks.throw {e : ε} {e' : ε'} (h : ∀ s t, R s t → E e' (some e) s) :
    Tracks R E (throw e : EStateM ε σ α) (throw e' : EStateM ε' τ α) :=
  fun s t hR => h s t hR

lemma Tracks.get {f : σ → EStateM ε σ α} {f' : τ → EStateM ε' τ α}
    (hf : ∀ s t, R s t → Tracks R E (f s) (f' t)) :
    Tracks R E ((get : EStateM ε σ σ) >>= f) ((get : EStateM ε' τ τ) >>= f') :=
  fun s t hR => hf s t hR s t hR

end Tracks

end StateExcept

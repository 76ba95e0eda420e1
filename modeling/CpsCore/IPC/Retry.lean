import Mathlib
import CpsCore.IPC.Subscriptions

/-!
# Retrying subscriptions

Who asks for a retry wants the subscription to be connected again whenever it is not.
`subscribeOnPackets` queues an id for that where it makes the subscription, and nowhere else: who
asks for it later, of a subscription that is there, is not heard.

* `Valid`: each id has a subscription of its own.
* `Kept`: whoever has asked is served by every retry, and nobody else.
* `kept_iff_heard`: in which histories that is so.
-/

namespace CpsCore.IPC

variable {s : IPC} {id : String} {sub : ℕ}

/-! ## One run of the retries -/

/-- Different ids have different subscriptions. -/
structure Valid (s : IPC) : Prop where
  id_ : ∀ id sub, s.find id = some sub → (s.impls sub).id_ = id
  made : ∀ id sub, s.find id = some sub → sub < s.next

namespace SubscriptionImpl

@[simp] lemma id_connect (impl : SubscriptionImpl) (published : Published) :
    (impl.connect published).2.id_ = impl.id_ := by
  unfold connect
  split
  · split <;> rfl
  · split <;> rfl
  · rfl

@[simp] lemma id_start (impl : SubscriptionImpl) : impl.start.id_ = impl.id_ := rfl

@[simp] lemma id_subscribe (impl : SubscriptionImpl) : impl.subscribe.id_ = impl.id_ := rfl

@[simp] lemma id_cancel (impl : SubscriptionImpl) : impl.cancel.id_ = impl.id_ := by
  unfold cancel
  split
  · split <;> rfl
  · rfl

@[simp] lemma id_ended (impl : SubscriptionImpl) : impl.ended.id_ = impl.id_ := by
  unfold ended
  split
  · rfl
  · split <;> rfl

@[simp] lemma id_make (transport : Transport) (id : String) (published : Published) :
    (make transport id published).id_ = id := by
  simp [make]

/-- It succeeds where there is a publisher, and is connected exactly then. -/
lemma connect_spec (impl : SubscriptionImpl) (published : Published)
    (h : impl.connected = false) :
    (impl.connect published).2.connected = (impl.connect published).1 ∧
      (published impl.transport impl.id_ = true → (impl.connect published).1 = true) := by
  unfold connect
  split
  case h_1 htransport => split <;> simp_all
  case h_2 htransport => split <;> simp_all
  case h_3 => simp

end SubscriptionImpl

/-- One attempt, on the way through `retryVector_`. -/
def attempted (s : IPC) (sub : ℕ) : SubscriptionImpl :=
  if ((s.impls sub).connect s.published).1 then ((s.impls sub).connect s.published).2.start
  else ((s.impls sub).connect s.published).2

lemma id_attempted (s : IPC) (sub : ℕ) : (s.attempted sub).id_ = (s.impls sub).id_ := by
  unfold attempted
  split <;> simp

lemma Valid.set (h : s.Valid) {impl : SubscriptionImpl} (hid : impl.id_ = (s.impls sub).id_) :
    (s.set sub impl).Valid := by
  refine ⟨fun id other hfind => ?_, h.made⟩
  by_cases hne : other = sub
  · subst hne
    rw [impls_set_self, hid]
    exact h.id_ id other hfind
  · rw [impls_set_of_ne s impl hne]
    exact h.id_ id other hfind

/-- The three ways through the body of the loop. -/
lemma retryAll_cons (s : IPC) (id : String) (ids : List String) :
    ((s.find id = none ∨ ∃ sub, s.find id = some sub ∧ (s.impls sub).connected = true) ∧
        s.retryAll (id :: ids) = s.retryAll ids) ∨
      ∃ sub, s.find id = some sub ∧ (s.impls sub).connected = false ∧
        s.retryAll (id :: ids) = (⟨id, ((s.impls sub).connect s.published).1⟩ ::
          ((s.set sub (s.attempted sub)).retryAll ids).1,
            ((s.set sub (s.attempted sub)).retryAll ids).2) := by
  rw [retryAll]
  cases hfind : s.find id with
  | none => exact Or.inl ⟨Or.inl rfl, rfl⟩
  | some sub =>
      cases hconnected : (s.impls sub).connected with
      | true => exact Or.inl ⟨Or.inr ⟨sub, rfl, hconnected⟩, by simp [hconnected]⟩
      | false =>
          refine Or.inr ⟨sub, rfl, hconnected, ?_⟩
          simp only [hconnected, Bool.false_eq_true, if_false]
          rfl

/-- A retry changes nothing but subscriptions. -/
lemma retryAll_keeps (s : IPC) (ids : List String) :
    (s.retryAll ids).2.subscriptions_ = s.subscriptions_ ∧
      (s.retryAll ids).2.retryVector_ = s.retryVector_ ∧
      (s.retryAll ids).2.next = s.next := by
  induction ids generalizing s with
  | nil => exact ⟨rfl, rfl, rfl⟩
  | cons id ids ih =>
      rcases s.retryAll_cons id ids with ⟨-, hskip⟩ | ⟨sub, -, -, hattempt⟩
      · rw [hskip]
        exact ih s
      · rw [hattempt]
        exact ih (s.set sub _)

lemma Valid.retryAll (h : s.Valid) (ids : List String) : (s.retryAll ids).2.Valid := by
  induction ids generalizing s with
  | nil => exact h
  | cons id ids ih =>
      rcases s.retryAll_cons id ids with ⟨-, hskip⟩ | ⟨sub, -, -, hattempt⟩
      · rw [hskip]
        exact ih h
      · rw [hattempt]
        exact ih (h.set (s.id_attempted sub))

/-- Another id is another subscription. -/
lemma Valid.ne (h : s.Valid) {id' : String} {sub' : ℕ} (hfind : s.find id = some sub)
    (hfind' : s.find id' = some sub') (hne : id ≠ id') : sub ≠ sub' := by
  rintro rfl
  exact hne ((h.id_ id sub hfind).symm.trans (h.id_ id' sub hfind'))

/-- Who is connected, or not in the list, is left alone. -/
lemma Valid.retryAll_left (h : s.Valid) {ids : List String} (hfind : s.find id = some sub)
    (hleft : (s.impls sub).connected = true ∨ id ∉ ids) :
    (s.retryAll ids).2.impls sub = s.impls sub := by
  induction ids generalizing s with
  | nil => rfl
  | cons id' ids ih =>
      have hleft' := hleft.imp_right fun hnot hmem => hnot (List.mem_cons_of_mem id' hmem)
      rcases s.retryAll_cons id' ids with ⟨-, hskip⟩ | ⟨sub', hfind', hdown, hattempt⟩
      · rw [hskip]
        exact ih h hfind hleft'
      · have hother : sub ≠ sub' := by
          rintro rfl
          rcases hleft with hup | hnot
          · exact absurd hup (by simp [hdown])
          · refine hnot (List.mem_cons.mpr (Or.inl ?_))
            exact (h.id_ id sub hfind).symm.trans (h.id_ id' sub hfind')
        have hsame := s.impls_set_of_ne (s.attempted sub') hother
        rw [hattempt]
        refine (ih (h.set (s.id_attempted sub')) hfind ?_).trans hsame
        rwa [hsame]

lemma retryAll_attempts {ids : List String} {attempt : Attempt}
    (h : attempt ∈ (s.retryAll ids).1) : attempt.id ∈ ids := by
  induction ids generalizing s with
  | nil => simp [IPC.retryAll] at h
  | cons id' ids ih =>
      rcases s.retryAll_cons id' ids with ⟨-, hskip⟩ | ⟨sub', -, -, hattempt⟩
      · rw [hskip] at h
        exact List.mem_cons_of_mem _ (ih h)
      · rw [hattempt] at h
        rcases List.mem_cons.mp h with rfl | h
        · exact List.mem_cons_self
        · exact List.mem_cons_of_mem _ (ih h)

/-- **A retry**: who is in the list and not connected is attempted, and is connected and listening
afterwards if it has a publisher. -/
theorem Valid.retryAll_attempted (h : s.Valid) {ids : List String} (hid : id ∈ ids)
    (hfind : s.find id = some sub) (hdown : (s.impls sub).connected = false) :
    (∃ attempt ∈ (s.retryAll ids).1, attempt.id = id) ∧
      (s.published (s.impls sub).transport id = true →
        ((s.retryAll ids).2.impls sub).connected = true ∧
          ((s.retryAll ids).2.impls sub).listening = true) := by
  induction ids generalizing s with
  | nil => simp at hid
  | cons id' ids ih =>
      rcases s.retryAll_cons id' ids with ⟨hup, hskip⟩ | ⟨sub', hfind', hdown', hattempt⟩
      · rw [hskip]
        refine ih h ((List.mem_cons.mp hid).resolve_left ?_) hfind hdown
        rintro rfl
        rcases hup with hnone | ⟨sub', hfind', hup⟩
        · simp [hnone] at hfind
        · obtain rfl : sub = sub' := Option.some.inj (hfind.symm.trans hfind')
          simp [hdown] at hup
      · rw [hattempt]
        by_cases hne : id = id'
        · subst hne
          obtain rfl : sub = sub' := Option.some.inj (hfind.symm.trans hfind')
          refine ⟨⟨_, List.mem_cons_self, rfl⟩, fun hpublished => ?_⟩
          obtain ⟨hconnected, hsucceeds⟩ :=
            SubscriptionImpl.connect_spec (s.impls sub) s.published hdown
          rw [h.id_ id sub hfind] at hsucceeds
          have hnow : s.attempted sub = ((s.impls sub).connect s.published).2.start :=
            if_pos (hsucceeds hpublished)
          have hup : (s.attempted sub).connected = true := by
            rw [hnow]
            exact hconnected.trans (hsucceeds hpublished)
          have hleft : (s.set sub (s.attempted sub)).impls sub = s.attempted sub :=
            impls_set_self ..
          rw [(h.set (s.id_attempted sub)).retryAll_left hfind (Or.inl (by rwa [hleft])), hleft]
          exact ⟨hup, by rw [hnow]; rfl⟩
        · have hother : sub ≠ sub' := h.ne hfind hfind' hne
          have hsame := s.impls_set_of_ne (s.attempted sub') hother
          have hnext := ih (h.set (s.id_attempted sub')) ((List.mem_cons.mp hid).resolve_left hne)
            hfind (by rwa [hsame])
          obtain ⟨⟨attempt, hmem, hattemptid⟩, hrest⟩ := hnext
          refine ⟨⟨attempt, List.mem_cons_of_mem _ hmem, hattemptid⟩, fun hpublished => ?_⟩
          exact hrest (by rwa [hsame])

/-! ## Every operation -/

/-- As constructed. -/
def initial (useRedis scheduler : Bool) (published : Published) : IPC :=
  { useRedis := useRedis, scheduler := scheduler, published := published }

lemma Valid.initial (useRedis scheduler : Bool) (published : Published) :
    (initial useRedis scheduler published).Valid :=
  ⟨fun _ _ hfind => by simp [find, IPC.initial] at hfind,
    fun _ _ hfind => by simp [find, IPC.initial] at hfind⟩

lemma find_subscribeOnPackets (s : IPC) (id : String) (options : IPCOptions) (id' : String) :
    (s.subscribeOnPackets id options).find id' =
      if id' = id then some ((s.find id).getD s.next) else s.find id' := by
  rw [subscribeOnPackets]
  cases hfind : s.find id with
  | some sub =>
      by_cases hid : id' = id
      · simp [hid, hfind]
      · simp [hid]
  | none =>
      by_cases hid : id' = id
      · simp [hid, find]
      · have hbeq : (id' == id) = false := beq_false_of_ne hid
        simp [hid, find, List.lookup_cons, hbeq]

lemma Valid.subscribeOnPackets (h : s.Valid) (id : String) (options : IPCOptions) :
    (s.subscribeOnPackets id options).Valid := by
  rw [IPC.subscribeOnPackets]
  cases hfind : s.find id with
  | some sub => exact h.set rfl
  | none =>
      have hcases : ∀ id' sub, ((id, s.next) :: s.subscriptions_).lookup id' = some sub →
          id' = id ∧ sub = s.next ∨ s.find id' = some sub := by
        intro id' sub hlookup
        rw [List.lookup_cons] at hlookup
        split at hlookup
        · exact Or.inl ⟨by simp_all, (Option.some.inj hlookup).symm⟩
        · exact Or.inr hlookup
      constructor
      · intro id' sub hfind'
        rcases hcases id' sub hfind' with ⟨rfl, rfl⟩ | hold
        · simp
        · have hne : sub ≠ s.next := (h.made id' sub hold).ne
          show (Function.update s.impls s.next _ sub).id_ = id'
          rw [Function.update_of_ne hne]
          exact h.id_ id' sub hold
      · intro id' sub hfind'
        rcases hcases id' sub hfind' with ⟨-, rfl⟩ | hold
        · exact Nat.lt_succ_self _
        · exact Nat.lt_succ_of_lt (h.made id' sub hold)

lemma Valid.apply (h : s.Valid) (operation : Operation) : (s.apply operation).Valid := by
  cases operation with
  | subscribeOnPackets id options => exact h.subscribeOnPackets id options
  | retrySubscriptions => exact h.retryAll _
  | publish transport id exist => exact ⟨h.id_, h.made⟩
  | ended sub => exact h.set (SubscriptionImpl.id_ended _)
  | runScheduled =>
      simp only [IPC.apply, runScheduled]
      split
      case h_1 => exact h
      case h_2 sub scheduled _ =>
        have hset : (s.set sub (s.impls sub).start).Valid := h.set rfl
        exact ⟨hset.id_, hset.made⟩
  | sigint =>
      exact ⟨fun _ _ hfind => by simp [IPC.apply, sigintHandler, find] at hfind,
        fun _ _ hfind => by simp [IPC.apply, sigintHandler, find] at hfind⟩

/-- Nothing but a retry connects a subscription that is not connected. -/
lemma Valid.connected (h : s.Valid) (hfind : s.find id = some sub) {operation : Operation}
    (hother : operation ≠ .retrySubscriptions) (hdown : (s.impls sub).connected = false) :
    ((s.apply operation).impls sub).connected = false := by
  have hset : ∀ (sub' : ℕ) (impl : SubscriptionImpl),
      (impl.connected = true → (s.impls sub').connected = true) →
      ((s.set sub' impl).impls sub).connected = false := by
    intro sub' impl himpl
    by_cases hne : sub = sub'
    · subst hne
      rw [impls_set_self]
      exact Bool.eq_false_iff.mpr fun hup => absurd (himpl hup) (by simp [hdown])
    · rw [impls_set_of_ne s impl hne, hdown]
  cases operation with
  | retrySubscriptions => exact absurd rfl hother
  | publish transport id exist => exact hdown
  | ended sub' =>
      refine hset sub' _ ?_
      unfold SubscriptionImpl.ended
      split
      · exact fun hup => hup
      · split
        · simp
        · exact fun hup => hup
  | runScheduled =>
      simp only [IPC.apply, runScheduled]
      split
      case h_1 => exact hdown
      case h_2 sub' scheduled _ => exact hset sub' (s.impls sub').start fun hup => hup
  | sigint =>
      simp only [IPC.apply, sigintHandler]
      split
      case isFalse => exact hdown
      case isTrue =>
        unfold SubscriptionImpl.cancel
        split
        · split
          · rfl
          · exact hdown
        · exact hdown
  | subscribeOnPackets id' options =>
      simp only [IPC.apply, IPC.subscribeOnPackets]
      split
      case h_1 sub' _ => exact hset sub' (s.impls sub').subscribe fun hup => hup
      case h_2 =>
        have hne : sub ≠ s.next := (h.made id sub hfind).ne
        show (Function.update s.impls s.next _ sub).connected = false
        rw [Function.update_of_ne hne, hdown]

/-! ## Histories -/

/-- Somebody has asked for retries of the id. -/
def Asked (operations : List Operation) (id : String) : Prop :=
  ∃ options, .subscribeOnPackets id options ∈ operations ∧ options.retry = true

/-- Somebody has subscribed to the id since the last SIGINT. -/
def Subscribed (operations : List Operation) (id : String) : Prop :=
  ∃ before options after, operations = before ++ .subscribeOnPackets id options :: after ∧
    .sigint ∉ after

/-- Who is the first to ask for retries of an id is also the first to subscribe to it. -/
def Heard (operations : List Operation) : Prop :=
  ∀ before id options after, operations = before ++ .subscribeOnPackets id options :: after →
    options.retry = true → ¬ Asked before id → ¬ Subscribed before id

/-- What has been asked for is done in this state, and nothing else. -/
structure Kept (operations : List Operation) (s : IPC) : Prop where
  queued : ∀ id, Asked operations id → id ∈ s.retryVector_
  retried : ∀ id sub, Asked operations id → s.find id = some sub →
    (s.impls sub).connected = false →
    (∃ attempt ∈ s.retrySubscriptions.1, attempt.id = id) ∧
      (s.published (s.impls sub).transport id = true →
        (s.retrySubscriptions.2.impls sub).connected = true ∧
          (s.retrySubscriptions.2.impls sub).listening = true)
  unasked : ∀ id, ¬ Asked operations id → ∀ attempt ∈ s.retrySubscriptions.1, attempt.id ≠ id
  never : ∀ id sub operation, ¬ Asked operations id → s.find id = some sub →
    (s.impls sub).connected = false → ((s.apply operation).impls sub).connected = false

lemma asked_snoc {operations : List Operation} {operation : Operation} :
    Asked (operations ++ [operation]) id ↔
      Asked operations id ∨ ∃ options, operation = .subscribeOnPackets id options ∧
        options.retry = true := by
  simp only [Asked, List.mem_append, List.mem_singleton, or_and_right, exists_or, eq_comm]

lemma subscribed_snoc {operations : List Operation} {operation : Operation} :
    Subscribed (operations ++ [operation]) id ↔
      (∃ options, operation = .subscribeOnPackets id options) ∨
        operation ≠ .sigint ∧ Subscribed operations id := by
  constructor
  · rintro ⟨before, options, after, hoperations, hsigint⟩
    rcases List.eq_nil_or_concat' after with rfl | ⟨after, last, rfl⟩
    · exact Or.inl ⟨options, List.singleton_inj.mp (List.append_inj' hoperations rfl).2⟩
    · rw [← List.cons_append, ← List.append_assoc] at hoperations
      obtain ⟨rfl, hlast⟩ := List.append_inj' hoperations rfl
      obtain rfl := List.singleton_inj.mp hlast
      refine Or.inr ⟨?_, before, options, after, rfl, ?_⟩
      · rintro rfl
        exact hsigint (List.mem_append_right _ (List.mem_singleton_self _))
      · exact fun hmem => hsigint (List.mem_append_left _ hmem)
  · rintro (⟨options, rfl⟩ | ⟨hother, before, options, after, rfl, hsigint⟩)
    · exact ⟨operations, options, [], rfl, List.not_mem_nil⟩
    · refine ⟨before, options, after ++ [operation], by simp, ?_⟩
      rw [List.mem_append, List.mem_singleton, not_or]
      exact ⟨hsigint, hother.symm⟩

lemma Heard.init {operations after : List Operation} (h : Heard (operations ++ after)) :
    Heard operations := by
  intro before id options rest hoperations
  exact h before id options (rest ++ after) (by rw [hoperations]; simp)

/-- What a state knows of its history. -/
structure Remembers (operations : List Operation) (s : IPC) : Prop where
  valid : s.Valid
  subscribed : ∀ id, (s.find id).isSome ↔ Subscribed operations id
  asked : ∀ id ∈ s.retryVector_, Asked operations id

lemma subscribed_apply (h : ∀ id, (s.find id).isSome ↔ Subscribed operations id)
    (operation : Operation) (id : String) :
    ((s.apply operation).find id).isSome ↔ Subscribed (operations ++ [operation]) id := by
  rw [subscribed_snoc, ← h]
  cases operation with
  | subscribeOnPackets id' options =>
      rw [IPC.apply, find_subscribeOnPackets]
      by_cases hid : id = id'
      · simp [hid]
      · simp [hid, Ne.symm hid]
  | retrySubscriptions =>
      have hsame := (s.retryAll_keeps s.retryVector_).1
      simp [IPC.apply, retrySubscriptions, find, hsame]
  | publish transport id' exist => simp [IPC.apply, find]
  | ended sub => simp [IPC.apply]
  | runScheduled =>
      simp only [IPC.apply, runScheduled]
      split
      · simp
      · simp [find, set]
  | sigint => simp [IPC.apply, sigintHandler, find]

/-- Only a call that makes a subscription, and asks for retries, puts the id into the list. -/
lemma mem_retryVector_apply (operation : Operation) :
    id ∈ (s.apply operation).retryVector_ ↔ id ∈ s.retryVector_ ∨
      s.find id = none ∧ ∃ options, operation = .subscribeOnPackets id options ∧
        options.retry = true := by
  cases operation with
  | subscribeOnPackets id' options =>
      simp only [IPC.apply, IPC.subscribeOnPackets]
      split
      case h_1 sub hfind =>
        refine ⟨Or.inl, fun h => h.resolve_right ?_⟩
        rintro ⟨hnone, options', hsame, -⟩
        obtain ⟨rfl, -⟩ := Operation.subscribeOnPackets.inj hsame
        simp [hfind] at hnone
      case h_2 hnone =>
        cases hretry : options.retry with
        | true =>
            by_cases hid : id = id'
            · simp [hid, hnone, hretry]
            · simp [hid, Ne.symm hid]
        | false => simp [hretry]
  | retrySubscriptions =>
      have hsame := (s.retryAll_keeps s.retryVector_).2.1
      simp [IPC.apply, retrySubscriptions, hsame]
  | publish transport id' exist => simp [IPC.apply]
  | ended sub => simp [IPC.apply, set]
  | runScheduled =>
      simp only [IPC.apply, runScheduled]
      split <;> simp [set]
  | sigint => simp [IPC.apply, sigintHandler]

section History

variable (useRedis scheduler : Bool) (published : Published) (operations : List Operation)

theorem remembers :
    Remembers operations ((initial useRedis scheduler published).after operations) := by
  induction operations using List.reverseRecOn with
  | nil =>
      refine ⟨Valid.initial _ _ _, fun id => ?_, fun id hmem => ?_⟩
      · simp [find, initial, Subscribed]
      · simp [initial] at hmem
  | append_singleton operations operation ih =>
      rw [after_snoc]
      refine ⟨ih.valid.apply operation, subscribed_apply ih.subscribed operation, fun id hmem => ?_⟩
      rw [asked_snoc]
      exact (mem_retryVector_apply operation |>.mp hmem).imp (ih.asked id) And.right

lemma Heard.queued (h : Heard operations) (hasked : Asked operations id) :
    id ∈ ((initial useRedis scheduler published).after operations).retryVector_ := by
  induction operations using List.reverseRecOn with
  | nil => obtain ⟨options, hmem, -⟩ := hasked; exact absurd hmem List.not_mem_nil
  | append_singleton operations operation ih =>
      rw [after_snoc, mem_retryVector_apply]
      by_cases hbefore : Asked operations id
      · exact Or.inl (ih h.init hbefore)
      · obtain ⟨options, rfl, hretry⟩ := (asked_snoc.mp hasked).resolve_left hbefore
        refine Or.inr ⟨?_, options, rfl, hretry⟩
        have hfirst := h operations id options [] rfl hretry hbefore
        rwa [← (remembers useRedis scheduler published operations).subscribed,
          Option.not_isSome_iff_eq_none] at hfirst

lemma Heard.kept (h : Heard operations) :
    Kept operations ((initial useRedis scheduler published).after operations) := by
  obtain ⟨hvalid, -, hasked⟩ := remembers useRedis scheduler published operations
  have hqueued : ∀ id, Asked operations id →
      id ∈ ((initial useRedis scheduler published).after operations).retryVector_ :=
    fun _ => h.queued useRedis scheduler published operations
  refine ⟨hqueued, ?_, ?_, ?_⟩
  · intro id sub hasked hfind hdown
    exact hvalid.retryAll_attempted (hqueued id hasked) hfind hdown
  · rintro id hunasked attempt hmem rfl
    exact hunasked (hasked _ (retryAll_attempts hmem))
  · intro id sub operation hunasked hfind hdown
    by_cases hretry : operation = .retrySubscriptions
    · subst hretry
      have hleft := hvalid.retryAll_left hfind (Or.inr fun hmem => hunasked (hasked id hmem))
      exact (congrArg SubscriptionImpl.connected hleft).trans hdown
    · exact hvalid.connected hfind hretry hdown

/-- **Retries.**  Throughout a history what has been asked for is done, and nothing else, exactly if
who is the first to ask for retries of an id is also the first to subscribe to it. -/
theorem kept_iff_heard :
    (∀ before after, operations = before ++ after →
      Kept before ((initial useRedis scheduler published).after before)) ↔ Heard operations := by
  constructor
  · intro hkept before id options after hoperations hretry hunasked hsubscribed
    obtain ⟨-, hfind, hasked⟩ := remembers useRedis scheduler published before
    have hqueued := (hkept (before ++ [.subscribeOnPackets id options]) after
      (by simpa using hoperations)).queued id (asked_snoc.mpr (Or.inr ⟨options, rfl, hretry⟩))
    rw [after_snoc, mem_retryVector_apply] at hqueued
    rcases hqueued with hold | ⟨hnone, -⟩
    · exact hunasked (hasked id hold)
    · rw [← hfind, hnone] at hsubscribed
      exact absurd hsubscribed (by simp)
  · rintro h before after rfl
    exact h.init.kept useRedis scheduler published before

end History

/-- The second subscriber asks for retries; there is no publisher yet. -/
theorem retry_dropped : ¬ ∀ (operations : List Operation) (id : String), Asked operations id →
    id ∈ ((initial false true fun _ _ => false).after operations).retryVector_ := by
  intro hqueued
  have hmem := hqueued [.subscribeOnPackets "a" {}, .subscribeOnPackets "a" { retry := true }] "a"
    ⟨{ retry := true }, by simp, rfl⟩
  exact absurd hmem (by decide)

end CpsCore.IPC

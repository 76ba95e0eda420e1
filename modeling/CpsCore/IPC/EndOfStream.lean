import Mathlib
import CpsCore.IPC.PacketOrder

/-!
# The end of a message-queue stream

The destructor of the publisher sends a packet like any other, and the listener stops when it
receives one like it.  That tells the end of the stream as long as the user does not send the
packet (`Channel.Clear`) and the destructor can.

* `Channel.EndOfStream`: what it means to tell the end.
* `Channel.Sound`: what clear steps keep, and what makes the end told.
* `end_of_stream_while_clear`: the first step that is not clear is where that ends.
-/

namespace CpsCore.MessageQueue

/-! ## Told -/

@[simp] def ListenerPc.running : ListenerPc → Bool
  | .check | .receive | .received _ => true
  | _ => false

def Listener.Runs (l : Listener) : Prop := l.pc.running = true ∧ l.listenerCanceled_ = false

structure Channel.EndOfStream (c : Sizes) (s : Channel) : Prop where
  /-- The listener does not stop by itself before the publisher is destroyed. -/
  stops : s.listener.pc = .ended ∨ s.listener.pc = .terminated → s.publisher ≠ .alive
  /-- The destructor leaves the marker behind everything that has been published. -/
  marks : s.publisher ≠ .alive → s.published ++ [ending] = s.listener.handled ++ s.inTransit
  /-- A listener that has the marker before it comes to its end, and cannot do otherwise. -/
  ends : s.listener.Runs → ending ∈ s.inTransit → ∃ bound, ∀ k s',
    Transition.Run (Channel.Step c) s (List.replicate k .listener) s' →
    k ≤ bound ∧ (s'.listener.pc = .ended ∨ ∃ s'', Channel.Step c s' .listener s'')

/-- A step after which the marker still means the end. -/
def Channel.Clear (c : Sizes) (s : Channel) : Action → Prop
  | .publish packet => packet = ending →
      c.elementSize < ending.getSize ∨ c.numOfMessages ≤ s.queue.length
  | .destroy => ending.getSize ≤ c.elementSize ∧ s.queue.length < c.numOfMessages
  | _ => True

instance (c : Sizes) (s : Channel) : (action : Action) → Decidable (s.Clear c action)
  | .publish packet => inferInstanceAs (Decidable (packet = ending →
      c.elementSize < ending.getSize ∨ c.numOfMessages ≤ s.queue.length))
  | .destroy => inferInstanceAs (Decidable (_ ∧ _))
  | .remove | .listener | .caller => inferInstanceAs (Decidable True)

lemma publish_eq_true_iff {c : Sizes} {packet : Packet} {queue : List Packet} :
    (publish c packet queue).1 = true ↔
      packet.getSize ≤ c.elementSize ∧ queue.length < c.numOfMessages := by
  unfold publish
  split
  · simpa using fun hle => absurd hle (by omega)
  · split <;> simp <;> omega

/-! ## To the marker -/

/-- How far a listener is from the next packet. -/
@[simp] def ListenerPc.weight : ListenerPc → ℕ
  | .check => 2
  | .receive => 1
  | .received _ => 3
  | _ => 0

/-- A listener that runs towards the marker, and gets nearer. -/
lemma ListenerStep.nearer {c : Sizes} {queue queue' : List Packet} {l l' : Listener}
    (hstep : ListenerStep c queue l queue' l') (hsize : c.elementSize ≤ c.maxPacketSize_)
    (hruns : l.Runs) (hmarker : ending ∈ l.pc.inHand ++ queue) :
    (l'.pc = .ended ∨ l'.Runs ∧ ending ∈ l'.pc.inHand ++ queue') ∧
      3 * queue'.length + l'.pc.weight < 3 * queue.length + l.pc.weight := by
  obtain ⟨hrunning, hcanceled⟩ := hruns
  cases hstep with
  | canceled _ hcancel => exact absurd hcancel (by simp [hcanceled])
  | proceed hpc _ => exact ⟨Or.inr ⟨⟨rfl, hcanceled⟩, by simpa [hpc] using hmarker⟩, by simp [hpc]⟩
  | tooSmall _ hsmall => omega
  | timeout hpc _ => simp [hpc] at hmarker
  | receive hpc _ =>
      refine ⟨Or.inr ⟨⟨rfl, hcanceled⟩, by simpa [hpc] using hmarker⟩, ?_⟩
      simp only [hpc, List.length_cons, ListenerPc.weight]
      omega
  | stop hpc => exact ⟨Or.inl rfl, by simp [hpc]⟩
  | deliver hpc hdata =>
      refine ⟨Or.inr ⟨⟨rfl, hcanceled⟩, ?_⟩, by simp [hpc]⟩
      simpa [hpc, hdata.symm] using hmarker

lemma ListenerStep.not_ended {c : Sizes} {queue queue' : List Packet} {l l' : Listener}
    (hstep : ListenerStep c queue l queue' l') : l.pc ≠ .ended := by
  cases hstep <;> simp_all

/-- It can always go on. -/
lemma Listener.Runs.goes_on {c : Sizes} {queue : List Packet} {l : Listener} (h : l.Runs)
    (hsize : c.elementSize ≤ c.maxPacketSize_) (hmarker : ending ∈ l.pc.inHand ++ queue) :
    ∃ queue' l', ListenerStep c queue l queue' l' := by
  obtain ⟨hrunning, hcanceled⟩ := h
  cases hpc : l.pc with
  | check => exact ⟨_, _, .proceed hpc hcanceled⟩
  | receive =>
      cases queue with
      | nil => simp [hpc] at hmarker
      | cons packet queue => exact ⟨_, _, .receive hpc hsize⟩
  | received packet =>
      by_cases hpacket : packet = ending
      · exact ⟨queue, _, .stop (hpacket ▸ hpc)⟩
      · exact ⟨queue, _, .deliver hpc hpacket⟩
  | stopped => simp [hpc] at hrunning
  | ended => simp [hpc] at hrunning
  | terminated => simp [hpc] at hrunning

/-- **The end is reached**: a listener that runs and has the marker before it handles what comes
before the marker, and stops. -/
theorem Listener.Runs.ends {c : Sizes} {s : Channel} (h : s.listener.Runs)
    (hsize : c.elementSize ≤ c.maxPacketSize_) (hmarker : ending ∈ s.inTransit) :
    ∃ bound, ∀ k s', Transition.Run (Channel.Step c) s (List.replicate k .listener) s' →
      k ≤ bound ∧ (s'.listener.pc = .ended ∨ ∃ s'', Channel.Step c s' .listener s'') := by
  have hnearer : ∀ s action s', action = Action.listener →
      (s.listener.pc = .ended ∨ s.listener.Runs ∧ ending ∈ s.inTransit) →
      Channel.Step c s action s' →
      (s'.listener.pc = .ended ∨ s'.listener.Runs ∧ ending ∈ s'.inTransit) ∧
        3 * s'.queue.length + s'.listener.pc.weight < 3 * s.queue.length + s.listener.pc.weight := by
    rintro s _ s' rfl hcloser hstep
    cases hstep with
    | listener hlistener =>
        rcases hcloser with hended | ⟨hruns, hmarker⟩
        · exact absurd hended hlistener.not_ended
        · exact hlistener.nearer hsize hruns hmarker
  refine ⟨3 * s.queue.length + s.listener.pc.weight, fun k s' hrun => ?_⟩
  obtain ⟨hcloser, hle⟩ := hrun.bounded (fun _ he => List.eq_of_mem_replicate he)
    (Or.inr ⟨h, hmarker⟩) hnearer
  rw [List.length_replicate] at hle
  refine ⟨by omega, hcloser.imp_right ?_⟩
  rintro ⟨hruns, hmarker⟩
  obtain ⟨queue, l, hlistener⟩ := hruns.goes_on hsize hmarker
  exact ⟨_, .listener hlistener⟩

/-! ## As long as the steps are clear -/

structure Channel.Sound (s : Channel) : Prop where
  inv : s.Inv
  user : ending ∉ s.published
  marked : s.publisher ≠ .alive → s.marked = true
  ended : s.listener.pc = .ended → ending ∈ s.listener.handled
  runs : s.listener.pc ≠ .terminated

lemma Channel.Sound.initial : Channel.Sound {} :=
  ⟨Channel.Inv.initial, by simp, by simp, by simp, by simp⟩

lemma ListenerStep.ended {c : Sizes} {queue queue' : List Packet} {l l' : Listener}
    (hstep : ListenerStep c queue l queue' l') (hsize : c.elementSize ≤ c.maxPacketSize_) :
    (l'.pc = .ended → ending ∈ l'.handled) ∧ l'.pc ≠ .terminated := by
  cases hstep with
  | tooSmall _ hsmall => omega
  | _ => simp

lemma CallerStep.ended {publisher : PublisherPc} {l l' : Listener}
    (hstep : CallerStep publisher l l') : l'.pc = l.pc ∨ l'.pc = .check := by
  cases hstep with
  | cancel => exact Or.inl rfl
  | connect _ _ => exact Or.inl rfl
  | start _ _ => exact Or.inr rfl

theorem Channel.Sound.step {c : Sizes} {s s' : Channel} {action : Action} (h : s.Sound)
    (hsize : c.elementSize ≤ c.maxPacketSize_) (hstep : Channel.Step c s action s')
    (hclear : s.Clear c action) : s'.Sound := by
  have hinv := h.inv.step hstep
  cases hstep with
  | @publish packet _ =>
      refine ⟨hinv, ?_, h.marked, h.ended, h.runs⟩
      show ending ∉ s.published ++ if (MessageQueue.publish c packet s.queue).1 then [packet] else []
      intro hmem
      rcases List.mem_append.mp hmem with hmem | hmem
      · exact h.user hmem
      · split at hmem
        case isTrue hsent =>
          obtain rfl : ending = packet := by simpa using hmem
          obtain ⟨hfits, hspace⟩ := publish_eq_true_iff.mp hsent
          rcases hclear rfl with hlarge | hfull
          · omega
          · omega
        case isFalse => exact absurd hmem (List.not_mem_nil)
  | destroy _ => exact ⟨hinv, h.user, fun _ => publish_eq_true_iff.mpr hclear, h.ended, h.runs⟩
  | remove hdestroying =>
      exact ⟨hinv, h.user, fun _ => h.marked (by simp [hdestroying]), h.ended, h.runs⟩
  | listener hlistener =>
      obtain ⟨hended, hruns⟩ := hlistener.ended hsize
      exact ⟨hinv, h.user, h.marked, hended, hruns⟩
  | caller hcaller =>
      have hpc := hcaller.ended
      obtain ⟨hhandled, -, -⟩ := hcaller.keeps
      refine ⟨hinv, h.user, h.marked, ?_, ?_⟩
      · rcases hpc with hpc | hpc
        · rw [hhandled, hpc]
          exact h.ended
        · simp [hpc]
      · rcases hpc with hpc | hpc
        · rw [hpc]
          exact h.runs
        · simp [hpc]

/-- The marker is the destructor's. -/
lemma Channel.Sound.marked_of_mem {s : Channel} (h : s.Sound) (hmem : ending ∈ s.sent) :
    s.publisher ≠ .alive := by
  intro halive
  rw [Channel.sent, h.inv.unmarked halive] at hmem
  exact h.user (by simpa using hmem)

theorem Channel.Sound.endOfStream {c : Sizes} {s : Channel} (h : s.Sound)
    (hsize : c.elementSize ≤ c.maxPacketSize_) : s.EndOfStream c where
  stops hpc := by
    rcases hpc with hpc | hpc
    · refine h.marked_of_mem ?_
      rw [h.inv.sent]
      exact List.mem_append_left _ (h.ended hpc)
    · exact absurd hpc h.runs
  marks hdestroyed := by
    rw [← h.inv.sent, Channel.sent, h.marked hdestroyed]
    rfl
  ends hruns hmarker := hruns.ends hsize hmarker

/-! ## And no longer -/

/-- How far a subscription, running or not, is from the next packet. -/
def Listener.distance (l : Listener) : ℕ :=
  (match l.pc with
    | .stopped => 3
    | pc => pc.weight + if l.listenerCanceled_ then 5 else 0) + if l.connected then 0 else 1

/-- A user's marker on its way to a listener. -/
structure Channel.Misled (s : Channel) : Prop where
  alive : s.publisher = .alive
  marker : ending ∈ s.inTransit
  pc : s.listener.pc ≠ .ended ∧ s.listener.pc ≠ .terminated

/-- The marker can get there. -/
lemma Channel.Misled.nearer {c : Sizes} {s : Channel} (h : s.Misled)
    (hsize : c.elementSize ≤ c.maxPacketSize_) : ∃ action s', Channel.Step c s action s' ∧
      ((s'.listener.pc = .ended ∧ s'.publisher = .alive) ∨ s'.Misled ∧
        3 * s'.queue.length + s'.listener.distance < 3 * s.queue.length + s.listener.distance) := by
  obtain ⟨queue, publisher, ⟨pc, canceled, connected, delivered, handled⟩, published, marked⟩ := s
  obtain ⟨rfl, hmarker, hended, hterminated⟩ := h
  cases pc with
  | stopped =>
      cases connected with
      | false =>
          refine ⟨_, _, .caller (.connect rfl (by simp)), Or.inr ⟨⟨rfl, hmarker, by simp⟩, ?_⟩⟩
          simp [Listener.distance]
      | true =>
          refine ⟨_, _, .caller (.start (Or.inl rfl) rfl), Or.inr ⟨⟨rfl, hmarker, by simp⟩, ?_⟩⟩
          simp [Listener.distance]
  | check =>
      cases canceled with
      | true =>
          refine ⟨_, _, .listener (.canceled rfl rfl), Or.inr ⟨⟨rfl, hmarker, by simp⟩, ?_⟩⟩
          simp [Listener.distance]
      | false =>
          refine ⟨_, _, .listener (.proceed rfl rfl), Or.inr ⟨⟨rfl, hmarker, by simp⟩, ?_⟩⟩
          simp [Listener.distance]
  | receive =>
      cases queue with
      | nil => exact absurd hmarker (List.not_mem_nil)
      | cons packet queue =>
          refine ⟨_, _, .listener (.receive rfl hsize), Or.inr ⟨⟨rfl, hmarker, by simp⟩, ?_⟩⟩
          simp only [Listener.distance, ListenerPc.weight, List.length_cons]
          omega
  | received packet =>
      by_cases hpacket : packet = ending
      · subst hpacket
        exact ⟨_, _, .listener (.stop rfl), Or.inl ⟨rfl, rfl⟩⟩
      · refine ⟨_, _, .listener (.deliver rfl hpacket), Or.inr ⟨⟨rfl, ?_, by simp⟩, ?_⟩⟩
        · simpa [Channel.inTransit, Ne.symm hpacket] using hmarker
        · simp [Listener.distance]
  | ended => exact absurd rfl hended
  | terminated => exact absurd rfl hterminated

/-- A listener that stops too early. -/
lemma Channel.Misled.breaks {c : Sizes} {s : Channel} (h : s.Misled)
    (hsize : c.elementSize ≤ c.maxPacketSize_) :
    ∃ actions s', Transition.Run (Channel.Step c) s actions s' ∧ ¬ s'.EndOfStream c := by
  obtain ⟨actions, s', hrun, hended, halive⟩ := Transition.exists_run h fun _ h => h.nearer hsize
  exact ⟨actions, s', hrun, fun htold => htold.stops (Or.inl hended) halive⟩

/-- **A step that is not clear** can be the end of the end. -/
theorem Channel.Sound.breaks {c : Sizes} {s s' : Channel} {action : Action} (h : s.Sound)
    (hsize : c.elementSize ≤ c.maxPacketSize_) (hstep : Channel.Step c s action s')
    (hunclear : ¬ s.Clear c action) :
    ∃ actions s'', Transition.Run (Channel.Step c) s' actions s'' ∧ ¬ s''.EndOfStream c := by
  cases hstep with
  | @publish packet halive =>
      simp only [Channel.Clear, Classical.not_imp, not_or, not_lt, not_le] at hunclear
      obtain ⟨rfl, hsent⟩ := hunclear
      refine Channel.Misled.breaks (c := c) ⟨halive, ?_, ?_, h.runs⟩ hsize
      · have hqueue := publish_queue c ending s.queue
        rw [publish_eq_true_iff.mpr hsent] at hqueue
        simp [Channel.inTransit, Channel.publish, hqueue]
      · intro hended
        refine h.marked_of_mem ?_ halive
        rw [h.inv.sent]
        exact List.mem_append_left _ (h.ended hended)
  | destroy halive =>
      refine ⟨[], _, Transition.Run.nil, fun htold => ?_⟩
      have hunsent : (MessageQueue.publish c ending s.queue).1 = false :=
        Bool.eq_false_iff.mpr fun hsent => hunclear (publish_eq_true_iff.mp hsent)
      have hmarks := htold.marks (by simp [Channel.destroy])
      have hsent := (h.inv.step (.destroy halive : Channel.Step c s _ _)).sent
      rw [← hsent] at hmarks
      simp [Channel.sent, Channel.destroy, hunsent] at hmarks
  | remove _ => exact absurd trivial hunclear
  | listener _ => exact absurd trivial hunclear
  | caller _ => exact absurd trivial hunclear

/-- A listener with a buffer that is too small does not live to see the end. -/
lemma Channel.tooSmall_breaks {c : Sizes} (hsmall : c.maxPacketSize_ < c.elementSize) :
    ∃ actions s, Transition.Run (Channel.Step c) {} actions s ∧ ¬ s.EndOfStream c := by
  have hrun : Transition.Run (Channel.Step c) {} [.caller, .caller, .listener, .listener]
      ⟨[], .alive, ⟨.terminated, false, true, [], []⟩, [], false⟩ :=
    (((Transition.Run.nil.snoc (.caller (.connect rfl (by decide)))).snoc
      (.caller (.start (Or.inl rfl) rfl))).snoc (.listener (.proceed rfl rfl))).snoc
      (.listener (.tooSmall rfl hsmall))
  exact ⟨_, _, hrun, fun htold => htold.stops (Or.inr rfl) rfl⟩

/-- **The end of the stream** is told in every state of every run of clear steps, if the listener
can receive at all; and every other step can be continued to a state where it is not. -/
theorem end_of_stream_while_clear (c : Sizes) {actions : List Action} {s : Channel}
    (hrun : Transition.Run (fun s action s' => Channel.Step c s action s' ∧ s.Clear c action) {}
      actions s) :
    (c.elementSize ≤ c.maxPacketSize_ → s.EndOfStream c ∧
      ∀ action s', Channel.Step c s action s' → ¬ s.Clear c action → ∃ actions' s'',
        Transition.Run (Channel.Step c) s' actions' s'' ∧ ¬ s''.EndOfStream c) ∧
    (c.maxPacketSize_ < c.elementSize → ∃ actions' s',
      Transition.Run (Channel.Step c) {} actions' s' ∧ ¬ s'.EndOfStream c) := by
  refine ⟨fun hsize => ?_, Channel.tooSmall_breaks⟩
  have hsound : s.Sound := hrun.invariant Channel.Sound.initial
    fun _ _ _ h hstep => h.step hsize hstep.1 hstep.2
  exact ⟨hsound.endOfStream hsize, fun _ _ hstep => hsound.breaks hsize hstep⟩

/-- A packet, the destructor, and a listener that comes to its end. -/
theorem end_of_stream_byte : ∃ actions s,
    Transition.Run (fun s action s' => Channel.Step ⟨2, 6, 6⟩ s action s' ∧
      s.Clear ⟨2, 6, 6⟩ action) {} actions s ∧
    s.listener.pc = .ended ∧ s.EndOfStream ⟨2, 6, 6⟩ := by
  have hsend : Transition.Run (fun s action s' => Channel.Step ⟨2, 6, 6⟩ s action s' ∧
      s.Clear ⟨2, 6, 6⟩ action) {} [.caller, .caller, .publish ⟨[7]⟩, .destroy]
      ⟨[⟨[7]⟩, ending], .destroying, ⟨.check, false, true, [], []⟩, [⟨[7]⟩], true⟩ :=
    (((Transition.Run.nil.snoc ⟨.caller (.connect rfl (by decide)), trivial⟩).snoc
      ⟨.caller (.start (Or.inl rfl) rfl), trivial⟩).snoc
      ⟨.publish rfl, fun heq => absurd heq (by decide)⟩).snoc ⟨.destroy rfl, by decide⟩
  have hreceive : Transition.Run (fun s action s' => Channel.Step ⟨2, 6, 6⟩ s action s' ∧
      s.Clear ⟨2, 6, 6⟩ action)
      ⟨[⟨[7]⟩, ending], .destroying, ⟨.check, false, true, [], []⟩, [⟨[7]⟩], true⟩
      (List.replicate 6 .listener)
      ⟨[], .destroying, ⟨.ended, true, false, [⟨[7, 0x20]⟩], [⟨[7]⟩, ending]⟩, [⟨[7]⟩], true⟩ :=
    (((((Transition.Run.nil.snoc ⟨.listener (.proceed rfl rfl), trivial⟩).snoc
      ⟨.listener (.receive rfl (by decide)), trivial⟩).snoc
      ⟨.listener (@ListenerStep.deliver _ _ _ ⟨[7]⟩ rfl (by decide)), trivial⟩).snoc
      ⟨.listener (.proceed rfl rfl), trivial⟩).snoc
      ⟨.listener (.receive rfl (by decide)), trivial⟩).snoc ⟨.listener (.stop rfl), trivial⟩
  have hrun := hsend.trans hreceive
  exact ⟨_, _, hrun, rfl, ((end_of_stream_while_clear _ hrun).1 (by decide)).1⟩

/-- A user's packet that stops the listener of a publisher that is alive. -/
theorem end_of_stream_fails : ¬ ∀ (c : Sizes) (actions : List Action) (s : Channel),
    Transition.Run (Channel.Step c) {} actions s → s.EndOfStream c := by
  intro htold
  have hrun : Transition.Run (Channel.Step ⟨1, 6, 6⟩) {}
      [.caller, .caller, .publish ending, .listener, .listener, .listener]
      ⟨[], .alive, ⟨.ended, true, false, [], [ending]⟩, [ending], false⟩ :=
    (((((Transition.Run.nil.snoc (.caller (.connect rfl (by decide)))).snoc
      (.caller (.start (Or.inl rfl) rfl))).snoc (.publish rfl)).snoc
      (.listener (.proceed rfl rfl))).snoc (.listener (.receive rfl (by decide)))).snoc
      (.listener (.stop rfl))
  exact (htold _ _ _ hrun).stops (Or.inl rfl) rfl

end CpsCore.MessageQueue

import Mathlib
import CpsCore.IPC.MessageQueue

/-!
# What a message-queue listener delivers

Nothing gets lost between publisher and listener (`Channel.Inv`), but no packet arrives as it was
sent: `handOver` adds a byte.
-/

namespace CpsCore.MessageQueue

/-! ## In transit -/

/-- The packet the listener has received and not handled. -/
@[simp] def ListenerPc.inHand : ListenerPc → List Packet
  | .received packet => [packet]
  | _ => []

/-- The packets sent, the end marker included. -/
def Channel.sent (s : Channel) : List Packet := s.published ++ if s.marked then [ending] else []

/-- The packets sent and not handled. -/
def Channel.inTransit (s : Channel) : List Packet := s.listener.pc.inHand ++ s.queue

structure Channel.Inv (s : Channel) : Prop where
  sent : s.sent = s.listener.handled ++ s.inTransit
  delivered : s.listener.delivered = (s.listener.handled.filter (· ≠ ending)).map handOver
  unmarked : s.publisher = .alive → s.marked = false

lemma Channel.Inv.initial : Channel.Inv {} := ⟨rfl, rfl, fun _ => rfl⟩

/-- The listener takes packets from the front, one at a time. -/
lemma ListenerStep.handles {c : Sizes} {queue queue' : List Packet} {l l' : Listener}
    (hstep : ListenerStep c queue l queue' l') :
    l.handled ++ (l.pc.inHand ++ queue) = l'.handled ++ (l'.pc.inHand ++ queue') := by
  cases hstep <;> simp_all

lemma ListenerStep.delivers {c : Sizes} {queue queue' : List Packet} {l l' : Listener}
    (hstep : ListenerStep c queue l queue' l')
    (h : l.delivered = (l.handled.filter (· ≠ ending)).map handOver) :
    l'.delivered = (l'.handled.filter (· ≠ ending)).map handOver := by
  cases hstep <;> simp_all

/-- Nobody else takes packets, and what a caller changes is who is running. -/
lemma CallerStep.keeps {publisher : PublisherPc} {l l' : Listener}
    (hstep : CallerStep publisher l l') :
    l'.handled = l.handled ∧ l'.delivered = l.delivered ∧ l'.pc.inHand = l.pc.inHand := by
  cases hstep with
  | cancel => exact ⟨rfl, rfl, rfl⟩
  | connect _ _ => exact ⟨rfl, rfl, rfl⟩
  | start hpc _ => rcases hpc with hpc | hpc <;> simp [hpc]

/-- What was sent is in the queue. -/
lemma publish_queue (c : Sizes) (packet : Packet) (queue : List Packet) :
    (publish c packet queue).2 = queue ++ if (publish c packet queue).1 then [packet] else [] := by
  unfold publish
  split
  · simp
  · split <;> simp

theorem Channel.Inv.step {c : Sizes} {s s' : Channel} {action : Action} (h : s.Inv)
    (hstep : Channel.Step c s action s') : s'.Inv := by
  cases hstep with
  | @publish packet halive =>
      have hunmarked := h.unmarked halive
      have hsent := h.sent
      refine ⟨?_, h.delivered, h.unmarked⟩
      simp only [Channel.sent, Channel.inTransit, hunmarked, Bool.false_eq_true, if_false,
        List.append_nil] at hsent
      simp only [Channel.sent, Channel.inTransit, Channel.publish, publish_queue, hunmarked,
        Bool.false_eq_true, if_false, List.append_nil, hsent, List.append_assoc]
  | destroy halive =>
      have hunmarked := h.unmarked halive
      have hsent := h.sent
      refine ⟨?_, h.delivered, by simp [Channel.destroy]⟩
      simp only [Channel.sent, Channel.inTransit, hunmarked, Bool.false_eq_true, if_false,
        List.append_nil] at hsent
      simp only [Channel.sent, Channel.inTransit, Channel.destroy, publish_queue, hsent,
        List.append_assoc]
  | remove _ => exact ⟨h.sent, h.delivered, by simp⟩
  | listener hlistener =>
      exact ⟨h.sent.trans hlistener.handles, hlistener.delivers h.delivered, h.unmarked⟩
  | caller hcaller =>
      obtain ⟨hhandled, hdelivered, hinHand⟩ := hcaller.keeps
      refine ⟨?_, ?_, h.unmarked⟩
      · rw [Channel.inTransit, hhandled, hinHand]
        exact h.sent
      · rw [hhandled, hdelivered]
        exact h.delivered

/-! ## In order, and longer by a byte -/

lemma handOver_ne_self (packet : Packet) : handOver packet ≠ packet := by
  intro h
  have hlength := congrArg (fun p => p.buffer_.length) h
  simp [handOver] at hlength

lemma handOver_ne_ending (packet : Packet) : handOver packet ≠ ending := by
  intro h
  have hlast := congrArg (fun p => p.buffer_.getLast?) h
  simp [handOver, ending] at hlast

/-- **A byte too many**: what has been delivered is what has been received, in order, without the
end markers and each with a byte more; so it is what was published only as long as nothing but
end markers has been received. -/
theorem message_queue_fifo_iff (c : Sizes) {actions : List Action} {s : Channel}
    (hrun : Transition.Run (Channel.Step c) {} actions s) :
    s.listener.handled <+: s.sent ∧
    s.listener.delivered = (s.listener.handled.filter (· ≠ ending)).map handOver ∧
    (s.listener.delivered <+: s.published ↔ ∀ packet ∈ s.listener.handled, packet = ending) := by
  have hinv : s.Inv := hrun.invariant Channel.Inv.initial fun _ _ _ h hstep => h.step hstep
  have hbegins : s.listener.handled <+: s.sent := ⟨s.inTransit, hinv.sent.symm⟩
  refine ⟨hbegins, hinv.delivered, ?_⟩
  constructor
  case mpr =>
    intro hall
    have hnone : s.listener.handled.filter (· ≠ ending) = [] := by
      simpa [List.filter_eq_nil_iff] using hall
    rw [hinv.delivered, hnone]
    exact List.nil_prefix
  case mp =>
    intro hpublished
    rw [hinv.delivered] at hpublished
    cases hdata : s.listener.handled.filter (· ≠ ending) with
    | nil => simpa [List.filter_eq_nil_iff] using hdata
    | cons packet rest =>
        -- the first packet handed over is the first one sent, and that has been handled first
        rw [hdata] at hpublished
        have hsent : handOver packet :: rest.map handOver <+: s.sent :=
          hpublished.trans (List.prefix_append _ _)
        cases hhandled : s.listener.handled with
        | nil => exact absurd hdata (by simp [hhandled])
        | cons first others =>
            rw [hhandled] at hbegins hdata
            obtain rfl : first = handOver packet := by
              obtain ⟨t, ht⟩ := hsent
              obtain ⟨t', ht'⟩ := hbegins
              exact (List.cons.inj (ht'.trans ht.symm)).1
            have hpacket : handOver packet = packet := by
              simpa [handOver_ne_ending] using congrArg List.head? hdata
            exact absurd hpacket (handOver_ne_self packet)

/-- One packet of one byte, sent and received. -/
lemma Channel.run_byte : Transition.Run (Channel.Step ⟨1, 6, 6⟩) {}
    [.caller, .caller, .publish ⟨[7]⟩, .listener, .listener, .listener]
    ⟨[], .alive, ⟨.check, false, true, [⟨[7, 0x20]⟩], [⟨[7]⟩]⟩, [⟨[7]⟩], false⟩ :=
  (((((Transition.Run.nil.snoc (.caller (.connect rfl (by decide)))).snoc
    (.caller (.start (Or.inl rfl) rfl))).snoc (.publish rfl)).snoc
    (.listener (.proceed rfl rfl))).snoc (.listener (.receive rfl (by decide)))).snoc
    (.listener (@ListenerStep.deliver _ _ _ ⟨[7]⟩ rfl (by decide)))

theorem message_queue_fifo_byte :
    ∃ actions s, Transition.Run (Channel.Step ⟨1, 6, 6⟩) {} actions s ∧
    s.listener.handled = [⟨[7]⟩] ∧
    (s.listener.delivered <+: s.published ↔ ∀ packet ∈ s.listener.handled, packet = ending) :=
  ⟨_, _, Channel.run_byte, rfl, (message_queue_fifo_iff _ Channel.run_byte).2.2⟩

/-- The byte arrives with a blank behind it. -/
theorem message_queue_fifo_fails : ¬ ∀ (c : Sizes) (actions : List Action) (s : Channel),
    Transition.Run (Channel.Step c) {} actions s → s.listener.delivered <+: s.published := by
  intro hfifo
  have hbyte := hfifo _ _ _ Channel.run_byte
  revert hbyte
  decide

end CpsCore.MessageQueue

import Mathlib
import CpsCore.IDC.NetworkLayers
import CpsCore.IDC.Resynchronization
import CpsCore.IDC.Sending

/-!
# From `sendPacket` to the subscriber

Two devices, each with an `IDC` and its serial layers, and a wire from a port of the one to a port
of the other.

* `follow_port` — a run of an `IDC`, seen from one of its handlers, is a run of this handler.
* `receiving`, `sends` — a run of a handler, seen from one of its directions.
* `inbox_heard` — a slot hears what its handler delivers, and nothing else.
* `idc_end_to_end` — what the one device sends under an id is what the subscriber of the other is
  called with.
-/

namespace CpsCore

open Transition Framing

variable {fl : FloatCast} {crc : Bytes → BitVec 16}

/-! ## One handler of many -/

namespace IDC

/-- No termination signal. -/
def Undisturbed : IDCEvent → Prop
  | .onSigInt _ sig => isTermination sig = false
  | _ => True

/-- What an event is to the handler `p`, which is entered under `id`. -/
def atPort (p : ℕ) (id : String) : IDCEvent → Option SerialHandler.HandlerEvent
  | .sendPacket id' packet _ => if id' = id then some (.sending (.sendPacket packet)) else none
  | .port q e => if q = p then some e.handled else none
  | .subscribeOnPacket _ _ => none
  | .run _ _ _ => none
  | .onSigInt _ _ => none

/-- The handler `p` of the device is in state `t`. -/
structure Follows (p : ℕ) (id : String) (h : SerialHandler) (s : IDC) (t : SerialState) :
    Prop where
  wellFormed : s.WellFormed
  transport : s.transport = none
  mem : p ∈ s.targets id
  handler : (s.ports p).handler = h
  state : (s.ports p).state = t

variable {p : ℕ} {id : String} {h : SerialHandler}

/-- A step that leaves the layers and this handler alone. -/
lemma Follows.frame {s s' : IDC} {t : SerialState} (hs : Follows p id h s t)
    (hwf : s'.WellFormed) (htransport : s'.transport = s.transport)
    (htargets : ∀ q ∈ s.targets id, q ∈ s'.targets id)
    (hhandler : (s'.ports p).handler = (s.ports p).handler)
    (hstate : (s'.ports p).state = (s.ports p).state) : Follows p id h s' t :=
  ⟨hwf, htransport.trans hs.transport, htargets p hs.mem, hhandler.trans hs.handler,
    hstate.trans hs.state⟩

lemma follows_send {s s' : IDC} {t : SerialState} {id' : String} {packet : Packet} {ack : Bool}
    (hs : Follows p id h s t) (hstep : s.step fl crc (.sendPacket id' packet ack) s') :
    Follows p id h s' (if id' = id then (h.sendPacket fl crc packet t).2 else t) := by
  have hwf := step_wellFormed hs.wellFormed hstep
  obtain rfl := hstep
  rw [sendPacket_eq hs.wellFormed hs.transport] at hwf ⊢
  by_cases hid : id' = id
  · subst hid
    refine ⟨hwf, hs.transport, hs.mem, ?_, ?_⟩
    · dsimp only
      rw [if_pos hs.mem]
      exact hs.handler
    · dsimp only
      rw [if_pos hs.mem, if_pos rfl, ← hs.handler, ← hs.state]
      rfl
  · have hnot : p ∉ s.targets id' := fun hmem => hid (hs.wellFormed.id_unique hmem hs.mem)
    rw [if_neg hid]
    refine hs.frame hwf rfl (fun _ hq => hq) ?_ ?_ <;> exact congrArg _ (if_neg hnot)

/-- Neither of the calls that do not concern this handler changes it. -/
lemma follows_other {s s' : IDC} {t : SerialState} {e : IDCEvent} (hs : Follows p id h s t)
    (hcalm : Undisturbed e) (hnone : atPort p id e = none) (hstep : s.step fl crc e s') :
    Follows p id h s' t := by
  have hwf := step_wellFormed hs.wellFormed hstep
  cases e with
  | sendPacket id' packet ack =>
      have hid : id' ≠ id := by
        rintro rfl
        simp [atPort] at hnone
      have hsent := follows_send hs hstep
      rwa [if_neg hid] at hsent
  | subscribeOnPacket id' slot =>
      obtain rfl := hstep
      rw [subscribeOnPacket_eq hs.transport] at hwf ⊢
      cases hr : s.receiver id' with
      | none => exact hs
      | some q =>
          rw [hr] at hwf
          have hport : ∀ r, ((Function.update s.ports q (connected slot (s.ports q))) r).handler =
              (s.ports r).handler ∧ ((Function.update s.ports q (connected slot (s.ports q))) r).state
                = (s.ports r).state := by
            intro r
            by_cases hrq : r = q
            · rw [hrq, Function.update_self]
              exact ⟨rfl, rfl⟩
            · rw [Function.update_of_ne hrq]
              exact ⟨rfl, rfl⟩
          exact hs.frame hwf rfl (fun _ hq => hq) (hport p).1 (hport p).2
  | port q e =>
      have hqp : q ≠ p := by
        rintro rfl
        simp [atPort] at hnone
      obtain ⟨-, state, fired, -, -, rfl⟩ := hstep
      have hport := fire_ports_of_ne hqp.symm state fired s
      exact hs.frame hwf rfl (fun _ hq => hq) (by rw [hport]) (by rw [hport])
  | run i opens params =>
      obtain rfl := hstep
      have hopened := openPorts_opened i opens params hs.wellFormed
      have hport := hopened.old p (hs.wellFormed.lt_next hs.mem)
      exact hs.frame hwf hopened.transport (hopened.targets id) (by rw [hport]) (by rw [hport])
  | onSigInt i sig =>
      obtain rfl := hstep
      have hsame : s.onSigInt i sig = s := by
        rw [onSigInt]
        cases s.networks[i]? with
        | none => rfl
        | some net =>
            have hsig : isTermination sig = false := hcalm
            simp [hsig]
      rwa [hsame]

/-- **One handler of a device.**  Seen from there, every run without a termination signal is a run
of this handler: the packets sent under its id, and what happens at its port. -/
theorem follow_port {s s' : IDC} {es : List IDCEvent} {t : SerialState}
    (hrun : Run (IDC.step fl crc) s es s') (hcalm : ∀ e ∈ es, Undisturbed e)
    (hs : Follows p id h s t) :
    ∃ t', Run (h.handling fl crc) t (es.filterMap (atPort p id)) t' ∧ Follows p id h s' t' := by
  refine hrun.simulates hcalm hs (fun s e s' t hP hnone hstep hfollows =>
    follows_other hfollows hP hnone hstep) ?_
  intro s e s' t e' hP hsome hstep hfollows
  cases e with
  | sendPacket id' packet ack =>
      rw [atPort] at hsome
      split_ifs at hsome with hid
      obtain rfl := Option.some.inj hsome
      have hsent := follows_send hfollows hstep
      rw [if_pos hid] at hsent
      exact ⟨_, rfl, hsent⟩
  | port q e =>
      rw [atPort] at hsome
      split_ifs at hsome with hqp
      obtain rfl := Option.some.inj hsome
      subst hqp
      have hwf := step_wellFormed hfollows.wellFormed hstep
      obtain ⟨-, state, fired, hhandled, -, rfl⟩ := hstep
      rw [hfollows.handler, hfollows.state] at hhandled
      refine ⟨state, hhandled, hwf, hfollows.transport, hfollows.mem, ?_, ?_⟩
      · rw [fire_ports_self]
        exact hfollows.handler
      · rw [fire_ports_self]
  | subscribeOnPacket id' slot => cases hsome
  | run i opens params => cases hsome
  | onSigInt i sig => cases hsome

end IDC

/-! ## One direction of a handler -/

namespace SerialHandler

variable {h : SerialHandler}

def linkOf : HandlerEvent → Option LinkEvent
  | .link e => some e
  | .sending _ => none
  | .failed => none
  | .cancelHandler => none

def sendOf : HandlerEvent → Option SendEvent
  | .sending e => some e
  | .link _ => none
  | .failed => none
  | .cancelHandler => none

/-- Two states that are the same for `receive`, of a handler that is not canceled. -/
structure SameReceiving (s t : SerialState) : Prop where
  packetBuffer : s.packetBuffer_ = t.packetBuffer_
  inBuffer : s.inBuffer_ = t.inBuffer_
  frames : s.frames = t.frames
  onPacket : s.onPacket_ = t.onPacket_
  active : s.handlerCanceled_ = false
  active' : t.handlerCanceled_ = false

/-- Two states that are the same for `sendPacket`. -/
structure SameSending (s t : SerialState) : Prop where
  outBuffer : s.outBuffer_ = t.outBuffer_
  writes : s.writes = t.writes
  wire : s.wire = t.wire

lemma afterLine_onPacket (beyond : ℕ → UInt8) (line rest : Bytes) (s : SerialState) :
    (afterLine fl h crc beyond line rest s).onPacket_ = s.onPacket_ ++
      ((h.packetString line s.packetBuffer_).1.bind (h.verdict fl crc beyond)).toList := by
  rw [afterLine]
  cases (h.packetString line s.packetBuffer_).1 with
  | none => exact (List.append_nil _).symm
  | some frame => exact account_onPacket frame _ _

lemma sameSending_afterLine (beyond : ℕ → UInt8) (line rest : Bytes) (s : SerialState) :
    SameSending (afterLine fl h crc beyond line rest s) s := by
  rw [afterLine]
  cases (h.packetString line s.packetBuffer_).1 with
  | none => exact ⟨rfl, rfl, rfl⟩
  | some frame =>
      dsimp only
      cases h.verdict fl crc beyond frame <;> exact ⟨rfl, rfl, rfl⟩

lemma SameSending.trans {s t u : SerialState} (h₁ : SameSending s t) (h₂ : SameSending t u) :
    SameSending s u :=
  ⟨h₁.outBuffer.trans h₂.outBuffer, h₁.writes.trans h₂.writes, h₁.wire.trans h₂.wire⟩

/-- Sending does not touch what is received. -/
lemma sending_receives {s s' : SerialState} {e : SendEvent} (hstep : h.sending fl crc s e s') :
    s'.packetBuffer_ = s.packetBuffer_ ∧ s'.inBuffer_ = s.inBuffer_ ∧ s'.frames = s.frames ∧
      s'.onPacket_ = s.onPacket_ ∧ s'.handlerCanceled_ = s.handlerCanceled_ := by
  cases e with
  | sendPacket packet =>
      obtain rfl := hstep
      rw [sendPacket]
      split_ifs <;> exact ⟨rfl, rfl, rfl, rfl, rfl⟩
  | complete i =>
      obtain ⟨content, -, rfl⟩ := hstep
      exact ⟨rfl, rfl, rfl, rfl, rfl⟩

/-- Receiving does not touch what is sent. -/
lemma handling_sends {s s' : SerialState} {e : HandlerEvent} (hstep : h.handling fl crc s e s')
    (hnone : sendOf e = none) : SameSending s' s := by
  cases e with
  | link e =>
      by_cases hactive : s.handlerCanceled_ = false
      · rcases link_cases hstep hactive with ⟨chunk, rfl, rfl⟩ | ⟨beyond, line, rest, -, -, -, rfl⟩
        · exact ⟨rfl, rfl, rfl⟩
        · exact sameSending_afterLine beyond line rest s
      · rw [Bool.not_eq_false] at hactive
        cases e with
        | arrive chunk =>
            obtain rfl := hstep
            exact ⟨rfl, rfl, rfl⟩
        | receive beyond =>
            rw [run_receive_canceled hactive hstep.2]
            exact ⟨rfl, rfl, rfl⟩
  | sending e => cases hnone
  | failed =>
      rw [run_receive_error hstep]
      exact ⟨rfl, rfl, rfl⟩
  | cancelHandler =>
      obtain rfl := hstep
      exact ⟨rfl, rfl, rfl⟩

/-- **The receiving direction** of a run of a handler that is not canceled. -/
theorem receiving {s s' : SerialState} {es : List HandlerEvent}
    (hrun : Run (h.handling fl crc) s es s') (hes : ∀ e ∈ es, e ≠ .cancelHandler)
    (hactive : s.handlerCanceled_ = false) :
    ∃ t, Run (h.link fl crc) s (es.filterMap linkOf) t ∧ SameReceiving s' t := by
  refine hrun.simulates hes  ⟨rfl, rfl, rfl, rfl, hactive, hactive⟩ ?_ ?_
  · intro s e s' t hne hnone hstep hsame
    cases e with
    | link e => cases hnone
    | sending e =>
        obtain ⟨hpacket, hin, hframes, hon, hcanceled⟩ := sending_receives hstep
        exact ⟨hpacket.trans hsame.packetBuffer, hin.trans hsame.inBuffer,
          hframes.trans hsame.frames, hon.trans hsame.onPacket, hcanceled.trans hsame.active,
          hsame.active'⟩
    | failed =>
        rw [run_receive_error hstep]
        exact hsame
    | cancelHandler => exact absurd rfl hne
  · intro s e s' t e' hne hsome hstep hsame
    cases e with
    | link e =>
        obtain rfl := Option.some.inj hsome
        rcases link_cases hstep hsame.active with ⟨chunk, rfl, rfl⟩ |
          ⟨beyond, line, rest, rfl, hline, hin, rfl⟩
        · exact ⟨_, rfl, hsame.packetBuffer, congrArg (· ++ chunk) hsame.inBuffer, hsame.frames,
            hsame.onPacket, hsame.active, hsame.active'⟩
        · have hin' : t.inBuffer_ = line ++ h.delim_ :: rest := hsame.inBuffer.symm.trans hin
          refine ⟨afterLine fl h crc beyond line rest t,
            ⟨by rw [hin']; simp, run_receive beyond hsame.active' hline hin'⟩, ?_, ?_, ?_, ?_, ?_, ?_⟩
          · rw [afterLine_packetBuffer, afterLine_packetBuffer, hsame.packetBuffer]
          · rw [afterLine_inBuffer, afterLine_inBuffer]
          · rw [afterLine_frames, afterLine_frames, hsame.frames, hsame.packetBuffer]
          · rw [afterLine_onPacket, afterLine_onPacket, hsame.onPacket, hsame.packetBuffer]
          · rw [afterLine_canceled]
            exact hsame.active
          · rw [afterLine_canceled]
            exact hsame.active'
    | sending e => cases hsome
    | failed => cases hsome
    | cancelHandler => cases hsome

/-- What is sent depends on this part of the state alone. -/
lemma SameSending.sending {s s' t : SerialState} {e : SendEvent} (hsame : SameSending s t)
    (hstep : h.sending fl crc s e s') : ∃ t', h.sending fl crc t e t' ∧ SameSending s' t' := by
  cases e with
  | sendPacket packet =>
      refine ⟨_, rfl, ?_⟩
      obtain rfl := hstep
      rw [sendPacket, sendPacket]
      split_ifs
      · exact hsame
      · exact ⟨rfl, hsame.writes, by simp only [hsame.wire, hsame.outBuffer]⟩
      · exact ⟨by simp only [hsame.outBuffer], by simp only [hsame.writes, hsame.outBuffer],
          hsame.wire⟩
  | complete i =>
      obtain ⟨content, hi, rfl⟩ := hstep
      exact ⟨_, ⟨content, hsame.writes ▸ hi, rfl⟩, by simp only [hsame.outBuffer],
        by simp only [hsame.writes], by simp only [hsame.wire]⟩

/-- **The sending direction** of a run of a handler. -/
theorem sends {s s' : SerialState} {es : List HandlerEvent}
    (hrun : Run (h.handling fl crc) s es s') :
    ∃ t, Run (h.sending fl crc) s (es.filterMap sendOf) t ∧ SameSending s' t := by
  refine hrun.simulates (P := fun _ => True) (fun _ _ => trivial) (R := SameSending)
    ⟨rfl, rfl, rfl⟩ (fun s e s' t _ hnone hstep hsame => (handling_sends hstep hnone).trans hsame) ?_
  intro s e s' t e' _ hsome hstep hsame
  cases e with
  | sending e =>
      obtain rfl := Option.some.inj hsome
      exact hsame.sending hstep
  | link e => cases hsome
  | failed => cases hsome
  | cancelHandler => cases hsome

/-! ## What is on the wire -/

/-- A handler that puts every message on the wire once, in order: it blocks, or no call finds an
earlier write outstanding, and all writes have completed. -/
def Orderly (h : SerialHandler) (es : List SendEvent) (s : SerialState) : Prop :=
  h.sendBlocking_ = true ∨ h.sendBlocking_ = false ∧ Sequential es ∧ s.writes = []

lemma blocking_wire (hdir : h.direction_ ≠ .receive) (hblock : h.sendBlocking_ = true)
    {s s' : SerialState} {es : List SendEvent} (hout : s.outBuffer_ = []) (hwrites : s.writes = [])
    (hrun : Run (h.sending fl crc) s es s') :
    s'.outBuffer_ = [] ∧ s'.writes = [] ∧
      s'.wire = s.wire ++ (messages fl h crc es).flatten := by
  refine hrun.induct (P := fun es s' => s'.outBuffer_ = [] ∧ s'.writes = [] ∧
    s'.wire = s.wire ++ (messages fl h crc es).flatten) ⟨hout, hwrites, by simp [messages]⟩ ?_
  rintro es s e s' ⟨hout, hwrites, hwire⟩ hstep
  cases e with
  | sendPacket packet =>
      obtain rfl := hstep
      rw [sendPacket, if_neg hdir]
      simp only [hblock, if_true, messages_snoc_send]
      exact ⟨trivial, hwrites, by rw [hout, hwire, List.nil_append, List.append_assoc]⟩
  | complete i =>
      obtain ⟨content, hi, -⟩ := hstep
      rw [hwrites] at hi
      cases hi

/-- **The wire of an orderly handler.** -/
lemma orderly_wire (hdir : h.direction_ ≠ .receive) {s s' : SerialState} {es : List SendEvent}
    (hout : s.outBuffer_ = []) (hwrites : s.writes = []) (hrun : Run (h.sending fl crc) s es s')
    (horderly : Orderly h es s') : s'.wire = s.wire ++ (messages fl h crc es).flatten := by
  rcases horderly with hblock | ⟨hasync, hseq, hdone⟩
  · exact (blocking_wire hdir hblock hout hwrites hrun).2.2
  · have hinv : SentSoFar fl h crc s es s' := by
      refine hrun.induct (P := fun es s' => SentSoFar fl h crc s es s') ?_ ?_
      · refine ⟨by rw [hwrites]; rfl, fun _ => Or.inl ⟨hwrites, hout, (List.append_nil _).symm⟩, ?_⟩
        exact fun hnot => absurd sequential_nil hnot
      · intro es s e s' hinv hstep
        cases e with
        | sendPacket packet => exact hinv.send hdir hasync hstep
        | complete i => exact hinv.complete hstep
    rcases hinv.inOrder hseq with ⟨-, -, hwire⟩ | ⟨content, hw, -⟩
    · exact hwire
    · rw [hdone] at hw
      cases hw

end SerialHandler

/-! ## What a slot hears -/

namespace IDC

/-- The slot is not connected anew. -/
def NoSubscription (slot : ℕ) : IDCEvent → Prop
  | .subscribeOnPacket _ slot' => slot' ≠ slot
  | _ => True

/-- The slot is connected to the handler `q`, once, and to no other. -/
structure Hears (slot q : ℕ) (s : IDC) : Prop where
  wellFormed : s.WellFormed
  transport : s.transport = none
  lt_next : q < s.next
  once : (s.ports q).slots.count slot = 1
  only : ∀ r, r ≠ q → (s.ports r).slots.count slot = 0

variable {slot q : ℕ}

lemma Hears.of_slots {s s' : IDC} (hs : Hears slot q s) (hwf : s'.WellFormed)
    (htransport : s'.transport = s.transport) (hnext : s.next ≤ s'.next)
    (hslots : ∀ r, (s'.ports r).slots.count slot = (s.ports r).slots.count slot ∨
      r ≠ q ∧ (s'.ports r).slots = []) : Hears slot q s' := by
  refine ⟨hwf, htransport.trans hs.transport, hs.lt_next.trans_le hnext, ?_, fun r hr => ?_⟩
  · rcases hslots q with hsame | ⟨hne, -⟩
    · exact hsame.trans hs.once
    · exact absurd rfl hne
  · rcases hslots r with hsame | ⟨-, hnil⟩
    · exact hsame.trans (hs.only r hr)
    · rw [hnil, List.count_nil]

lemma hears_fire {s : IDC} {p : ℕ} {state : SerialState} {fired : List Packet}
    (hs : Hears slot q s) (hfired : state.onPacket_ = (s.ports p).state.onPacket_ ++ fired) :
    Hears slot q (s.fire p state fired) ∧ ∃ heard,
      ((s.fire p state fired).ports q).state.onPacket_ = (s.ports q).state.onPacket_ ++ heard ∧
        (s.fire p state fired).inbox slot = s.inbox slot ++ heard := by
  have hslots : ∀ r, ((s.fire p state fired).ports r).slots = (s.ports r).slots := by
    intro r
    by_cases hrp : r = p
    · rw [hrp, fire_ports_self]
    · rw [fire_ports_of_ne hrp]
  have hinbox : (s.fire p state fired).inbox slot = s.inbox slot ++
      fired.flatMap fun packet => List.replicate ((s.ports p).slots.count slot) packet := rfl
  have hwf : (s.fire p state fired).WellFormed := ⟨hs.wellFormed.nodup, hs.wellFormed.fresh⟩
  refine ⟨hs.of_slots hwf rfl le_rfl fun r => Or.inl (congrArg _ (hslots r)), ?_⟩
  by_cases hpq : q = p
  · subst hpq
    refine ⟨fired, ?_, ?_⟩
    · rw [fire_ports_self]
      exact hfired
    · rw [hinbox, hs.once]
      simp
  · refine ⟨[], ?_, ?_⟩
    · rw [fire_ports_of_ne hpq, List.append_nil]
    · rw [hinbox, hs.only p (Ne.symm hpq)]
      simp

/-- **One step**: the slot is called with the packets that its handler fires, and no others. -/
lemma hears_step {s s' : IDC} {e : IDCEvent} (hs : Hears slot q s) (hno : NoSubscription slot e)
    (hstep : s.step fl crc e s') : Hears slot q s' ∧ ∃ fired,
      (s'.ports q).state.onPacket_ = (s.ports q).state.onPacket_ ++ fired ∧
        s'.inbox slot = s.inbox slot ++ fired := by
  have hwf := step_wellFormed hs.wellFormed hstep
  cases e with
  | sendPacket id packet ack =>
      obtain rfl := hstep
      rw [sendPacket_eq hs.wellFormed hs.transport] at hwf ⊢
      have hport : ∀ r, ((if r ∈ s.targets id then sent fl crc packet (s.ports r)
          else s.ports r).slots) = (s.ports r).slots ∧
          (if r ∈ s.targets id then sent fl crc packet (s.ports r)
            else s.ports r).state.onPacket_ = (s.ports r).state.onPacket_ := by
        intro r
        split_ifs
        · refine ⟨rfl, ?_⟩
          rw [sent, SerialHandler.sendPacket]
          split_ifs <;> rfl
        · exact ⟨rfl, rfl⟩
      refine ⟨hs.of_slots hwf rfl le_rfl fun r => Or.inl (congrArg _ (hport r).1), [], ?_, ?_⟩
      · rw [List.append_nil]
        exact (hport q).2
      · exact (List.append_nil _).symm
  | subscribeOnPacket id slot' =>
      obtain rfl := hstep
      rw [subscribeOnPacket_eq hs.transport] at hwf ⊢
      cases hr : s.receiver id with
      | none => exact ⟨hs, [], by simp, by simp⟩
      | some p =>
          rw [hr] at hwf
          have hne : slot' ≠ slot := hno
          have hport : ∀ r, ((Function.update s.ports p (connected slot' (s.ports p))) r).slots.count
              slot = (s.ports r).slots.count slot ∧
              ((Function.update s.ports p (connected slot' (s.ports p))) r).state =
                (s.ports r).state := by
            intro r
            by_cases hrp : r = p
            · rw [hrp, Function.update_self, connected, List.count_append,
                List.count_singleton, if_neg (by simpa using hne), Nat.add_zero]
              exact ⟨rfl, rfl⟩
            · rw [Function.update_of_ne hrp]
              exact ⟨rfl, rfl⟩
          refine ⟨hs.of_slots hwf rfl le_rfl fun r => Or.inl (hport r).1, [], ?_, ?_⟩
          · rw [List.append_nil]
            exact congrArg _ (hport q).2
          · exact (List.append_nil _).symm
  | port p e =>
      obtain ⟨-, state, fired, -, hfired, rfl⟩ := hstep
      exact hears_fire hs hfired
  | run i opens params =>
      obtain rfl := hstep
      have hopened := openPorts_opened i opens params hs.wellFormed
      refine ⟨hs.of_slots hwf hopened.transport hopened.next fun r => ?_, [], ?_, ?_⟩
      · rcases Nat.lt_or_ge r s.next with hlt | hge
        · exact Or.inl (by rw [hopened.old r hlt])
        · rcases hopened.new r hge with hsame | hnil
          · exact Or.inl (by rw [hsame])
          · exact Or.inr ⟨(hs.lt_next.trans_le hge).ne', hnil⟩
      · rw [hopened.old q hs.lt_next, List.append_nil]
      · rw [hopened.inbox, List.append_nil]
  | onSigInt i sig =>
      obtain rfl := hstep
      rw [onSigInt] at hwf ⊢
      cases hnet : s.networks[i]? with
      | none => exact ⟨hs, [], by simp, by simp⟩
      | some net =>
          rw [hnet] at hwf
          by_cases hsig : isTermination sig = true
          · simp only [hsig, if_true] at hwf ⊢
            have hport : ∀ r, (net.cancelHandlers s.ports r).slots = (s.ports r).slots ∧
                (net.cancelHandlers s.ports r).state.onPacket_ = (s.ports r).state.onPacket_ := by
              intro r
              rw [SerialNetworkLayer.cancelHandlers]
              split_ifs <;> exact ⟨rfl, rfl⟩
            refine ⟨hs.of_slots hwf rfl le_rfl fun r => Or.inl (congrArg _ (hport r).1), [], ?_, ?_⟩
            · rw [List.append_nil]
              exact (hport q).2
            · exact (List.append_nil _).symm
          · simp only [hsig]
            exact ⟨hs, [], by simp, by simp⟩

/-- **What a slot hears** in a run is what its handler delivers, also when the handler was
removed from its layer. -/
theorem inbox_heard {s s' : IDC} {es : List IDCEvent} (hrun : Run (IDC.step fl crc) s es s')
    (hno : ∀ e ∈ es, NoSubscription slot e) (hs : Hears slot q s) :
    Hears slot q s' ∧ ∃ fired,
      (s'.ports q).state.onPacket_ = (s.ports q).state.onPacket_ ++ fired ∧
        s'.inbox slot = s.inbox slot ++ fired := by
  refine hrun.invariant_of (I := fun s' => Hears slot q s' ∧ ∃ fired,
    (s'.ports q).state.onPacket_ = (s.ports q).state.onPacket_ ++ fired ∧
      s'.inbox slot = s.inbox slot ++ fired) hno ⟨hs, [], by simp, by simp⟩ ?_
  rintro s₁ e s₂ hno ⟨hears, before, hon, hin⟩ hstep
  obtain ⟨hears', fired, hon', hin'⟩ := hears_step hears hno hstep
  exact ⟨hears', before ++ fired, by rw [hon', hon, List.append_assoc],
    by rw [hin', hin, List.append_assoc]⟩

end IDC

/-! ## From device to device -/

/-- Handlers that agree on what a message looks like. -/
structure SerialHandler.SameFormat (h h' : SerialHandler) : Prop where
  delimString : h.delimString_ = h'.delimString_
  useCRC : h.useCRC_ = h'.useCRC_
  useHammingEC : h.useHammingEC_ = h'.useHammingEC_

lemma SerialHandler.SameFormat.body {h h' : SerialHandler} (hsame : h.SameFormat h')
    (packet : Packet) : h.body fl crc packet = h'.body fl crc packet := by
  rw [SerialHandler.body, SerialHandler.body, SerialHandler.headed, SerialHandler.headed,
    hsame.useCRC, hsame.useHammingEC]

lemma SerialHandler.SameFormat.message {h h' : SerialHandler} (hsame : h.SameFormat h')
    (packet : Packet) : h.message fl crc packet = h'.message fl crc packet := by
  rw [SerialHandler.message, SerialHandler.message, hsame.body, hsame.delimString]

namespace IDC

/-- The packet that a call sends under `id`. -/
def packetFor (id : String) : IDCEvent → Option Packet
  | .sendPacket id' packet _ => if id' = id then some packet else none
  | .port _ _ => none
  | .subscribeOnPacket _ _ => none
  | .run _ _ _ => none
  | .onSigInt _ _ => none

/-- What happens on the line of the port `q`. -/
def linkAt (q : ℕ) : IDCEvent → Option SerialHandler.LinkEvent
  | .port q' (.link e) => if q' = q then some e else none
  | .port _ (.complete _) => none
  | .port _ .failed => none
  | .sendPacket _ _ _ => none
  | .subscribeOnPacket _ _ => none
  | .run _ _ _ => none
  | .onSigInt _ _ => none

/-- The packets sent under an id, in call order. -/
def sentUnder (id : String) (es : List IDCEvent) : List Packet := es.filterMap (packetFor id)

/-- The bytes that have arrived at a port. -/
def arrivedAt (q : ℕ) (es : List IDCEvent) : Bytes :=
  SerialHandler.arrived (es.filterMap (linkAt q))

/-- The calls and completions at a port. -/
def sendsAt (p : ℕ) (id : String) (es : List IDCEvent) : List SerialHandler.SendEvent :=
  (es.filterMap (atPort p id)).filterMap SerialHandler.sendOf

lemma filterMap_linkOf (q : ℕ) (id : String) (es : List IDCEvent) :
    (es.filterMap (atPort q id)).filterMap SerialHandler.linkOf = es.filterMap (linkAt q) := by
  rw [List.filterMap_filterMap]
  refine List.filterMap_congr fun e _ => ?_
  cases e with
  | sendPacket id' packet ack =>
      rw [atPort]
      split_ifs <;> rfl
  | port q' e =>
      rw [atPort]
      by_cases hq : q' = q
      · rw [if_pos hq]
        cases e with
        | link e => exact (if_pos hq).symm
        | complete i => rfl
        | failed => rfl
      · rw [if_neg hq]
        cases e with
        | link e => exact (if_neg hq).symm
        | complete i => rfl
        | failed => rfl
  | subscribeOnPacket id' slot => rfl
  | run i opens params => rfl
  | onSigInt i sig => rfl

lemma messages_sendsAt (h : SerialHandler) (p : ℕ) (id : String) (es : List IDCEvent) :
    SerialHandler.messages fl h crc (sendsAt p id es) =
      (sentUnder id es).map (h.message fl crc) := by
  induction es with
  | nil => rfl
  | cons e es ih =>
      rw [sendsAt, sentUnder]
      cases e with
      | sendPacket id' packet ack =>
          by_cases hid : id' = id
          · have hport : atPort p id (.sendPacket id' packet ack) =
                some (.sending (.sendPacket packet)) := if_pos hid
            have hpacket : packetFor id (.sendPacket id' packet ack) = some packet := if_pos hid
            have hsend : SerialHandler.sendOf (.sending (.sendPacket packet)) =
                some (.sendPacket packet) := rfl
            rw [List.filterMap_cons_some hport, List.filterMap_cons_some hsend,
              List.filterMap_cons_some hpacket, List.map_cons, SerialHandler.messages]
            exact congrArg _ ih
          · have hport : atPort p id (.sendPacket id' packet ack) = none := if_neg hid
            have hpacket : packetFor id (.sendPacket id' packet ack) = none := if_neg hid
            rw [List.filterMap_cons_none hport, List.filterMap_cons_none hpacket]
            exact ih
      | port q e =>
          have hpacket : packetFor id (.port q e) = none := rfl
          rw [List.filterMap_cons_none hpacket]
          by_cases hq : q = p
          · have hport : atPort p id (.port q e) = some e.handled := if_pos hq
            rw [List.filterMap_cons_some hport]
            cases e with
            | link e => exact ih
            | complete i => exact ih
            | failed => exact ih
          · have hport : atPort p id (.port q e) = none := if_neg hq
            rw [List.filterMap_cons_none hport]
            exact ih
      | subscribeOnPacket id' slot => exact ih
      | run i opens params => exact ih
      | onSigInt i sig => exact ih

lemma atPort_ne_cancel {p : ℕ} {id : String} {es : List IDCEvent} :
    ∀ e ∈ es.filterMap (atPort p id), e ≠ .cancelHandler := by
  rintro e he rfl
  obtain ⟨e', -, he'⟩ := List.mem_filterMap.mp he
  cases e' with
  | sendPacket id' packet ack =>
      rw [atPort] at he'
      split_ifs at he'
      cases he'
  | port q e =>
      rw [atPort] at he'
      split_ifs at he'
      cases e <;> cases he'
  | subscribeOnPacket id' slot => cases he'
  | run i opens params => cases he'
  | onSigInt i sig => cases he'

/-- **What a device puts on the wire** under an id. -/
theorem wire_of_sends {a a' : IDC} {es : List IDCEvent} {id : String} {p : ℕ}
    (ha : a.WellFormed) (hnet : a.transport = none) (hp : p ∈ a.targets id)
    (hrun : Run (IDC.step fl crc) a es a') (hcalm : ∀ e ∈ es, Undisturbed e)
    (hdir : (a.ports p).handler.direction_ ≠ .receive)
    (hout : (a.ports p).state.outBuffer_ = []) (hwrites : (a.ports p).state.writes = [])
    (horderly : (a.ports p).handler.Orderly (sendsAt p id es) (a'.ports p).state) :
    (a'.ports p).state.wire = (a.ports p).state.wire ++
      (sentUnder id es).flatMap ((a.ports p).handler.message fl crc) := by
  obtain ⟨t', hhandling, hfollows⟩ := follow_port hrun hcalm ⟨ha, hnet, hp, rfl, rfl⟩
  obtain ⟨u, hsending, hsame⟩ := SerialHandler.sends hhandling
  rw [hfollows.state] at horderly ⊢
  have hu : (a.ports p).handler.Orderly (sendsAt p id es) u := by
    rw [SerialHandler.Orderly, ← hsame.writes]
    exact horderly
  rw [hsame.wire, SerialHandler.orderly_wire hdir hout hwrites hsending hu, ← sendsAt,
    messages_sendsAt, List.flatMap]

/-- **What a device delivers** of a stream of messages. -/
theorem delivers_of_arrived {b b' : IDC} {es : List IDCEvent} {id : String} {q : ℕ}
    (hb : b.WellFormed) (hnet : b.transport = none) (hq : q ∈ b.targets id)
    (hrun : Run (IDC.step fl crc) b es b') (hcalm : ∀ e ∈ es, Undisturbed e)
    (hlisten : SerialHandler.Listening (b.ports q).state)
    (hidle : (b.ports q).handler.delim_ ∉ (b'.ports q).state.inBuffer_) {packets : List Packet}
    (harrived : arrivedAt q es = packets.flatMap ((b.ports q).handler.message fl crc))
    (hsafe : ∀ packet ∈ packets, OnlyAtEnd (b.ports q).handler.delimString_
      ((b.ports q).handler.message fl crc packet))
    (hne : (b.ports q).handler.delimString_.length ≠ 1 →
      ∀ packet ∈ packets, (b.ports q).handler.body fl crc packet ≠ []) :
    (b'.ports q).state.onPacket_ = (b.ports q).state.onPacket_ ++ packets := by
  obtain ⟨t', hhandling, hfollows⟩ := follow_port hrun hcalm ⟨hb, hnet, hq, rfl, rfl⟩
  obtain ⟨v, hlink, hsame⟩ := SerialHandler.receiving hhandling atPort_ne_cancel hlisten.active
  rw [filterMap_linkOf] at hlink
  rw [hfollows.state, hsame.inBuffer] at hidle
  obtain ⟨hframes, -⟩ := SerialHandler.link_frames_of_messages hsafe hne hlisten hlink harrived
    hidle
  rw [hfollows.state, hsame.onPacket]
  exact (SerialHandler.link_delivers hlisten hlink hframes).1

/-- **From `sendPacket` to the subscriber.**  The handler `p` of device `a` is the one for `id` on
its layer, the handler `q` of device `b` receives what `p` puts on its wire, and `slot` is
connected to `q`.  Both devices run as they like: they send under other ids, open ports, connect
subscribers, and receive on all ports.  If `p` and `q` agree on the format, the writes of `p` are
orderly, and the packets sent under `id` can be delimited, then `slot` is called with exactly
these packets, once each and in call order. -/
theorem idc_end_to_end (fl : FloatCast) (crc : Bytes → BitVec 16) {a a' b b' : IDC}
    {es fs : List IDCEvent} {id id' : String} {p q slot : ℕ}
    (ha : a.WellFormed) (hnetA : a.transport = none) (hp : p ∈ a.targets id)
    (hrunA : Run (IDC.step fl crc) a es a') (hcalmA : ∀ e ∈ es, Undisturbed e)
    (hdir : (a.ports p).handler.direction_ ≠ .receive)
    (hout : (a.ports p).state.outBuffer_ = []) (hwrites : (a.ports p).state.writes = [])
    (horderly : (a.ports p).handler.Orderly (sendsAt p id es) (a'.ports p).state)
    (hq : q ∈ b.targets id') (hhears : Hears slot q b)
    (hrunB : Run (IDC.step fl crc) b fs b') (hcalmB : ∀ e ∈ fs, Undisturbed e)
    (hno : ∀ e ∈ fs, NoSubscription slot e)
    (hlisten : SerialHandler.Listening (b.ports q).state)
    (hidle : (b.ports q).handler.delim_ ∉ (b'.ports q).state.inBuffer_)
    (hformat : (a.ports p).handler.SameFormat (b.ports q).handler)
    (hwire : (a'.ports p).state.wire = (a.ports p).state.wire ++ arrivedAt q fs)
    (hsafe : ∀ packet ∈ sentUnder id es, OnlyAtEnd (a.ports p).handler.delimString_
      ((a.ports p).handler.message fl crc packet))
    (hne : (a.ports p).handler.delimString_.length ≠ 1 →
      ∀ packet ∈ sentUnder id es, (a.ports p).handler.body fl crc packet ≠ []) :
    b'.inbox slot = b.inbox slot ++ sentUnder id es := by
  have hsent := wire_of_sends ha hnetA hp hrunA hcalmA hdir hout hwrites horderly
  have harrived : arrivedAt q fs =
      (sentUnder id es).flatMap ((a.ports p).handler.message fl crc) :=
    List.append_cancel_left (hwire.symm.trans hsent)
  have hmessage : (a.ports p).handler.message fl crc = (b.ports q).handler.message fl crc :=
    funext fun packet => hformat.message packet
  have hbody : (a.ports p).handler.body fl crc = (b.ports q).handler.body fl crc :=
    funext fun packet => hformat.body packet
  rw [hmessage] at harrived hsafe
  rw [hformat.delimString] at hsafe hne
  rw [hbody] at hne
  have hdelivered := delivers_of_arrived hhears.wellFormed hhears.transport hq hrunB hcalmB
    hlisten hidle harrived hsafe hne
  obtain ⟨-, fired, hon, hin⟩ := inbox_heard hrunB hno hhears
  rw [hin, List.append_cancel_left (hon.symm.trans hdelivered)]

lemma defaultDelimiter_ne : defaultDelimiter ≠ [] := by decide

/-- A device that sends on `"uart"`, blocking. -/
def sampleSender : IDC where
  networks := [⟨[("uart", 0)]⟩]
  ports := fun _ => { handler := { sendBlocking_ := true, delim_ne := defaultDelimiter_ne } }
  next := 1

/-- A device that listens on `"gps"` with slot 5. -/
def sampleReceiver : IDC where
  networks := [⟨[("gps", 0)]⟩]
  ports := fun q =>
    { handler := { delim_ne := defaultDelimiter_ne }, slots := if q = 0 then [5] else [] }
  next := 1

lemma sample_wellFormed {s : IDC} {id : String} (hnets : s.networks = [⟨[(id, 0)]⟩])
    (hnext : s.next = 1) : s.WellFormed := by
  have htable : s.table = [0] := by rw [table, hnets]; rfl
  refine ⟨by rw [htable]; decide, fun p hp => ?_⟩
  rw [htable] at hp
  rw [List.mem_singleton.mp hp, hnext]
  exact Nat.one_pos

theorem idc_end_to_end_letter : ∃ es b',
    Run (IDC.step default fun _ => 0) sampleReceiver es b' ∧ b'.inbox 5 = [] ++ [⟨[7]⟩] := by
  have hrunA : Run (IDC.step default fun _ => 0) sampleSender
      [.sendPacket "uart" ⟨[7]⟩ false] _ := Run.single rfl
  have hstep : ∀ (s : IDC) (e : PortEvent) (state : SerialState) (fired : List Packet),
      0 < s.next → (s.ports 0).handler.handling default (fun _ => 0) (s.ports 0).state e.handled
        state → state.onPacket_ = (s.ports 0).state.onPacket_ ++ fired →
      IDC.step default (fun _ => 0) s (.port 0 e) (s.fire 0 state fired) :=
    fun s e state fired hlt hhandling hfired => ⟨hlt, state, fired, hhandling, hfired, rfl⟩
  have hreceive : ∀ (line rest : Bytes) (state : SerialState), state.handlerCanceled_ = false →
      ({} : SerialHandler).delim_ ∉ line →
      state.inBuffer_ = line ++ ({} : SerialHandler).delim_ :: rest →
      ({} : SerialHandler).handling default (fun _ => 0) state (.link (.receive fun _ => 0))
        (SerialHandler.afterLine default {} (fun _ => 0) (fun _ => 0) line rest state) :=
    fun line rest state hactive hline hin =>
      ⟨by rw [hin]; simp, SerialHandler.run_receive _ hactive hline hin⟩
  have harrive := hstep sampleReceiver (.link (.arrive [0, 0, 7, 42, 45, 42]))
    { inBuffer_ := [0, 0, 7, 42, 45, 42] } [] (by decide) rfl rfl
  have hline := hstep (sampleReceiver.fire 0 { inBuffer_ := [0, 0, 7, 42, 45, 42] } [])
    (.link (.receive fun _ => 0)) { inBuffer_ := [45, 42], packetBuffer_ := [0, 0, 7, 42] } []
    (by decide) (hreceive [0, 0, 7] [45, 42] _ rfl (by decide) rfl) rfl
  have hlast := hstep ((sampleReceiver.fire 0 { inBuffer_ := [0, 0, 7, 42, 45, 42] } []).fire 0
      { inBuffer_ := [45, 42], packetBuffer_ := [0, 0, 7, 42] } [])
    (.link (.receive fun _ => 0))
    (SerialHandler.afterLine default {} (fun _ => 0) (fun _ => 0) [45] []
      { inBuffer_ := [45, 42], packetBuffer_ := [0, 0, 7, 42] })
    [⟨[7]⟩] Nat.one_pos (hreceive [45] [] _ rfl (by decide) rfl) (by decide +kernel)
  have hrunB := ((Run.single harrive).snoc hline).snoc hlast
  have hmem : 0 ∈ sampleSender.targets "uart" := by decide
  have hmem' : 0 ∈ sampleReceiver.targets "gps" := by decide
  have hhears : Hears 5 0 sampleReceiver := by
    refine ⟨sample_wellFormed rfl rfl, rfl, Nat.one_pos, by decide, fun r hr => ?_⟩
    have hslots : (sampleReceiver.ports r).slots = [] := if_neg hr
    rw [hslots]
    rfl
  have hsafe : OnlyAtEnd defaultDelimiter
      ((sampleSender.ports 0).handler.message default (fun _ => 0) ⟨[7]⟩) :=
    (onlyAtEnd_aba_iff (by decide) _).mpr ⟨by decide, by decide⟩
  refine ⟨_, _, hrunB, idc_end_to_end default (fun _ => 0) (sample_wellFormed rfl rfl) rfl hmem
    hrunA (by simp [Undisturbed]) (by decide) rfl rfl (Or.inl rfl) hmem' hhears hrunB
    (by simp [Undisturbed]) (by simp [NoSubscription]) ⟨rfl, rfl, rfl⟩ ?_ ⟨rfl, rfl, rfl⟩ ?_ ?_ ?_⟩
  · rw [fire_ports_self]
    simp
  · decide +kernel
  · intro packet hpacket
    obtain rfl := List.mem_singleton.mp hpacket
    exact hsafe
  · intro _ packet hpacket
    obtain rfl := List.mem_singleton.mp hpacket
    decide

end IDC

end CpsCore

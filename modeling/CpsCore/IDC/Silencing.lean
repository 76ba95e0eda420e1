import Mathlib
import CpsCore.IDC.EndToEnd

/-!
# A termination signal among the threads of a device

The calls of `IDC.step` are whole.  On a device they are not: the thread of a handler can be in
`receive` past the check of `handlerCanceled_` when a signal comes in, and a user can have found a
handler in a layer that is then cleared.  `find` and `clear` are not protected against each other;
each is one step here.

* `Threads` — an `IDC` with the calls in flight, and `Threads.step`, which takes each call apart
  where another thread can come in between.
* `threads_of_run` — a run of whole calls is one of these.
* `sigint_silences` — after `onSigInt` the handlers of a layer do what was in flight, and no more.
-/

namespace CpsCore

open Transition

variable {fl : FloatCast} {crc : Bytes → BitVec 16}

/-- What a user calls a handler for. -/
inductive PortCall
  | sendPacket (packet : Packet)
  | subscribeOnPackets (slot : ℕ)

def PortCall.finish (fl : FloatCast) (crc : Bytes → BitVec 16) : PortCall → Port → Port
  | .sendPacket packet, port => IDC.sent fl crc packet port
  | .subscribeOnPackets slot, port => (port.subscribeOnPackets slot).2

namespace IDC

/-- An `IDC` and how far its threads are: `receiving` has the handlers whose thread is in `receive`
past its checks, `calls` the calls that have found their handler.  One thread runs the `io_` of a
handler, so it is in one `receive` at most. -/
structure Threads where
  idc : IDC
  receiving : ℕ → Bool := fun _ => false
  calls : List (ℕ × PortCall) := []

inductive ThreadEvent
  /-- An event that no other comes in between of. -/
  | whole (e : IDCEvent)
  /-- `receive` is called, and looks whether it was canceled. -/
  | check (p : ℕ)
  /-- The rest of `receive`. -/
  | rest (p : ℕ) (beyond : ℕ → UInt8)
  /-- A call reaches layer `i` and finds its handler. -/
  | find (i : ℕ) (id : String) (call : PortCall)
  /-- The rest of a call. -/
  | finish (k : ℕ)

def Whole : IDCEvent → Prop
  | .sendPacket _ _ _ => False
  | .subscribeOnPacket _ _ => False
  | .port _ (.link (.arrive _)) => True
  | .port _ (.link (.receive _)) => False
  | .port _ (.complete _) => True
  | .port _ .failed => True
  | .run _ _ _ => True
  | .onSigInt _ _ => True

/-- The device after a call of a user was finished. -/
def finishCall (fl : FloatCast) (crc : Bytes → BitVec 16) (p : ℕ) (call : PortCall) (s : IDC) :
    IDC :=
  { s with ports := Function.update s.ports p (call.finish fl crc (s.ports p)) }

@[simp] lemma finishCall_ports_self (p : ℕ) (call : PortCall) (s : IDC) :
    (s.finishCall fl crc p call).ports p = call.finish fl crc (s.ports p) :=
  Function.update_self _ _ _

lemma finishCall_ports_of_ne {p q : ℕ} (hq : q ≠ p) (call : PortCall) (s : IDC) :
    (s.finishCall fl crc p call).ports q = s.ports q :=
  Function.update_of_ne hq _ _

def Threads.step (fl : FloatCast) (crc : Bytes → BitVec 16) (s : Threads) :
    ThreadEvent → Threads → Prop
  | .whole e, s' => Whole e ∧ ∃ idc, s.idc.step fl crc e idc ∧ s' = { s with idc := idc }
  | .check p, s' => p < s.idc.next ∧ s.receiving p = false ∧
      (s.idc.ports p).handler.delim_ ∈ (s.idc.ports p).state.inBuffer_ ∧
      s' = { s with receiving :=
        Function.update s.receiving p !(s.idc.ports p).state.handlerCanceled_ }
  | .rest p beyond, s' => s.receiving p = true ∧ ∃ state fired,
      ((s.idc.ports p).handler.receiveLine fl crc beyond).run (s.idc.ports p).state =
        .ok () state ∧
      state.onPacket_ = (s.idc.ports p).state.onPacket_ ++ fired ∧
      s' = { s with
        idc := s.idc.fire p state fired
        receiving := Function.update s.receiving p false }
  | .find i id call, s' => ∃ net p, s.idc.networks[i]? = some net ∧ net.find id = some p ∧
      s' = { s with calls := s.calls ++ [(p, call)] }
  | .finish k, s' => ∃ p call, s.calls[k]? = some (p, call) ∧
      s' = { s with idc := s.idc.finishCall fl crc p call, calls := s.calls.eraseIdx k }

/-! ## Whole calls -/

/-- A call on one layer, when no other comes in between. -/
lemma threads_call {s : IDC} {i : ℕ} {net : SerialNetworkLayer} {id : String} {p : ℕ}
    (hnet : s.networks[i]? = some net) (hp : net.find id = some p) (call : PortCall) :
    Run (Threads.step fl crc) { idc := s } [.find i id call, .finish 0]
      { idc := s.finishCall fl crc p call } :=
  (Run.single (e := ThreadEvent.find i id call) ⟨net, p, hnet, hp, rfl⟩).snoc ⟨p, call, rfl, rfl⟩

lemma threads_sendAll (s : IDC) (id : String) (packet : Packet) :
    ∀ (nets before : List SerialNetworkLayer) (ok : Bool) (ports : ℕ → Port),
      s.networks = before ++ nets → ∃ es,
        Run (Threads.step fl crc) { idc := { s with ports := ports } } es
          { idc := { s with ports := (sendAll fl crc id packet nets (ok, ports)).2 } }
  | [], _, _, _, _ => ⟨[], Run.nil⟩
  | net :: nets, before, ok, ports, hnets => by
      have hrest : s.networks = (before ++ [net]) ++ nets := by
        rw [hnets, List.append_assoc, List.singleton_append]
      rw [sendAll, SerialNetworkLayer.sendPacket]
      cases hp : net.find id with
      | none => exact threads_sendAll s id packet nets _ _ ports hrest
      | some p =>
          have hnet : s.networks[before.length]? = some net := by rw [hnets]; simp
          have hcall := @threads_call fl crc { s with ports := ports } _ net id p hnet hp
            (.sendPacket packet)
          obtain ⟨es, hrun⟩ := threads_sendAll s id packet nets _
            (ok || ((ports p).handler.sendPacket fl crc packet (ports p).state).1)
            (Function.update ports p (sent fl crc packet (ports p))) hrest
          exact ⟨_, hcall.trans hrun⟩

lemma threads_subscribeFirst (s : IDC) (id : String) (slot : ℕ) :
    ∀ (nets before : List SerialNetworkLayer) (ports : ℕ → Port),
      s.networks = before ++ nets → ∃ es,
        Run (Threads.step fl crc) { idc := { s with ports := ports } } es
          { idc := { s with ports := (subscribeFirst id slot nets ports).2 } }
  | [], _, _, _ => ⟨[], Run.nil⟩
  | net :: nets, before, ports, hnets => by
      have hrest : s.networks = (before ++ [net]) ++ nets := by
        rw [hnets, List.append_assoc, List.singleton_append]
      rw [subscribeFirst, SerialNetworkLayer.subscribeOnPacket]
      cases hp : net.find id with
      | none => exact threads_subscribeFirst s id slot nets _ ports hrest
      | some p =>
          have hnet : s.networks[before.length]? = some net := by rw [hnets]; simp
          have hcall := @threads_call fl crc { s with ports := ports } _ net id p hnet hp
            (.subscribeOnPackets slot)
          dsimp only
          by_cases hcon : ((ports p).subscribeOnPackets slot).1 = true
          · rw [if_pos hcon]
            exact ⟨_, hcall⟩
          · rw [if_neg hcon]
            obtain ⟨es, hrun⟩ := threads_subscribeFirst s id slot nets _
              (Function.update ports p ((ports p).subscribeOnPackets slot).2) hrest
            exact ⟨_, hcall.trans hrun⟩

/-- A `receive`, when no other call comes in between. -/
lemma threads_receive {s s' : IDC} {p : ℕ} {beyond : ℕ → UInt8}
    (hstep : s.step fl crc (.port p (.link (.receive beyond))) s') :
    ∃ es, Run (Threads.step fl crc) { idc := s } es { idc := s' } := by
  obtain ⟨hlt, state, fired, ⟨hdelim, hrun⟩, hfired, rfl⟩ := hstep
  by_cases hactive : (s.ports p).state.handlerCanceled_ = false
  · have hcheck : Threads.step fl crc { idc := s } (.check p)
        { idc := s, receiving := Function.update (fun _ => false) p true } :=
      ⟨hlt, rfl, hdelim, by rw [hactive]; rfl⟩
    rw [SerialHandler.run_receive_active beyond hactive] at hrun
    have hquiet : (fun _ : ℕ => false) =
        Function.update (Function.update (fun _ => false) p true) p false := by simp
    have hrest : Threads.step fl crc
        { idc := s, receiving := Function.update (fun _ => false) p true } (.rest p beyond)
        { idc := s.fire p state fired } :=
      ⟨by simp, state, fired, hrun, hfired, by rw [← hquiet]⟩
    exact ⟨_, (Run.single hcheck).snoc hrest⟩
  · rw [Bool.not_eq_false] at hactive
    obtain rfl := SerialHandler.run_receive_canceled hactive hrun
    obtain rfl : fired = [] := List.self_eq_append_right.mp hfired
    have hsame : s.fire p (s.ports p).state [] = s := by
      simp only [fire, List.flatMap_nil, List.append_nil]
      rw [Function.update_eq_self]
    rw [hsame]
    exact ⟨[], Run.nil⟩

lemma threads_whole {s s' : IDC} {e : IDCEvent} (hstep : s.step fl crc e s') (hwhole : Whole e) :
    ∃ es, Run (Threads.step fl crc) { idc := s } es { idc := s' } :=
  ⟨[.whole e], Run.single ⟨hwhole, s', hstep, rfl⟩⟩

lemma threads_of_step {s s' : IDC} {e : IDCEvent} (hnone : s.transport = none)
    (hstep : s.step fl crc e s') :
    ∃ es, Run (Threads.step fl crc) { idc := s } es { idc := s' } := by
  cases e with
  | sendPacket id packet ack =>
      obtain ⟨transport, networks, ports, next, inbox⟩ := s
      obtain rfl : transport = none := hnone
      obtain rfl := hstep
      rw [sendPacket]
      by_cases hempty : networks.isEmpty = true
      · simp only [hempty, if_true]
        exact ⟨[], Run.nil⟩
      · simp only [hempty, Bool.false_eq_true, if_false]
        exact threads_sendAll ⟨none, networks, ports, next, inbox⟩ id packet networks [] false
          ports rfl
  | subscribeOnPacket id slot =>
      obtain ⟨transport, networks, ports, next, inbox⟩ := s
      obtain rfl : transport = none := hnone
      obtain rfl := hstep
      exact threads_subscribeFirst ⟨none, networks, ports, next, inbox⟩ id slot networks [] ports
        rfl
  | port p e =>
      cases e with
      | link e =>
          cases e with
          | arrive chunk => exact threads_whole hstep trivial
          | receive beyond => exact threads_receive hstep
      | complete i => exact threads_whole hstep trivial
      | failed => exact threads_whole hstep trivial
  | run i opens params => exact threads_whole hstep trivial
  | onSigInt i sig => exact threads_whole hstep trivial

lemma step_transport {s s' : IDC} {e : IDCEvent} (hs : s.WellFormed) (hstep : s.step fl crc e s') :
    s'.transport = s.transport := by
  cases e with
  | sendPacket id packet ack =>
      obtain rfl := hstep
      rw [sendPacket]
      cases htransport : s.transport with
      | some transport => exact htransport
      | none =>
          dsimp only
          split_ifs
          · exact htransport
          · rfl
  | subscribeOnPacket id slot =>
      obtain rfl := hstep
      rw [subscribeOnPacket]
      cases htransport : s.transport with
      | some transport => exact htransport
      | none => rfl
  | port p e =>
      obtain ⟨-, state, fired, -, -, rfl⟩ := hstep
      rfl
  | run i opens params =>
      obtain rfl := hstep
      exact (openPorts_opened i opens params hs).transport
  | onSigInt i sig =>
      obtain rfl := hstep
      rw [onSigInt]
      cases s.networks[i]? with
      | none => rfl
      | some net =>
          dsimp only
          split_ifs <;> rfl

/-- **Whole calls are calls of threads** that do not overlap. -/
theorem threads_of_run {s s' : IDC} {es : List IDCEvent} (hs : s.WellFormed)
    (hnone : s.transport = none) (hrun : Run (IDC.step fl crc) s es s') :
    ∃ es', Run (Threads.step fl crc) { idc := s } es' { idc := s' } := by
  suffices h : s'.WellFormed ∧ s'.transport = none ∧
      ∃ es', Run (Threads.step fl crc) { idc := s } es' { idc := s' } from h.2.2
  refine hrun.invariant (I := fun s' => s'.WellFormed ∧ s'.transport = none ∧
    ∃ es', Run (Threads.step fl crc) { idc := s } es' { idc := s' }) ⟨hs, hnone, [], Run.nil⟩ ?_
  rintro s₁ e s₂ ⟨hwf, htransport, before, hbefore⟩ hstep
  obtain ⟨after, hafter⟩ := threads_of_step htransport hstep
  exact ⟨step_wellFormed hwf hstep, (step_transport hwf hstep).trans htransport,
    before ++ after, hbefore.trans hafter⟩

/-! ## What one handler does -/

def callTo (p : ℕ) (c : ℕ × PortCall) : Option PortCall := if c.1 = p then some c.2 else none

/-- The calls in flight to a handler. -/
def Threads.pending (p : ℕ) (s : Threads) : List PortCall := s.calls.filterMap (callTo p)

lemma perm_pending {s : Threads} {k q : ℕ} {call : PortCall} (hk : s.calls[k]? = some (q, call))
    (idc : IDC) (p : ℕ) :
    (s.pending p).Perm ((if q = p then [call] else []) ++
      Threads.pending p { s with idc := idc, calls := s.calls.eraseIdx k }) := by
  obtain ⟨hlt, heq⟩ := List.getElem?_eq_some_iff.mp hk
  have hperm : s.calls.Perm ((q, call) :: s.calls.eraseIdx k) := by
    rw [← heq]
    exact (List.getElem_cons_eraseIdx_perm hlt).symm
  refine (hperm.filterMap _).trans (List.Perm.of_eq ?_)
  by_cases hq : q = p
  · have hto : callTo p (q, call) = some call := if_pos hq
    rw [if_pos hq, List.filterMap_cons_some hto]
    rfl
  · have hto : callTo p (q, call) = none := if_neg hq
    rw [if_neg hq, List.filterMap_cons_none hto]
    rfl

end IDC

def PortCall.packet? : PortCall → Option Packet
  | .sendPacket packet => some packet
  | .subscribeOnPackets _ => none

def PortCall.slot? : PortCall → Option ℕ
  | .sendPacket _ => none
  | .subscribeOnPackets slot => some slot

/-- A call of a user does not touch what is received. -/
lemma PortCall.finish_state (call : PortCall) (port : Port) :
    (call.finish fl crc port).state.frames = port.state.frames ∧
      (call.finish fl crc port).state.onPacket_ = port.state.onPacket_ ∧
      (call.finish fl crc port).state.handlerCanceled_ = port.state.handlerCanceled_ := by
  cases call with
  | sendPacket packet =>
      have hstep : port.handler.sending fl crc port.state (.sendPacket packet)
          (port.handler.sendPacket fl crc packet port.state).2 := rfl
      obtain ⟨-, -, hframes, hon, hcanceled⟩ := SerialHandler.sending_receives hstep
      exact ⟨hframes, hon, hcanceled⟩
  | subscribeOnPackets slot =>
      rw [finish, Port.subscribeOnPackets]
      split_ifs <;> exact ⟨rfl, rfl, rfl⟩

/-- What a handler with `before` receives in flight has received, now that `now` are: as many
frames as have come to their end, and from each of them a packet or none. -/
def SerialState.Receives (s₀ s : SerialState) (before now : ℕ) : Prop :=
  ∃ frames packets, s.frames = s₀.frames ++ frames ∧ s.onPacket_ = s₀.onPacket_ ++ packets ∧
    packets.length ≤ frames.length ∧ frames.length + now ≤ before

/-- What has become of a handler by the calls `finished`: it has the slots that they have connected,
and has handed the messages of the packets that they have sent to its line, as it does. -/
structure Port.Finishes (fl : FloatCast) (crc : Bytes → BitVec 16) (port₀ port : Port)
    (finished : List PortCall) : Prop where
  handler : port.handler = port₀.handler
  slots : port.slots = port₀.slots ++
    if IDC.canReceive port₀ then finished.filterMap PortCall.slot? else []
  sends : ∃ es state, Run (port₀.handler.sending fl crc) port₀.state es state ∧
    SerialHandler.SameSending port.state state ∧
    SerialHandler.messages fl port₀.handler crc es =
      (finished.filterMap PortCall.packet?).map (port₀.handler.message fl crc)

/-- The bytes that were handed to the line: transmitted, or in an outstanding write. -/
def SerialState.handed (s : SerialState) : ℕ := s.wire.length + (s.writes.map List.length).sum

/-- Completions hand over nothing. -/
lemma SerialHandler.handed_of_messages_nil {h : SerialHandler} {s s' : SerialState}
    {es : List SerialHandler.SendEvent} (hrun : Run (h.sending fl crc) s es s')
    (hnone : SerialHandler.messages fl h crc es = []) : s'.handed = s.handed := by
  refine hrun.induct (P := fun es s' => SerialHandler.messages fl h crc es = [] →
    s'.handed = s.handed) (fun _ => rfl) ?_ hnone
  intro es s' e s'' ih hstep hnil
  rw [SerialHandler.messages_append] at hnil
  obtain ⟨hbefore, hlast⟩ := List.append_eq_nil_iff.mp hnil
  cases e with
  | sendPacket packet => cases hlast
  | complete i =>
      obtain ⟨content, hi, rfl⟩ := hstep
      have hsum := SerialHandler.sum_lengths_eraseIdx hi
      rw [← ih hbefore, SerialState.handed, SerialState.handed]
      dsimp only
      rw [List.length_append]
      omega

namespace Port

variable {port₀ port : Port} {finished : List PortCall}

/-- A step of the handler that neither sends nor connects. -/
lemma Finishes.frame (hs : Finishes fl crc port₀ port finished) {state : SerialState}
    (hsame : SerialHandler.SameSending state port.state) :
    Finishes fl crc port₀ { port with state := state } finished := by
  obtain ⟨es, t, hrun, hsends, hmessages⟩ := hs.sends
  exact ⟨hs.handler, hs.slots, es, t, hrun, hsame.trans hsends, hmessages⟩

/-- A write has completed. -/
lemma Finishes.complete (hs : Finishes fl crc port₀ port finished) {state : SerialState} {i : ℕ}
    (hstep : port.handler.sending fl crc port.state (.complete i) state) :
    Finishes fl crc port₀ { port with state := state } finished := by
  obtain ⟨es, t, hrun, hsends, hmessages⟩ := hs.sends
  obtain ⟨t', hstep', hsends'⟩ := hsends.sending hstep
  rw [hs.handler] at hstep'
  refine ⟨hs.handler, hs.slots, _, t', hrun.snoc hstep', hsends', ?_⟩
  rw [SerialHandler.messages_append, hmessages]
  exact List.append_nil _

/-- A call was finished. -/
lemma Finishes.finish (hs : Finishes fl crc port₀ port finished) (call : PortCall) :
    Finishes fl crc port₀ (call.finish fl crc port) (finished ++ [call]) := by
  obtain ⟨es, t, hrun, hsends, hmessages⟩ := hs.sends
  cases call with
  | sendPacket packet =>
      have hstep : port.handler.sending fl crc port.state (.sendPacket packet)
          (port.handler.sendPacket fl crc packet port.state).2 := rfl
      obtain ⟨t', hstep', hsends'⟩ := hsends.sending hstep
      rw [hs.handler] at hstep'
      refine ⟨hs.handler, ?_, _, t', hrun.snoc hstep', hsends', ?_⟩
      · have hslot : [PortCall.sendPacket packet].filterMap PortCall.slot? = [] := rfl
        rw [List.filterMap_append, hslot, List.append_nil]
        exact hs.slots
      · rw [SerialHandler.messages_append, hmessages]
        simp [SerialHandler.messages, PortCall.packet?]
  | subscribeOnPackets slot =>
      have hdir : IDC.canReceive port = IDC.canReceive port₀ := by
        rw [IDC.canReceive, IDC.canReceive, hs.handler]
      rw [PortCall.finish, subscribeOnPackets]
      by_cases hsend : port.handler.direction_ = .send
      · have hcan : IDC.canReceive port₀ = false := by
          rw [← hdir, IDC.canReceive, hsend]
          rfl
        rw [if_pos hsend]
        refine ⟨hs.handler, ?_, es, t, hrun, hsends, ?_⟩
        · rw [hs.slots, hcan]
          rfl
        · rw [hmessages]
          simp [PortCall.packet?]
      · have hcan : IDC.canReceive port₀ = true := by
          rw [← hdir, IDC.canReceive]
          simpa using hsend
        rw [if_neg hsend]
        refine ⟨hs.handler, ?_, es, t, hrun, hsends, ?_⟩
        · dsimp only
          rw [hs.slots, hcan]
          simp [PortCall.slot?]
        · rw [hmessages]
          simp [PortCall.packet?]

end Port

namespace SerialState

variable {s₀ s s' : SerialState} {before now : ℕ}

lemma Receives.frame (hs : Receives s₀ s before now) (hframes : s'.frames = s.frames)
    (hon : s'.onPacket_ = s.onPacket_) : Receives s₀ s' before now := by
  obtain ⟨frames, packets, hcut, hfired, hle, hbefore⟩ := hs
  exact ⟨frames, packets, hframes.trans hcut, hon.trans hfired, hle, hbefore⟩

/-- The `receive` in flight comes to its end. -/
lemma Receives.rest (hs : Receives s₀ s before 1) (h : SerialHandler) (beyond : ℕ → UInt8)
    (line rest : Bytes) :
    Receives s₀ (SerialHandler.afterLine fl h crc beyond line rest s) before 0 := by
  obtain ⟨frames, packets, hcut, hfired, hle, hbefore⟩ := hs
  have hframes := @SerialHandler.afterLine_frames fl h crc beyond line rest s
  have hon := @SerialHandler.afterLine_onPacket fl crc h beyond line rest s
  generalize (h.packetString line s.packetBuffer_).1 = frame at hframes hon
  have hone : frame.toList.length ≤ 1 := by cases frame <;> simp
  have hverdict : (frame.bind (h.verdict fl crc beyond)).toList.length ≤ frame.toList.length := by
    cases frame with
    | none => exact le_rfl
    | some frame =>
        rw [Option.bind_some]
        cases h.verdict fl crc beyond frame <;> simp
  refine ⟨_, _, by rw [hframes, hcut, List.append_assoc], by rw [hon, hfired, List.append_assoc],
    ?_, ?_⟩
  · rw [List.length_append, List.length_append]
    exact Nat.add_le_add hle hverdict
  · rw [List.length_append]
    omega

end SerialState

namespace IDC

/-! ## After a termination signal -/

/-- A handler that was canceled and removed when the device was in state `s₀`: since then it has
done what was in flight, and no more. -/
structure Silenced (fl : FloatCast) (crc : Bytes → BitVec 16) (p : ℕ) (s₀ s : Threads) : Prop where
  wellFormed : s.idc.WellFormed
  transport : s.idc.transport = none
  lt_next : p < s.idc.next
  removed : p ∉ s.idc.table
  canceled : (s.idc.ports p).state.handlerCanceled_ = true
  receives : (s₀.idc.ports p).state.Receives (s.idc.ports p).state (s₀.receiving p).toNat
    (s.receiving p).toNat
  calls : ∃ finished, (s₀.pending p).Perm (finished ++ s.pending p) ∧
    Port.Finishes fl crc (s₀.idc.ports p) (s.idc.ports p) finished

variable {p : ℕ} {s₀ s s' : Threads}

lemma Silenced.not_mem_targets (hs : Silenced fl crc p s₀ s) (id : String) :
    p ∉ s.idc.targets id :=
  fun hp => hs.removed ((targets_sublist id s.idc.networks).mem hp)

/-- A step that leaves the handler and the calls of it alone, and does not enter it anywhere. -/
lemma Silenced.frame (hs : Silenced fl crc p s₀ s) (hwf : s'.idc.WellFormed)
    (htransport : s'.idc.transport = s.idc.transport) (hnext : s.idc.next ≤ s'.idc.next)
    (htable : p ∉ s'.idc.table) (hport : s'.idc.ports p = s.idc.ports p)
    (hreceiving : s'.receiving p = s.receiving p) (hcalls : (s.pending p).Perm (s'.pending p)) :
    Silenced fl crc p s₀ s' := by
  obtain ⟨finished, hperm, hfinishes⟩ := hs.calls
  refine ⟨hwf, htransport.trans hs.transport, hs.lt_next.trans_le hnext, htable, ?_, ?_, finished,
    hperm.trans (hcalls.append_left finished), ?_⟩
  · rw [hport]; exact hs.canceled
  · rw [hport, hreceiving]; exact hs.receives
  · rw [hport]; exact hfinishes

/-- What a canceled handler still does by itself: it takes in bytes, and its writes complete. -/
lemma silenced_port {e : PortEvent} {state : SerialState} {fired : List Packet}
    (hs : Silenced fl crc p s₀ s) (hwhole : Whole (.port p e))
    (hstep : (s.idc.ports p).handler.handling fl crc (s.idc.ports p).state e.handled state) :
    Silenced fl crc p s₀ { s with idc := s.idc.fire p state fired } := by
  obtain ⟨finished, hperm, hfinishes⟩ := hs.calls
  have hkeeps : state.handlerCanceled_ = (s.idc.ports p).state.handlerCanceled_ ∧
      state.frames = (s.idc.ports p).state.frames ∧
      state.onPacket_ = (s.idc.ports p).state.onPacket_ ∧
      Port.Finishes fl crc (s₀.idc.ports p) { s.idc.ports p with state := state } finished := by
    cases e with
    | link e =>
        cases e with
        | arrive chunk =>
            obtain rfl := hstep
            exact ⟨rfl, rfl, rfl, hfinishes.frame ⟨rfl, rfl, rfl⟩⟩
        | receive beyond => exact absurd hwhole id
    | complete i =>
        have hsending : (s.idc.ports p).handler.sending fl crc (s.idc.ports p).state (.complete i)
            state := hstep
        obtain ⟨-, -, hframes, hon, hcanceled⟩ := SerialHandler.sending_receives hsending
        exact ⟨hcanceled, hframes, hon, hfinishes.complete hsending⟩
    | failed =>
        obtain rfl := SerialHandler.run_receive_error hstep
        exact ⟨rfl, rfl, rfl, hfinishes⟩
  obtain ⟨hcanceled, hframes, hon, hfinishes'⟩ := hkeeps
  refine ⟨⟨hs.wellFormed.nodup, hs.wellFormed.fresh⟩, hs.transport, hs.lt_next, hs.removed, ?_, ?_,
    finished, hperm, ?_⟩ <;> rw [fire_ports_self]
  · exact hcanceled.trans hs.canceled
  · exact hs.receives.frame hframes hon
  · exact hfinishes'

lemma silenced_whole {e : IDCEvent} {idc : IDC} (hs : Silenced fl crc p s₀ s) (hwhole : Whole e)
    (hstep : s.idc.step fl crc e idc) : Silenced fl crc p s₀ { s with idc := idc } := by
  have hwf := step_wellFormed hs.wellFormed hstep
  cases e with
  | sendPacket id packet ack => exact absurd hwhole (fun h => h)
  | subscribeOnPacket id slot => exact absurd hwhole (fun h => h)
  | port q e =>
      obtain ⟨-, state, fired, hhandling, -, rfl⟩ := hstep
      by_cases hq : p = q
      · subst hq
        exact silenced_port hs hwhole hhandling
      · exact hs.frame hwf rfl le_rfl hs.removed (fire_ports_of_ne hq _ _ _) rfl (List.Perm.refl _)
  | run i opens params =>
      obtain rfl := hstep
      have hopened := openPorts_opened i opens params hs.wellFormed
      refine hs.frame hwf hopened.transport hopened.next (fun hp => ?_) (hopened.old p hs.lt_next)
        rfl (List.Perm.refl _)
      rcases hopened.table p hp with hold | hge
      · exact hs.removed hold
      · exact absurd hs.lt_next (Nat.not_lt.mpr hge)
  | onSigInt i sig =>
      have htransport := step_transport hs.wellFormed hstep
      obtain rfl := hstep
      rw [onSigInt] at hwf htransport ⊢
      cases hnet : s.idc.networks[i]? with
      | none => exact hs
      | some net =>
          rw [hnet] at hwf htransport
          dsimp only at hwf htransport ⊢
          split_ifs at hwf htransport ⊢ with hsig
          · have hsub := table_set_sublist s.idc.networks i
            have hnot : p ∉ net.handler_.map Prod.snd := fun hp =>
              hs.removed (List.mem_flatMap.mpr ⟨net, List.mem_of_getElem? hnet, hp⟩)
            exact hs.frame hwf htransport le_rfl (fun hp => hs.removed (hsub.mem hp))
              (if_neg hnot) rfl (List.Perm.refl _)
          · exact hs

lemma silenced_step {e : ThreadEvent} (hs : Silenced fl crc p s₀ s)
    (hstep : s.step fl crc e s') : Silenced fl crc p s₀ s' := by
  have hsame := List.Perm.refl (s.pending p)
  cases e with
  | whole e =>
      obtain ⟨hwhole, idc, hidc, rfl⟩ := hstep
      exact silenced_whole hs hwhole hidc
  | check q =>
      obtain ⟨-, hidle, -, rfl⟩ := hstep
      refine hs.frame hs.wellFormed rfl le_rfl hs.removed rfl ?_ hsame
      by_cases hq : p = q
      · -- it was canceled, so `receive` returns
        subst hq
        dsimp only
        rw [Function.update_self, hs.canceled, hidle]
        rfl
      · exact Function.update_of_ne hq _ _
  | rest q beyond =>
      obtain ⟨hbusy, state, fired, hrun, -, rfl⟩ := hstep
      have hwf : (s.idc.fire q state fired).WellFormed :=
        ⟨hs.wellFormed.nodup, hs.wellFormed.fresh⟩
      by_cases hq : p = q
      · subst hq
        rw [SerialHandler.run_receiveLine] at hrun
        obtain rfl := (EStateM.Result.ok.inj hrun).2
        obtain ⟨finished, hperm, hfinishes⟩ := hs.calls
        have hreceives := hs.receives
        rw [hbusy] at hreceives
        refine ⟨hwf, hs.transport, hs.lt_next, hs.removed, ?_, ?_, finished, hperm, ?_⟩ <;>
          dsimp only <;> rw [fire_ports_self]
        · rw [SerialHandler.afterLine_canceled]
          exact hs.canceled
        · rw [Function.update_self]
          exact hreceives.rest _ beyond _ _
        · exact hfinishes.frame (SerialHandler.sameSending_afterLine beyond _ _ _)
      · exact hs.frame hwf rfl le_rfl hs.removed (fire_ports_of_ne hq _ _ _)
          (Function.update_of_ne hq _ _) hsame
  | find i id call =>
      obtain ⟨net, q, hnet, hq, rfl⟩ := hstep
      have hne : q ≠ p := by
        rintro rfl
        exact hs.not_mem_targets id
          (List.mem_filterMap.mpr ⟨net, List.mem_of_getElem? hnet, hq⟩)
      have hto : [(q, call)].filterMap (callTo p) = [] :=
        List.filterMap_cons_none (if_neg hne)
      refine hs.frame hs.wellFormed rfl le_rfl hs.removed rfl rfl (List.Perm.of_eq ?_)
      rw [Threads.pending, Threads.pending, List.filterMap_append, hto, List.append_nil]
  | finish k =>
      obtain ⟨q, call, hk, rfl⟩ := hstep
      have hwf : (s.idc.finishCall fl crc q call).WellFormed :=
        ⟨hs.wellFormed.nodup, hs.wellFormed.fresh⟩
      have hpending := perm_pending hk (s.idc.finishCall fl crc q call) p
      by_cases hq : q = p
      · subst hq
        rw [if_pos rfl] at hpending
        obtain ⟨finished, hperm, hfinishes⟩ := hs.calls
        obtain ⟨hframes, hon, hcanceled⟩ := @PortCall.finish_state fl crc call (s.idc.ports q)
        refine ⟨hwf, hs.transport, hs.lt_next, hs.removed, ?_, ?_, finished ++ [call], ?_, ?_⟩
        · rw [finishCall_ports_self]
          exact hcanceled.trans hs.canceled
        · rw [finishCall_ports_self]
          exact hs.receives.frame hframes hon
        · rw [List.append_assoc]
          exact hperm.trans (hpending.append_left finished)
        · rw [finishCall_ports_self]
          exact hfinishes.finish call
      · rw [if_neg hq] at hpending
        exact hs.frame hwf rfl le_rfl hs.removed (finishCall_ports_of_ne (Ne.symm hq) _ _) rfl
          hpending

/-! ## What a slot hears -/

/-- The slot is not connected anew. -/
def NoConnection (slot : ℕ) : ThreadEvent → Prop
  | .whole _ => True
  | .check _ => True
  | .rest _ _ => True
  | .find _ _ call => call ≠ .subscribeOnPackets slot
  | .finish _ => True

lemma Whole.noSubscription {e : IDCEvent} (hwhole : Whole e) (slot : ℕ) :
    NoSubscription slot e := by
  cases e with
  | subscribeOnPacket id slot' => exact absurd hwhole (fun h => h)
  | sendPacket id packet ack => trivial
  | port p e => trivial
  | run i opens params => trivial
  | onSigInt i sig => trivial

variable {slot q : ℕ}

lemma hears_finishCall {s : IDC} (hs : Hears slot q s) {call : PortCall}
    (hcall : call ≠ .subscribeOnPackets slot) (p : ℕ) :
    Hears slot q (s.finishCall fl crc p call) ∧
      ((s.finishCall fl crc p call).ports q).state.onPacket_ = (s.ports q).state.onPacket_ := by
  have hcount : (call.finish fl crc (s.ports p)).slots.count slot =
      (s.ports p).slots.count slot := by
    cases call with
    | sendPacket packet => rfl
    | subscribeOnPackets slot' =>
        have hne : slot' ≠ slot := fun heq => hcall (heq ▸ rfl)
        rw [PortCall.finish, Port.subscribeOnPackets]
        split_ifs
        · rfl
        · rw [List.count_append, List.count_singleton, if_neg (by simpa using hne), Nat.add_zero]
  have hslots : ∀ r, ((s.finishCall fl crc p call).ports r).slots.count slot =
      (s.ports r).slots.count slot := by
    intro r
    by_cases hr : r = p
    · subst hr
      rw [finishCall_ports_self, hcount]
    · rw [finishCall_ports_of_ne hr]
  refine ⟨hs.of_slots ⟨hs.wellFormed.nodup, hs.wellFormed.fresh⟩ rfl le_rfl
    fun r => Or.inl (hslots r), ?_⟩
  by_cases hq : q = p
  · subst hq
    rw [finishCall_ports_self]
    exact (call.finish_state (s.ports q)).2.1
  · rw [finishCall_ports_of_ne hq]

/-- **One step** of a thread: the slot is called with the packets that its handler fires. -/
lemma hears_thread {e : ThreadEvent} (hs : Hears slot q s.idc)
    (hcalls : ∀ c ∈ s.calls, c.2 ≠ .subscribeOnPackets slot) (hno : NoConnection slot e)
    (hstep : s.step fl crc e s') :
    Hears slot q s'.idc ∧ (∀ c ∈ s'.calls, c.2 ≠ .subscribeOnPackets slot) ∧ ∃ fired,
      (s'.idc.ports q).state.onPacket_ = (s.idc.ports q).state.onPacket_ ++ fired ∧
        s'.idc.inbox slot = s.idc.inbox slot ++ fired := by
  cases e with
  | whole e =>
      obtain ⟨hwhole, idc, hidc, rfl⟩ := hstep
      obtain ⟨hears, hheard⟩ := hears_step hs (hwhole.noSubscription slot) hidc
      exact ⟨hears, hcalls, hheard⟩
  | check p =>
      obtain ⟨-, -, -, rfl⟩ := hstep
      exact ⟨hs, hcalls, [], by simp, by simp⟩
  | rest p beyond =>
      obtain ⟨-, state, fired, -, hfired, rfl⟩ := hstep
      obtain ⟨hears, hheard⟩ := hears_fire hs hfired
      exact ⟨hears, hcalls, hheard⟩
  | find i id call =>
      obtain ⟨net, p, -, -, rfl⟩ := hstep
      refine ⟨hs, fun c hc => ?_, [], by simp, by simp⟩
      rcases List.mem_append.mp hc with hc | hc
      · exact hcalls c hc
      · obtain rfl := List.mem_singleton.mp hc
        exact hno
  | finish k =>
      obtain ⟨p, call, hk, rfl⟩ := hstep
      obtain ⟨hears, hon⟩ := @hears_finishCall fl crc _ _ _ hs call
        (hcalls _ (List.mem_of_getElem? hk)) p
      exact ⟨hears, fun c hc => hcalls c ((List.eraseIdx_sublist _ _).mem hc), [],
        hon.trans (List.append_nil _).symm, (List.append_nil _).symm⟩

/-- **What a slot hears** in a run of threads is what its handler delivers. -/
theorem inbox_heard_threads {es : List ThreadEvent} (hrun : Run (Threads.step fl crc) s es s')
    (hs : Hears slot q s.idc) (hcalls : ∀ c ∈ s.calls, c.2 ≠ .subscribeOnPackets slot)
    (hno : ∀ e ∈ es, NoConnection slot e) : ∃ fired,
      (s'.idc.ports q).state.onPacket_ = (s.idc.ports q).state.onPacket_ ++ fired ∧
        s'.idc.inbox slot = s.idc.inbox slot ++ fired := by
  suffices h : Hears slot q s'.idc ∧ (∀ c ∈ s'.calls, c.2 ≠ .subscribeOnPackets slot) ∧ ∃ fired,
      (s'.idc.ports q).state.onPacket_ = (s.idc.ports q).state.onPacket_ ++ fired ∧
        s'.idc.inbox slot = s.idc.inbox slot ++ fired from h.2.2
  refine hrun.invariant_of (I := fun s' => Hears slot q s'.idc ∧
    (∀ c ∈ s'.calls, c.2 ≠ .subscribeOnPackets slot) ∧ ∃ fired,
      (s'.idc.ports q).state.onPacket_ = (s.idc.ports q).state.onPacket_ ++ fired ∧
        s'.idc.inbox slot = s.idc.inbox slot ++ fired) hno
    ⟨hs, hcalls, [], by simp, by simp⟩ ?_
  rintro s₁ e s₂ hno ⟨hears, hcalls, before, hon, hin⟩ hstep
  obtain ⟨hears', hcalls', fired, hon', hin'⟩ := hears_thread hears hcalls hno hstep
  exact ⟨hears', hcalls', before ++ fired, by rw [hon', hon, List.append_assoc],
    by rw [hin', hin, List.append_assoc]⟩

/-! ## The signal -/

/-- `onSigInt` of layer `i`, when it has returned. -/
def Threads.onSigInt (i sig : ℕ) (s : Threads) : Threads := { s with idc := s.idc.onSigInt i sig }

lemma not_mem_table_set {p : ℕ} {net : SerialNetworkLayer} (hp : p ∈ net.handler_.map Prod.snd) :
    ∀ {nets : List SerialNetworkLayer} {i : ℕ}, nets[i]? = some net →
      (nets.flatMap fun net => net.handler_.map Prod.snd).Nodup →
      p ∉ (nets.set i {}).flatMap fun net => net.handler_.map Prod.snd
  | [], i, hi, _ => by cases hi
  | first :: nets, 0, hi, hnodup => by
      obtain rfl := Option.some.inj hi
      rw [List.flatMap_cons] at hnodup
      rw [List.set_cons_zero, List.flatMap_cons]
      intro hmem
      exact (List.nodup_append.mp hnodup).2.2 p hp p hmem rfl
  | first :: nets, i + 1, hi, hnodup => by
      have hlater : p ∈ nets.flatMap fun net => net.handler_.map Prod.snd :=
        List.mem_flatMap.mpr ⟨net, List.mem_of_getElem? hi, hp⟩
      rw [List.flatMap_cons] at hnodup
      obtain ⟨-, hrest, hdisj⟩ := List.nodup_append.mp hnodup
      rw [List.set_cons_succ, List.flatMap_cons]
      intro hmem
      rcases List.mem_append.mp hmem with hmem | hmem
      · exact hdisj p hmem p hlater rfl
      · exact @not_mem_table_set p net hp nets i hi hrest hmem

lemma silenced_onSigInt (hs : s.idc.WellFormed) (hnone : s.idc.transport = none) {i sig : ℕ}
    {net : SerialNetworkLayer} (hnet : s.idc.networks[i]? = some net)
    (hsig : isTermination sig = true) (hp : p ∈ net.handler_.map Prod.snd) :
    Silenced fl crc p s (s.onSigInt i sig) := by
  have hmem : p ∈ s.idc.table := List.mem_flatMap.mpr ⟨net, List.mem_of_getElem? hnet, hp⟩
  have heq : s.idc.onSigInt i sig = { s.idc with
      ports := net.cancelHandlers s.idc.ports
      networks := s.idc.networks.set i {} } := by
    rw [onSigInt, hnet]
    simp only [hsig, if_true]
  have hport : (s.onSigInt i sig).idc.ports p =
      { s.idc.ports p with state := { (s.idc.ports p).state with handlerCanceled_ := true } } := by
    rw [Threads.onSigInt, heq]
    exact if_pos hp
  refine ⟨onSigInt_wellFormed hs i sig, ?_, ?_, ?_, ?_, ?_, [], List.Perm.refl _, ?_⟩
  · rw [Threads.onSigInt, heq]
    exact hnone
  · rw [Threads.onSigInt, heq]
    exact hs.fresh p hmem
  · rw [Threads.onSigInt, heq]
    exact not_mem_table_set hp hnet hs.nodup
  · rw [hport]
  · rw [hport]
    exact ⟨[], [], by simp, by simp, le_rfl, by simp [Threads.onSigInt]⟩
  · rw [hport]
    exact ⟨rfl, by simp, [], _, Run.nil, ⟨rfl, rfl, rfl⟩, rfl⟩

/-- Where nothing was in flight, nothing happens. -/
lemma Silenced.idle (hs : Silenced fl crc p s₀ s) (hreceiving : s₀.receiving p = false)
    (hpending : s₀.pending p = []) :
    (s.idc.ports p).state.onPacket_ = (s₀.idc.ports p).state.onPacket_ ∧
      (s.idc.ports p).state.frames = (s₀.idc.ports p).state.frames ∧
      (s.idc.ports p).state.handed = (s₀.idc.ports p).state.handed ∧
      (s.idc.ports p).slots = (s₀.idc.ports p).slots := by
  obtain ⟨frames, packets, hframes, hon, hle, hbefore⟩ := hs.receives
  obtain ⟨finished, hperm, hfinishes⟩ := hs.calls
  rw [hreceiving, Bool.toNat_false] at hbefore
  obtain rfl : frames = [] := List.eq_nil_of_length_eq_zero (by omega)
  obtain rfl : packets = [] := List.eq_nil_of_length_eq_zero (Nat.le_zero.mp hle)
  rw [hpending] at hperm
  obtain ⟨rfl, -⟩ := List.append_eq_nil_iff.mp hperm.nil_eq.symm
  obtain ⟨es, t, hrun, hsends, hmessages⟩ := hfinishes.sends
  refine ⟨by rw [hon, List.append_nil], by rw [hframes, List.append_nil], ?_, ?_⟩
  · rw [SerialState.handed, hsends.wire, hsends.writes, ← SerialState.handed]
    exact SerialHandler.handed_of_messages_nil hrun hmessages
  · rw [hfinishes.slots]
    simp

/-- **After `SIGINT` or `SIGTERM`** the handlers of a layer are silent, but for what was in flight.
From the return of `onSigInt` on, whatever the threads of the device do, a handler that the layer
had stays canceled and out of every layer; it cuts a frame and delivers a packet only in a `receive`
that was past its check, so one at most; it sends, and connects slots, only for calls that had found
it before, and each of them is finished once at most.  With nothing in flight it delivers nothing,
cuts no frame, hands nothing to its line and has no new slot.  A slot that is connected to it hears
what it still delivers, and nothing else. -/
theorem sigint_silences (fl : FloatCast) (crc : Bytes → BitVec 16) {s s' : Threads}
    (hs : s.idc.WellFormed) (hnone : s.idc.transport = none) {i sig : ℕ}
    {net : SerialNetworkLayer} (hnet : s.idc.networks[i]? = some net)
    (hsig : isTermination sig = true) {p : ℕ} (hp : p ∈ net.handler_.map Prod.snd)
    {es : List ThreadEvent} (hrun : Run (Threads.step fl crc) (s.onSigInt i sig) es s') :
    Silenced fl crc p s s' ∧
      (s.receiving p = false → s.pending p = [] →
        (s'.idc.ports p).state.onPacket_ = (s.idc.ports p).state.onPacket_ ∧
        (s'.idc.ports p).state.frames = (s.idc.ports p).state.frames ∧
        (s'.idc.ports p).state.handed = (s.idc.ports p).state.handed ∧
        (s'.idc.ports p).slots = (s.idc.ports p).slots) ∧
      ∀ slot, Hears slot p (s.onSigInt i sig).idc →
        (∀ c ∈ s.calls, c.2 ≠ .subscribeOnPackets slot) → (∀ e ∈ es, NoConnection slot e) →
        ∃ fired, (s'.idc.ports p).state.onPacket_ = (s.idc.ports p).state.onPacket_ ++ fired ∧
          s'.idc.inbox slot = s.idc.inbox slot ++ fired ∧
          fired.length ≤ (s.receiving p).toNat := by
  have hinit : Silenced fl crc p s (s.onSigInt i sig) :=
    silenced_onSigInt hs hnone hnet hsig hp
  have hfinal : Silenced fl crc p s s' :=
    hrun.invariant hinit fun _ _ _ hsil hstep => silenced_step hsil hstep
  refine ⟨hfinal, hfinal.idle, fun slot hhears hcalls hno => ?_⟩
  obtain ⟨fired, hon, hin⟩ := inbox_heard_threads hrun hhears hcalls hno
  obtain ⟨frames, packets, -, hpackets, hle, hbefore⟩ := hfinal.receives
  have hsame : (s.onSigInt i sig).idc.inbox = s.idc.inbox ∧
      ((s.onSigInt i sig).idc.ports p).state.onPacket_ = (s.idc.ports p).state.onPacket_ := by
    rw [Threads.onSigInt, onSigInt, hnet]
    simp only [hsig, if_true]
    rw [SerialNetworkLayer.cancelHandlers, if_pos hp]
    exact ⟨trivial, rfl⟩
  rw [hsame.2] at hon
  rw [hsame.1] at hin
  obtain rfl := List.append_cancel_left (hon.symm.trans hpackets)
  exact ⟨fired, hon, hin, by omega⟩

/-- A handler that has all of a message but its last line. -/
def samplePort : Port :=
  { sampleReceiver.ports 0 with
    state := { inBuffer_ := [45, 42], packetBuffer_ := [0, 0, 7, 42] } }

/-- The thread of this handler is past the check. -/
def sampleThreads : Threads where
  idc := { sampleReceiver with ports := Function.update sampleReceiver.ports 0 samplePort }
  receiving := Function.update (fun _ => false) 0 true

/-- The message is still delivered, and it is the last one. -/
theorem sigint_silences_sample : ∃ s', Run (Threads.step default fun _ => 0)
    (sampleThreads.onSigInt 0 2)
      [.rest 0 fun _ => 0, .whole (.port 0 (.link (.arrive [0, 0, 8, 42, 45, 42])))] s' ∧
    s'.idc.inbox 5 = [⟨[7]⟩] ∧ (s'.idc.inbox 5).length ≤ 1 := by
  have hport : (sampleThreads.onSigInt 0 2).idc.ports 0 =
      { samplePort with state := { samplePort.state with handlerCanceled_ := true } } := rfl
  have hrest : Threads.step default (fun _ => 0) (sampleThreads.onSigInt 0 2)
      (.rest 0 fun _ => 0)
      { sampleThreads.onSigInt 0 2 with
        idc := (sampleThreads.onSigInt 0 2).idc.fire 0
          (SerialHandler.afterLine default {} (fun _ => 0) (fun _ => 0) [45] []
            { samplePort.state with handlerCanceled_ := true }) [⟨[7]⟩]
        receiving := Function.update (sampleThreads.onSigInt 0 2).receiving 0 false } := by
    refine ⟨rfl, _, [⟨[7]⟩], SerialHandler.run_receiveLine _ _, ?_, rfl⟩
    decide +kernel
  have harrive : ∀ s : Threads, 0 < s.idc.next → Threads.step default (fun _ => 0) s
      (.whole (.port 0 (.link (.arrive [0, 0, 8, 42, 45, 42]))))
      { s with idc := s.idc.fire 0 { (s.idc.ports 0).state with
        inBuffer_ := (s.idc.ports 0).state.inBuffer_ ++ [0, 0, 8, 42, 45, 42] } [] } :=
    fun s hnext => ⟨trivial, _, ⟨hnext, _, [], rfl, (List.append_nil _).symm, rfl⟩, rfl⟩
  have hrun := (Run.single hrest).snoc (harrive _ Nat.one_pos)
  have hwf : sampleThreads.idc.WellFormed := sample_wellFormed rfl rfl
  have hhears : Hears 5 0 (sampleThreads.onSigInt 0 2).idc := by
    refine ⟨onSigInt_wellFormed hwf 0 2, rfl, Nat.one_pos, by decide, fun r hr => ?_⟩
    have hslots : ((sampleThreads.onSigInt 0 2).idc.ports r).slots = [] := by
      have hcancel : (sampleThreads.onSigInt 0 2).idc.ports r =
          SerialNetworkLayer.cancelHandlers ⟨[("gps", 0)]⟩ sampleThreads.idc.ports r := rfl
      rw [hcancel, SerialNetworkLayer.cancelHandlers, if_neg (by simpa using hr)]
      show (Function.update sampleReceiver.ports 0 samplePort r).slots = []
      rw [Function.update_of_ne hr]
      exact if_neg hr
    rw [hslots]
    rfl
  have hnet : sampleThreads.idc.networks[0]? = some ⟨[("gps", 0)]⟩ := rfl
  obtain ⟨-, -, hheard⟩ := sigint_silences default (fun _ => 0) hwf rfl hnet rfl (p := 0)
    (by decide) hrun
  obtain ⟨fired, -, hin, hone⟩ := hheard 5 hhears (by simp [sampleThreads])
    (by simp [NoConnection])
  refine ⟨_, hrun, by decide +kernel, ?_⟩
  rw [hin]
  exact hone

end IDC

end CpsCore

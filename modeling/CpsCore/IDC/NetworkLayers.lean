import Mathlib
import CpsCore.IDC.CrcGate

/-!
# `IDC` and its serial network layers

An `IDC` without a transport layer hands every packet to all of its network layers, and connects a
subscriber to the first that knows the id.  A `SerialNetworkLayer` has a `SerialHandler` for each
port; the handlers are objects on the heap, which the scheduler shares, so one that `onSigInt` has
removed from the layer lives on.

* `IDC.step` — the calls of a user, what the ports do on their own, and signals.
* `WellFormed` — no two entries share a handler.  Every step keeps it (`step_wellFormed`).
* `sendPacket_eq`, `subscribeOnPacket_eq` — which handlers a call reaches.
-/

namespace CpsCore

/-- A `SerialHandler` object, and the slots connected to its `onPacket_`. -/
structure Port where
  handler : SerialHandler := {}
  state : SerialState := {}
  slots : List ℕ := []

/-- What is there of `ITransportLayer`. -/
structure TransportLayer where
  send : String → Packet → Bool → Bool
  subscribeOnPacket : String → ℕ → Bool

structure SerialNetworkLayer where
  handler_ : List (String × ℕ) := []

/-- An `IDC` with what it has got.  `inbox` records what each slot was called with. -/
structure IDC where
  transport : Option TransportLayer := none
  networks : List SerialNetworkLayer := []
  ports : ℕ → Port := fun _ => {}
  next : ℕ := 0
  inbox : ℕ → List Packet := fun _ => []

/-! ## `SerialNetworkLayer` -/

def Port.subscribeOnPackets (port : Port) (slot : ℕ) : Bool × Port :=
  if port.handler.direction_ = .send then (false, port)
  else (true, { port with slots := port.slots ++ [slot] })

namespace SerialNetworkLayer

variable (fl : FloatCast) (crc : Bytes → BitVec 16)

/-- `handler_.find`. -/
def find (id : String) (net : SerialNetworkLayer) : Option ℕ := net.handler_.lookup id

def sendPacket (net : SerialNetworkLayer) (id : String) (packet : Packet) (ports : ℕ → Port) :
    Bool × (ℕ → Port) :=
  match net.find id with
  | none => (false, ports)
  | some p =>
      let sent := (ports p).handler.sendPacket fl crc packet (ports p).state
      (sent.1, Function.update ports p { ports p with state := sent.2 })

def subscribeOnPacket (net : SerialNetworkLayer) (id : String) (slot : ℕ) (ports : ℕ → Port) :
    Bool × (ℕ → Port) :=
  match net.find id with
  | none => (false, ports)
  | some p =>
      let con := (ports p).subscribeOnPackets slot
      (con.1, Function.update ports p con.2)

/-- `handler_.emplace`. -/
def emplace (net : SerialNetworkLayer) (id : String) (p : ℕ) : SerialNetworkLayer :=
  match net.find id with
  | none => ⟨(id, p) :: net.handler_⟩
  | some _ => net

/-- `cancelHandler` of every handler. -/
def cancelHandlers (net : SerialNetworkLayer) (ports : ℕ → Port) : ℕ → Port := fun p =>
  if p ∈ net.handler_.map Prod.snd then
    { ports p with state := { (ports p).state with handlerCanceled_ := true } }
  else ports p

end SerialNetworkLayer

/-! ## `IDC` -/

namespace IDC

variable (fl : FloatCast) (crc : Bytes → BitVec 16)

/-- `success |= net->sendPacket(id, packet)`, for all of them. -/
def sendAll (id : String) (packet : Packet) :
    List SerialNetworkLayer → Bool × (ℕ → Port) → Bool × (ℕ → Port)
  | [], acc => acc
  | net :: nets, acc =>
      let sent := net.sendPacket fl crc id packet acc.2
      sendAll id packet nets (acc.1 || sent.1, sent.2)

def sendPacket (id : String) (packet : Packet) (ack : Bool) (s : IDC) : Bool × IDC :=
  match s.transport with
  | some transport => (transport.send id packet ack, s)
  | none =>
      if s.networks.isEmpty then (false, s)
      else
        let sent := sendAll fl crc id packet s.networks (false, s.ports)
        (sent.1, { s with ports := sent.2 })

/-- The first network layer whose connection is connected. -/
def subscribeFirst (id : String) (slot : ℕ) :
    List SerialNetworkLayer → (ℕ → Port) → Bool × (ℕ → Port)
  | [], ports => (false, ports)
  | net :: nets, ports =>
      let con := net.subscribeOnPacket id slot ports
      if con.1 then con else subscribeFirst id slot nets con.2

def subscribeOnPacket (id : String) (slot : ℕ) (s : IDC) : Bool × IDC :=
  match s.transport with
  | some transport => (transport.subscribeOnPacket id slot, s)
  | none =>
      let con := subscribeFirst id slot s.networks s.ports
      (con.1, { s with ports := con.2 })

/-- `SerialNetworkLayer::run(INIT)` over the parameters of its ports, from the one that is next.
`opens` says which of them the system lets open. -/
def openPorts (i : ℕ) (opens : String → Bool) : List (String × SerialHandler) → IDC → Bool × IDC
  | [], s => (false, s)
  | it :: its, s =>
      if opens it.1 then
        openPorts i opens its { s with
          networks := s.networks.modify i fun net => net.emplace it.1 s.next
          ports := Function.update s.ports s.next { handler := it.2 }
          next := s.next + 1 }
      else (true, s)

def isTermination (sig : ℕ) : Bool := sig == 2 || sig == 15

/-- `SerialNetworkLayer::onSigInt` of layer `i`. -/
def onSigInt (i sig : ℕ) (s : IDC) : IDC :=
  match s.networks[i]? with
  | none => s
  | some net =>
      if isTermination sig then
        { s with
          ports := net.cancelHandlers s.ports
          networks := s.networks.set i {} }
      else s

/-- A port after a step of its own, in which `onPacket_` was fired with the packets `fired`. -/
def fire (p : ℕ) (state : SerialState) (fired : List Packet) (s : IDC) : IDC :=
  { s with
    ports := Function.update s.ports p { s.ports p with state := state }
    inbox := fun slot => s.inbox slot ++
      fired.flatMap fun packet => List.replicate ((s.ports p).slots.count slot) packet }

end IDC

/-- What happens to a handler without the `IDC`. -/
inductive PortEvent
  | link (e : SerialHandler.LinkEvent)
  | complete (i : ℕ)
  | failed

def PortEvent.handled : PortEvent → SerialHandler.HandlerEvent
  | .link e => .link e
  | .complete i => .sending (.complete i)
  | .failed => .failed

inductive IDCEvent
  | sendPacket (id : String) (packet : Packet) (ack : Bool)
  | subscribeOnPacket (id : String) (slot : ℕ)
  | port (p : ℕ) (e : PortEvent)
  | run (i : ℕ) (opens : String → Bool) (params : List (String × SerialHandler))
  | onSigInt (i sig : ℕ)

namespace IDC

def step (fl : FloatCast) (crc : Bytes → BitVec 16) (s : IDC) : IDCEvent → IDC → Prop
  | .sendPacket id packet ack, s' => s' = (s.sendPacket fl crc id packet ack).2
  | .subscribeOnPacket id slot, s' => s' = (s.subscribeOnPacket id slot).2
  | .port p e, s' => p < s.next ∧ ∃ state fired,
      (s.ports p).handler.handling fl crc (s.ports p).state e.handled state ∧
        state.onPacket_ = (s.ports p).state.onPacket_ ++ fired ∧ s' = s.fire p state fired
  | .run i opens params, s' => s' = (s.openPorts i opens params).2
  | .onSigInt i sig, s' => s' = s.onSigInt i sig

variable {fl : FloatCast} {crc : Bytes → BitVec 16}

/-! ## Which handlers a call reaches -/

/-- The handlers of all layers. -/
def table (s : IDC) : List ℕ := s.networks.flatMap fun net => net.handler_.map Prod.snd

/-- The handlers for an id, one for each layer that knows it. -/
def targets (s : IDC) (id : String) : List ℕ := s.networks.filterMap (·.find id)

/-- No two entries share a handler, and the next one is a new one. -/
structure WellFormed (s : IDC) : Prop where
  nodup : s.table.Nodup
  fresh : ∀ p ∈ s.table, p < s.next

lemma mem_of_find {net : SerialNetworkLayer} {id : String} {p : ℕ} (h : net.find id = some p) :
    (id, p) ∈ net.handler_ := by
  obtain ⟨before, after, heq, -⟩ := List.lookup_eq_some_iff.mp h
  rw [heq]
  simp

lemma targets_sublist (id : String) (nets : List SerialNetworkLayer) :
    List.Sublist (nets.filterMap (·.find id))
      (nets.flatMap fun net => net.handler_.map Prod.snd) := by
  induction nets with
  | nil => exact List.Sublist.refl _
  | cons net nets ih =>
      rw [List.flatMap_cons]
      cases hp : net.find id with
      | none =>
          rw [List.filterMap_cons_none hp]
          exact ih.trans (List.sublist_append_right _ _)
      | some p =>
          rw [List.filterMap_cons_some hp]
          have hmem : p ∈ net.handler_.map Prod.snd := List.mem_map_of_mem (mem_of_find hp)
          exact (List.singleton_sublist.mpr hmem).append ih

lemma WellFormed.nodup_targets {s : IDC} (hs : s.WellFormed) (id : String) :
    (s.targets id).Nodup :=
  hs.nodup.sublist (targets_sublist id s.networks)

lemma WellFormed.lt_next {s : IDC} (hs : s.WellFormed) {id : String} {p : ℕ}
    (hp : p ∈ s.targets id) : p < s.next :=
  hs.fresh p ((targets_sublist id s.networks).mem hp)

/-- An entry with this handler. -/
lemma exists_entry {id : String} {nets : List SerialNetworkLayer} {p : ℕ}
    (hp : p ∈ nets.filterMap (·.find id)) :
    (id, p) ∈ nets.flatMap SerialNetworkLayer.handler_ := by
  obtain ⟨net, hnet, hid⟩ := List.mem_filterMap.mp hp
  exact List.mem_flatMap.mpr ⟨net, hnet, mem_of_find hid⟩

/-- A handler has one id. -/
lemma WellFormed.id_unique {s : IDC} (hs : s.WellFormed) {id id' : String} {p : ℕ}
    (hp : p ∈ s.targets id) (hp' : p ∈ s.targets id') : id = id' := by
  have hnodup : ((s.networks.flatMap SerialNetworkLayer.handler_).map Prod.snd).Nodup := by
    rw [List.map_flatMap]
    exact hs.nodup
  exact congrArg Prod.fst
    (List.inj_on_of_nodup_map hnodup (exists_entry hp) (exists_entry hp') rfl)

/-- Whether the handler sends at all. -/
def canSend (port : Port) : Bool := decide (port.handler.direction_ ≠ .receive)

/-- A handler after a call of its `sendPacket`. -/
def sent (fl : FloatCast) (crc : Bytes → BitVec 16) (packet : Packet) (port : Port) : Port :=
  { port with state := (port.handler.sendPacket fl crc packet port.state).2 }

lemma sendPacket_fst (packet : Packet) (port : Port) :
    (port.handler.sendPacket fl crc packet port.state).1 = canSend port := by
  rw [SerialHandler.sendPacket, canSend]
  by_cases hdir : port.handler.direction_ = .receive
  · simp [hdir]
  · rw [if_neg hdir]
    split_ifs <;> simp [hdir]

lemma sendAll_eq (id : String) (packet : Packet) : ∀ (nets : List SerialNetworkLayer)
    (ok : Bool) (ports : ℕ → Port), (nets.filterMap (·.find id)).Nodup →
    sendAll fl crc id packet nets (ok, ports) =
      (ok || (nets.filterMap (·.find id)).any fun p => canSend (ports p),
        fun q => if q ∈ nets.filterMap (·.find id) then sent fl crc packet (ports q) else ports q)
  | [], ok, ports, _ => by simp [sendAll]
  | net :: nets, ok, ports, hnodup => by
      cases hp : net.find id with
      | none =>
          have hsame : net.sendPacket fl crc id packet ports = (false, ports) := by
            rw [SerialNetworkLayer.sendPacket, hp]
          rw [List.filterMap_cons_none hp] at hnodup ⊢
          rw [sendAll, hsame, Bool.or_false]
          exact sendAll_eq id packet nets ok ports hnodup
      | some p =>
          have hsent : net.sendPacket fl crc id packet ports =
              (canSend (ports p), Function.update ports p (sent fl crc packet (ports p))) := by
            rw [SerialNetworkLayer.sendPacket, hp, ← @sendPacket_fst fl crc packet]
            rfl
          have hcan : ∀ q, canSend (Function.update ports p (sent fl crc packet (ports p)) q) =
              canSend (ports q) := by
            intro q
            by_cases hqp : q = p
            · rw [hqp, Function.update_self]
              rfl
            · rw [Function.update_of_ne hqp]
          rw [List.filterMap_cons_some hp] at hnodup ⊢
          obtain ⟨hnew, hnodup⟩ := List.nodup_cons.mp hnodup
          rw [sendAll, hsent, sendAll_eq id packet nets _ _ hnodup, Prod.mk.injEq]
          constructor
          · rw [List.any_cons, Bool.or_assoc, List.any_congr rfl hcan]
          · funext q
            dsimp only
            by_cases hqp : q = p
            · rw [hqp, if_neg hnew, if_pos List.mem_cons_self, Function.update_self]
            · rw [Function.update_of_ne hqp]
              refine if_congr ?_ rfl rfl
              rw [List.mem_cons]
              exact (or_iff_right hqp).symm

/-- **Where a packet goes**: to one handler of each layer that knows the id, whatever the others
did with it.  The call succeeds if one of them sends. -/
theorem sendPacket_eq {s : IDC} (hs : s.WellFormed) (hnet : s.transport = none) (id : String)
    (packet : Packet) (ack : Bool) :
    s.sendPacket fl crc id packet ack =
      ((s.targets id).any fun p => canSend (s.ports p),
        { s with ports := fun q =>
            if q ∈ s.targets id then sent fl crc packet (s.ports q) else s.ports q }) := by
  rw [sendPacket, hnet]
  by_cases hempty : s.networks = []
  · obtain ⟨transport, networks, ports, next, inbox⟩ := s
    obtain rfl : transport = none := hnet
    obtain rfl : networks = [] := hempty
    simp [targets]
  · have hfalse : s.networks.isEmpty = false := by simpa using hempty
    simp only [hfalse, Bool.false_eq_true, if_false]
    rw [sendAll_eq id packet s.networks false s.ports (hs.nodup_targets id), Bool.false_or]
    rfl

/-! ## Subscribers -/

def canReceive (port : Port) : Bool := decide (port.handler.direction_ ≠ .send)

/-- A handler with one more slot. -/
def connected (slot : ℕ) (port : Port) : Port := { port with slots := port.slots ++ [slot] }

/-- The handler that a subscriber to `id` is connected to. -/
def receiver (s : IDC) (id : String) : Option ℕ :=
  (s.targets id).find? fun p => canReceive (s.ports p)

lemma subscribeFirst_eq (id : String) (slot : ℕ) : ∀ (nets : List SerialNetworkLayer)
    (ports : ℕ → Port), subscribeFirst id slot nets ports =
      ((nets.filterMap (·.find id)).find? fun p => canReceive (ports p)).elim (false, ports)
        fun p => (true, Function.update ports p (connected slot (ports p)))
  | [], ports => rfl
  | net :: nets, ports => by
      have ih := subscribeFirst_eq id slot nets ports
      rw [subscribeFirst, SerialNetworkLayer.subscribeOnPacket]
      cases hp : net.find id with
      | none =>
          rw [List.filterMap_cons_none hp]
          exact ih
      | some p =>
          rw [List.filterMap_cons_some hp]
          by_cases hdir : (ports p).handler.direction_ = .send
          · have hcon : (ports p).subscribeOnPackets slot = (false, ports p) := if_pos hdir
            rw [List.find?_cons_of_neg (by simp [canReceive, hdir])]
            simpa [hcon, Function.update_eq_self] using ih
          · have hcon : (ports p).subscribeOnPackets slot =
                (true, connected slot (ports p)) := if_neg hdir
            rw [List.find?_cons_of_pos (by simp [canReceive, hdir])]
            simp [hcon]

/-- **Whom a subscriber listens to**: one handler, of the first layer that has one which
receives. -/
theorem subscribeOnPacket_eq {s : IDC} (hnet : s.transport = none) (id : String) (slot : ℕ) :
    s.subscribeOnPacket id slot = (s.receiver id).elim (false, s) fun p =>
      (true, { s with ports := Function.update s.ports p (connected slot (s.ports p)) }) := by
  rw [subscribeOnPacket, hnet]
  dsimp only
  rw [subscribeFirst_eq, ← targets, ← receiver]
  cases s.receiver id with
  | none =>
      obtain ⟨transport, networks, ports, next, inbox⟩ := s
      obtain rfl : transport = none := hnet
      rfl
  | some p =>
      obtain ⟨transport, networks, ports, next, inbox⟩ := s
      obtain rfl : transport = none := hnet
      rfl

@[simp] lemma fire_ports_self (p : ℕ) (state : SerialState) (fired : List Packet) (s : IDC) :
    (s.fire p state fired).ports p = { s.ports p with state := state } :=
  Function.update_self _ _ _

lemma fire_ports_of_ne {p q : ℕ} (hq : q ≠ p) (state : SerialState) (fired : List Packet)
    (s : IDC) : (s.fire p state fired).ports q = s.ports q :=
  Function.update_of_ne hq _ _

/-! ## The layers over a run -/

lemma find_emplace {net : SerialNetworkLayer} {id : String} {p : ℕ} (h : net.find id = some p)
    (id' : String) (q : ℕ) : (net.emplace id' q).find id = some p := by
  rw [SerialNetworkLayer.emplace]
  cases hid' : net.find id' with
  | some r => exact h
  | none =>
      have hne : (id == id') = false := by
        rw [beq_eq_false_iff_ne]
        rintro rfl
        rw [hid'] at h
        cases h
      show ((id', q) :: net.handler_).lookup id = some p
      rw [List.lookup_cons, hne]
      exact h

lemma table_emplace (id : String) (p : ℕ) : ∀ (nets : List SerialNetworkLayer) (i : ℕ),
    ((nets.modify i (·.emplace id p)).flatMap fun net => net.handler_.map Prod.snd) =
        (nets.flatMap fun net => net.handler_.map Prod.snd) ∨
      ((nets.modify i (·.emplace id p)).flatMap fun net => net.handler_.map Prod.snd).Perm
        (p :: nets.flatMap fun net => net.handler_.map Prod.snd)
  | [], i => Or.inl (by rw [List.modify_nil])
  | net :: nets, 0 => by
      rw [List.modify_zero_cons, List.flatMap_cons, List.flatMap_cons]
      cases hid : net.find id with
      | some r =>
          have hsame : net.emplace id p = net := by rw [SerialNetworkLayer.emplace, hid]
          exact Or.inl (by rw [hsame])
      | none =>
          have hnew : net.emplace id p = ⟨(id, p) :: net.handler_⟩ := by
            rw [SerialNetworkLayer.emplace, hid]
          rw [hnew, List.map_cons, List.cons_append]
          exact Or.inr (List.Perm.refl _)
  | net :: nets, i + 1 => by
      rw [List.modify_succ_cons, List.flatMap_cons, List.flatMap_cons]
      rcases table_emplace id p nets i with hsame | hperm
      · exact Or.inl (by rw [hsame])
      · exact Or.inr ((hperm.append_left _).trans List.perm_middle)

lemma mem_targets_emplace {id : String} {p : ℕ} (id' : String) (q : ℕ) :
    ∀ (nets : List SerialNetworkLayer) (i : ℕ), p ∈ nets.filterMap (·.find id) →
      p ∈ (nets.modify i (·.emplace id' q)).filterMap (·.find id)
  | [], i, h => absurd h (by simp)
  | net :: nets, i, h => by
      obtain ⟨found, hfound, hp⟩ := List.mem_filterMap.mp h
      cases i with
      | zero =>
          rw [List.modify_zero_cons]
          rcases List.mem_cons.mp hfound with rfl | hfound
          · exact List.mem_filterMap.mpr ⟨_, List.mem_cons_self, find_emplace hp id' q⟩
          · exact List.mem_filterMap.mpr ⟨found, List.mem_cons_of_mem _ hfound, hp⟩
      | succ i =>
          rw [List.modify_succ_cons]
          rcases List.mem_cons.mp hfound with rfl | hfound
          · exact List.mem_filterMap.mpr ⟨_, List.mem_cons_self, hp⟩
          · obtain ⟨found', hfound', hp'⟩ := List.mem_filterMap.mp
              (mem_targets_emplace id' q nets i (List.mem_filterMap.mpr ⟨found, hfound, hp⟩))
            exact List.mem_filterMap.mpr ⟨found', List.mem_cons_of_mem _ hfound', hp'⟩

/-- What `run(INIT)` of a layer leaves behind. -/
structure Opened (s s' : IDC) : Prop where
  wellFormed : s'.WellFormed
  transport : s'.transport = s.transport
  inbox : s'.inbox = s.inbox
  next : s.next ≤ s'.next
  targets : ∀ id, ∀ p ∈ s.targets id, p ∈ s'.targets id
  old : ∀ q < s.next, s'.ports q = s.ports q
  new : ∀ q, s.next ≤ q → s'.ports q = s.ports q ∨ (s'.ports q).slots = []
  table : ∀ p ∈ s'.table, p ∈ s.table ∨ s.next ≤ p

lemma openPorts_opened (i : ℕ) (opens : String → Bool) :
    ∀ (its : List (String × SerialHandler)) {s : IDC}, s.WellFormed →
      Opened s (s.openPorts i opens its).2
  | [], s, hs => ⟨hs, rfl, rfl, le_rfl, fun _ _ h => h, fun _ _ => rfl, fun _ _ => Or.inl rfl,
      fun _ h => Or.inl h⟩
  | it :: its, s, hs => by
      rw [openPorts]
      by_cases hopen : opens it.1 = true
      · rw [if_pos hopen]
        have hcases := table_emplace it.1 s.next s.networks i
        -- the new handler is at an address that no entry has
        have hnew : s.next ∉ s.table := fun hmem => absurd (hs.fresh _ hmem) (lt_irrefl _)
        have htable : ∀ p ∈ (s.networks.modify i (·.emplace it.1 s.next)).flatMap
            (fun net => net.handler_.map Prod.snd), p ∈ s.table ∨ p = s.next := by
          intro p hp
          rcases hcases with hsame | hperm
          · rw [hsame] at hp
            exact Or.inl hp
          · exact (List.mem_cons.mp (hperm.mem_iff.mp hp)).symm
        have hwf : WellFormed { s with
            networks := s.networks.modify i (·.emplace it.1 s.next)
            ports := Function.update s.ports s.next { handler := it.2 }
            next := s.next + 1 } := by
          refine ⟨?_, fun p hp => ?_⟩
          · rcases hcases with hsame | hperm
            · show (List.flatMap _ _).Nodup
              rw [hsame]
              exact hs.nodup
            · exact hperm.nodup_iff.mpr (List.nodup_cons.mpr ⟨hnew, hs.nodup⟩)
          · rcases htable p hp with hold | rfl
            · exact Nat.lt_succ_of_lt (hs.fresh p hold)
            · exact Nat.lt_succ_self _
        obtain ⟨hwf', htransport, hinbox, hnext, htargets, hold, hnewports, htable'⟩ :=
          openPorts_opened i opens its hwf
        refine ⟨hwf', htransport, hinbox, (Nat.le_succ _).trans hnext, ?_, ?_, ?_, ?_⟩
        · exact fun id p hp => htargets id p (mem_targets_emplace it.1 s.next s.networks i hp)
        · intro q hq
          rw [hold q (Nat.lt_succ_of_lt hq)]
          exact Function.update_of_ne hq.ne _ _
        · intro q hq
          rcases Nat.eq_or_lt_of_le hq with rfl | hlt
          · right
            rw [hold _ (Nat.lt_succ_self _)]
            simp
          · refine (hnewports q hlt).imp_left fun heq => heq.trans ?_
            exact Function.update_of_ne hlt.ne' _ _
        · intro p hp
          rcases htable' p hp with hmem | hle
          · exact (htable p hmem).imp_right fun heq => heq.ge
          · exact Or.inr ((Nat.le_succ _).trans hle)
      · rw [if_neg hopen]
        exact ⟨hs, rfl, rfl, le_rfl, fun _ _ h => h, fun _ _ => rfl, fun _ _ => Or.inl rfl,
          fun _ h => Or.inl h⟩

lemma table_set_sublist : ∀ (nets : List SerialNetworkLayer) (i : ℕ),
    List.Sublist ((nets.set i {}).flatMap fun net => net.handler_.map Prod.snd)
      (nets.flatMap fun net => net.handler_.map Prod.snd)
  | [], i => List.Sublist.refl _
  | net :: nets, 0 => by
      rw [List.set_cons_zero, List.flatMap_cons, List.flatMap_cons]
      exact List.sublist_append_right _ _
  | net :: nets, i + 1 => by
      rw [List.set_cons_succ, List.flatMap_cons, List.flatMap_cons]
      exact (List.Sublist.refl _).append (table_set_sublist nets i)

lemma onSigInt_wellFormed {s : IDC} (hs : s.WellFormed) (i sig : ℕ) :
    (s.onSigInt i sig).WellFormed := by
  rw [onSigInt]
  cases s.networks[i]? with
  | none => exact hs
  | some net =>
      by_cases hsig : isTermination sig = true
      · simp only [hsig, if_true]
        have hsub := table_set_sublist s.networks i
        exact ⟨hs.nodup.sublist hsub, fun p hp => hs.fresh p (hsub.mem hp)⟩
      · simp only [hsig]
        exact hs

/-- The calls of a user leave the layers alone. -/
lemma step_wellFormed {s s' : IDC} {e : IDCEvent} (hs : s.WellFormed)
    (hstep : s.step fl crc e s') : s'.WellFormed := by
  cases e with
  | sendPacket id packet ack =>
      obtain rfl := hstep
      rw [sendPacket]
      cases s.transport with
      | some transport => exact hs
      | none =>
          dsimp only
          split_ifs <;> exact ⟨hs.nodup, hs.fresh⟩
  | subscribeOnPacket id slot =>
      obtain rfl := hstep
      rw [subscribeOnPacket]
      cases s.transport with
      | some transport => exact hs
      | none => exact ⟨hs.nodup, hs.fresh⟩
  | port p e =>
      obtain ⟨-, state, fired, -, -, rfl⟩ := hstep
      exact ⟨hs.nodup, hs.fresh⟩
  | run i opens params =>
      obtain rfl := hstep
      exact (openPorts_opened i opens params hs).wellFormed
  | onSigInt i sig =>
      obtain rfl := hstep
      exact onSigInt_wellFormed hs i sig

end IDC

end CpsCore

import Mathlib
import CpsCore.IPC.SharedMemory

/-!
# What a shared-memory listener delivers

A listener delivers only packets whose `publish` has returned true, in their order, each at most
once and none torn, whatever the interleaving.

* `Channel.written`: the packets that have been published, and the one of a publisher that has
  copied it and still has the lock.
* `Listener.Inv`: a listener that has been notified has not delivered the last packet written,
  unless the object is inactive.
* `Channel.Inv`: that, who has the lock, and that the last packet written is what is in memory.
-/

namespace CpsCore.SharedMemory

/-! ## Written -/

/-- A thread between `lock` and `unlock`. -/
@[simp] def PublisherPc.holds : PublisherPc → Bool
  | .setSize _ | .memcpy _ _ | .deactivate | .notify _ | .unlock _ => true
  | _ => false

/-- The packet a thread has copied and not yet returned for. -/
@[simp] def PublisherPc.pending : PublisherPc → Option Packet
  | .notify packet | .unlock packet => packet
  | _ => none

lemma PublisherPc.pending_of_not_holds {pc : PublisherPc} (h : pc.holds ≠ true) :
    pc.pending = none := by
  cases pc <;> simp_all

/-- The packets written as a whole, the last of them possibly not yet returned for. -/
def Channel.written {ω ι : Type} (s : Channel ω ι) : List Packet :=
  match s.message.mtx with
  | .exclusive w => s.published ++ (s.publisher w).pending.toList
  | .shared _ => s.published

lemma Channel.written_exclusive {ω ι : Type} {s : Channel ω ι} {w : ω}
    (h : s.message.mtx = .exclusive w) :
    s.written = s.published ++ (s.publisher w).pending.toList := by
  simp [written, h]

lemma Channel.written_shared {ω ι : Type} {s : Channel ω ι} {owners : Finset ι}
    (h : s.message.mtx = .shared owners) : s.written = s.published := by
  simp [written, h]

/-- What is in memory is this packet. -/
def MessageObject.Shows {ω ι : Type} (m : MessageObject ω ι) (packet : Packet) : Prop :=
  m.packetSize = packet.getSize ∧ m.bytes.take m.packetSize = packet.buffer_

/-! ## A thread of the publisher -/

@[simp] def PublisherPc.Inv {ω ι : Type} (m : MessageObject ω ι) : PublisherPc → Prop
  | .lock packet | .setSize packet => packet.getSize ≤ m.maxPacketSize
  | .memcpy packet copied => packet.getSize ≤ m.maxPacketSize ∧ m.packetSize = packet.getSize ∧
      copied ≤ packet.getSize ∧ m.bytes.take copied = packet.buffer_.take copied
  | .notify none | .unlock none => m.active = false
  | _ => True

/-- A thread that has not got the lock knows nothing of what is in memory. -/
lemma PublisherPc.Inv.other {ω ι : Type} {m m' : MessageObject ω ι} {pc : PublisherPc}
    (h : pc.Inv m) (hfree : pc.holds = false) (hmax : m'.maxPacketSize = m.maxPacketSize) :
    pc.Inv m' := by
  cases pc <;> simp_all

/-- Nor does it matter to a thread who has the lock. -/
lemma PublisherPc.Inv.relock {ω ι : Type} {m : MessageObject ω ι} {mtx : SharableMutex ω ι}
    {pc : PublisherPc} (h : pc.Inv m) : pc.Inv { m with mtx := mtx } := by
  unfold PublisherPc.Inv at h ⊢
  exact h

lemma take_set_succ {bytes buffer : Bytes} {copied : ℕ} {byte : UInt8}
    (hbyte : buffer[copied]? = some byte) (hlt : copied < bytes.length)
    (h : bytes.take copied = buffer.take copied) :
    (bytes.set copied byte).take (copied + 1) = buffer.take (copied + 1) := by
  have hset : (bytes.set copied byte)[copied]? = some byte := by simp [hlt]
  rw [List.take_add_one, List.take_add_one, hset, hbyte, List.take_set_of_le le_rfl, h]

/-- A packet that has been copied is what is in memory. -/
lemma PublisherPc.Inv.shows {ω ι : Type} {m : MessageObject ω ι} {packet : Packet}
    (h : (PublisherPc.memcpy packet packet.getSize).Inv m) : m.Shows packet := by
  obtain ⟨-, hsize, -, htake⟩ := h
  refine ⟨hsize, ?_⟩
  rw [hsize, htake]
  exact List.take_length

/-- **One step of the publisher** keeps what its thread knows. -/
theorem PublisherStep.inv {ω ι : Type} {max : ℕ} {w : ω} {m m' : MessageObject ω ι}
    {pc pc' : PublisherPc} {wake : Bool} {returned : Option Packet}
    (hstep : PublisherStep max w m pc m' pc' wake returned) (h : pc.Inv m)
    (hmax : m.maxPacketSize = max) (hbytes : m.bytes.length = max) : pc'.Inv m' := by
  subst hmax
  cases hstep with
  | tooBig packet _ => trivial
  | publish packet hsize => simpa using hsize
  | lock _ => simpa using h
  | setSize => simpa using h
  | @memcpy packet copied byte hbyte =>
      obtain ⟨hlimit, hsize, -, htake⟩ := h
      have hlt : copied < packet.getSize := (List.getElem?_eq_some_iff.mp hbyte).1
      exact ⟨hlimit, hsize, hlt, take_set_succ hbyte (by omega) htake⟩
  | copied => trivial
  | teardown => trivial
  | teardownLock _ => trivial
  | deactivate => rfl
  | @notify packet => cases packet <;> exact h
  | unlock => trivial

/-- The lock is taken when nobody has it, and given back by who has it. -/
lemma PublisherStep.mutex {ω ι : Type} {max : ℕ} {w : ω} {m m' : MessageObject ω ι}
    {pc pc' : PublisherPc} {wake : Bool} {returned : Option Packet}
    (hstep : PublisherStep max w m pc m' pc' wake returned)
    (h : pc.holds = true ↔ m.mtx = .exclusive w) :
    (m'.mtx = m.mtx ∨ m.mtx = .shared ∅ ∧ m'.mtx = .exclusive w ∨
      m.mtx = .exclusive w ∧ m'.mtx = .shared ∅) ∧
    (pc'.holds = true ↔ m'.mtx = .exclusive w) := by
  cases hstep <;> simp_all

/-- Without the lock nothing is written. -/
lemma PublisherStep.idles {ω ι : Type} {max : ℕ} {w : ω} {m m' : MessageObject ω ι}
    {pc pc' : PublisherPc} {wake : Bool} {returned : Option Packet}
    (hstep : PublisherStep max w m pc m' pc' wake returned) (hfree : pc.holds = false) :
    m' = { m with mtx := m'.mtx } ∧ wake = false ∧ returned = none ∧ pc'.pending = none := by
  cases hstep <;> simp_all

lemma PublisherStep.keeps {ω ι : Type} {max : ℕ} {w : ω} {m m' : MessageObject ω ι}
    {pc pc' : PublisherPc} {wake : Bool} {returned : Option Packet}
    (hstep : PublisherStep max w m pc m' pc' wake returned) (h : pc.Inv m) :
    m'.maxPacketSize = m.maxPacketSize ∧ m'.bytes.length = m.bytes.length ∧
    (m'.packetSize = m.packetSize ∨ m'.packetSize ≤ m.maxPacketSize) ∧
    (m.active = false → m'.active = false) := by
  cases hstep <;> simp_all

/-- A thread has copied its packet, is about to copy it, or leaves alone what is in memory. -/
lemma PublisherStep.writes {ω ι : Type} {max : ℕ} {w : ω} {m m' : MessageObject ω ι}
    {pc pc' : PublisherPc} {wake : Bool} {returned : Option Packet}
    (hstep : PublisherStep max w m pc m' pc' wake returned) :
    (∃ packet, pc = .memcpy packet packet.getSize ∧ m' = m ∧ pc' = .notify (some packet) ∧
      returned = none) ∨
    returned.toList ++ pc'.pending.toList = pc.pending.toList ∧
      ((∃ packet copied, pc' = .memcpy packet copied) ∨
        (∀ packet copied, pc ≠ .memcpy packet copied) ∧ m'.packetSize = m.packetSize ∧
          m'.bytes = m.bytes) := by
  cases hstep <;> simp

/-- Who notifies has written a packet, or made the object inactive. -/
lemma PublisherStep.notifies {ω ι : Type} {max : ℕ} {w : ω} {m m' : MessageObject ω ι}
    {pc pc' : PublisherPc} {returned : Option Packet}
    (hstep : PublisherStep max w m pc m' pc' true returned) (h : pc.Inv m) :
    m'.active = false ∨ ∃ packet, pc'.pending = some packet ∧ returned = none := by
  cases hstep with
  | @notify packet =>
      cases packet with
      | none => exact Or.inl h
      | some packet => exact Or.inr ⟨packet, rfl, rfl⟩

/-! ## A listener -/

/-- A listener that reads what is in memory, or is about to give back the lock. -/
@[simp] def ListenerPc.holds : ListenerPc → Bool
  | .check | .active | .resize | .memcpy _ _ | .callback | .leave | .unlock => true
  | _ => false

/-- A listener whose wait has been, or is going to be, successful. -/
@[simp] def ListenerPc.notified : ListenerPc → Bool
  | .waiting notified | .relock notified => notified
  | .active | .resize | .memcpy _ _ => true
  | _ => false

@[simp] def ListenerPc.Reads {ω ι : Type} (m : MessageObject ω ι) : ListenerPc → Prop
  | .resize => m.active = true
  | .memcpy size packet => m.active = true ∧ size = m.packetSize ∧ packet.length ≤ size ∧
      packet = m.bytes.take packet.length
  | _ => True

structure Listener.Inv {ω ι : Type} (m : MessageObject ω ι) (published written : List Packet)
    (l : Listener) : Prop where
  delivered : l.delivered.Sublist published
  news : l.pc.notified = true → m.active = false ∨
    ∃ old new, written = old ++ [new] ∧ l.delivered.Sublist old
  reads : l.pc.Reads m

/-- What a publisher does with the lock in its hands. -/
lemma Listener.Inv.mono {ω ι : Type} {m m' : MessageObject ω ι}
    {published written published' written' : List Packet} {l : Listener}
    (h : l.Inv m published written) (hfree : l.pc.holds = false)
    (hactive : m.active = false → m'.active = false) (hpublished : published <+: published')
    (hwritten : written' = written ∨ ∃ new, written' = published ++ [new]) :
    l.Inv m' published' written' where
  delivered := h.delivered.trans hpublished.sublist
  news hnotified := by
    rcases hwritten with rfl | ⟨new, rfl⟩
    · exact (h.news hnotified).imp_left hactive
    · exact Or.inr ⟨published, new, rfl, h.delivered⟩
  reads := by
    revert hfree
    cases l.pc <;> simp

lemma Listener.Inv.wake {ω ι : Type} {m : MessageObject ω ι} {published written : List Packet}
    {l : Listener} (h : l.Inv m published written)
    (hnews : m.active = false ∨ ∃ new, written = published ++ [new]) :
    l.wake.Inv m published written := by
  unfold Listener.wake
  split
  case isTrue =>
    refine ⟨h.delivered, fun _ => hnews.imp_right ?_, trivial⟩
    rintro ⟨new, hwritten⟩
    exact ⟨published, new, hwritten, h.delivered⟩
  case isFalse => exact h

@[simp] lemma Listener.holds_wake (l : Listener) : l.wake.pc.holds = l.pc.holds := by
  unfold wake
  split
  case isTrue hpc => simp [hpc]
  case isFalse => rfl

/-- A listener that goes on without a look at the memory. -/
lemma Listener.Inv.goto {ω ι : Type} {m m' : MessageObject ω ι} {published written : List Packet}
    {l l' : Listener} (h : l.Inv m published written) (hactive : m'.active = m.active)
    (hdelivered : l'.delivered = l.delivered)
    (hnotified : l'.pc.notified = true → l.pc.notified = true) (hreads : l'.pc.Reads m') :
    l'.Inv m' published written where
  delivered := hdelivered ▸ h.delivered
  news hpc := by
    rw [hactive, hdelivered]
    exact h.news (hnotified hpc)
  reads := hreads

/-- **One step of a listener**, which delivers the packet in memory, and that one is new. -/
theorem ListenerStep.inv {ω ι : Type} [DecidableEq ι] {i : ι} {m m' : MessageObject ω ι}
    {l l' : Listener} {published written : List Packet} (hstep : ListenerStep i m l m' l')
    (h : l.Inv m published written)
    (hmemory : l.pc.holds = true →
      written = published ∧ ∀ packet ∈ published.getLast?, m.Shows packet) :
    l'.Inv m' published written := by
  cases hstep with
  | cancel => exact h.goto rfl rfl id h.reads
  | start => exact h.goto rfl rfl id h.reads
  | spawn _ _ => exact h.goto rfl rfl (by simp) trivial
  | lock _ _ => exact h.goto rfl rfl (by simp) trivial
  | canceled _ _ => exact h.goto rfl rfl (by simp) trivial
  | wait _ _ _ => exact h.goto rfl rfl (by simp) trivial
  | timeout _ => exact h.goto rfl rfl (by simp) trivial
  | wakeup hpc => exact h.goto rfl rfl (by simp [hpc]) trivial
  | @relock notified owners hpc _ =>
      cases notified with
      | false => exact h.goto rfl rfl (by simp) trivial
      | true => exact h.goto rfl rfl (by simp [hpc]) trivial
  | inactive _ _ => exact h.goto rfl rfl (by simp) trivial
  | active hpc hactive => exact h.goto rfl rfl (by simp [hpc]) hactive
  | resize hpc =>
      have hactive := h.reads
      rw [hpc] at hactive
      exact h.goto rfl rfl (by simp [hpc]) ⟨hactive, rfl, Nat.zero_le _, rfl⟩
  | @memcpy size packet byte hpc hlt hbyte =>
      have hreads := h.reads
      rw [hpc] at hreads
      obtain ⟨hactive, hsize, -, hpacket⟩ := hreads
      refine h.goto rfl rfl (by simp [hpc]) ⟨hactive, hsize, by simpa using hlt, ?_⟩
      rw [List.length_append, List.length_singleton, List.take_add_one, hbyte, ← hpacket]
      rfl
  | @deliver size packet hpc hlength =>
      have hreads := h.reads
      rw [hpc] at hreads
      obtain ⟨hactive, hsize, -, hpacket⟩ := hreads
      refine ⟨?_, by simp, trivial⟩
      obtain ⟨rfl, hlast⟩ := hmemory (by simp [hpc])
      rcases h.news (by simp [hpc]) with hinactive | ⟨old, new, hpublished, hdelivered⟩
      · exact absurd hinactive (by simp [hactive])
      · have hshows : m.Shows new := hlast new (by simp [hpublished])
        have hnew : (⟨packet⟩ : Packet) = new := by
          rw [hpacket, hlength, hsize, hshows.2]
        rw [hpublished, hnew]
        exact hdelivered.append (List.Sublist.refl _)
  | returned _ => exact h.goto rfl rfl (by simp) trivial
  | leave _ => exact h.goto rfl rfl (by simp) trivial
  | unlock _ _ => exact h.goto rfl rfl (by simp) trivial

/-- A listener takes and gives back its own share of the lock, and nothing else. -/
lemma ListenerStep.mutex {ω ι : Type} [DecidableEq ι] {i : ι} {m m' : MessageObject ω ι}
    {l l' : Listener} (hstep : ListenerStep i m l m' l')
    (h : l.pc.holds = true → ∃ owners, m.mtx = .shared owners ∧ i ∈ owners) :
    m' = { m with mtx := m'.mtx } ∧
    (m'.mtx = m.mtx ∨ ∃ owners owners', m.mtx = .shared owners ∧ m'.mtx = .shared owners' ∧
      ∀ j, j ≠ i → (j ∈ owners ↔ j ∈ owners')) ∧
    (l'.pc.holds = true → ∃ owners, m'.mtx = .shared owners ∧ i ∈ owners) := by
  cases hstep with
  | lock _ hmtx =>
      refine ⟨rfl, Or.inr ⟨_, _, hmtx, rfl, ?_⟩, fun _ => ⟨_, rfl, by simp⟩⟩
      intro j hne
      simp [hne]
  | @relock _ owners _ hmtx =>
      refine ⟨rfl, Or.inr ⟨_, _, hmtx, rfl, ?_⟩, fun _ => ⟨_, rfl, by simp⟩⟩
      intro j hne
      simp [hne]
  | wait _ _ hmtx =>
      refine ⟨rfl, Or.inr ⟨_, _, hmtx, rfl, ?_⟩, by simp⟩
      intro j hne
      simp [hne]
  | unlock _ hmtx =>
      refine ⟨rfl, Or.inr ⟨_, _, hmtx, rfl, ?_⟩, by simp⟩
      intro j hne
      simp [hne]
  | inactive hpc _ => exact ⟨rfl, Or.inl rfl, fun _ => h (by simp [hpc])⟩
  | active hpc _ => exact ⟨rfl, Or.inl rfl, fun _ => h (by simp [hpc])⟩
  | _ => simp_all

/-! ## The channel -/

structure Channel.Inv {ω ι : Type} (max : ℕ) (s : Channel ω ι) : Prop where
  maxPacketSize : s.message.maxPacketSize = max
  bytes : s.message.bytes.length = max
  packetSize : s.message.packetSize ≤ max
  publisher : ∀ w, (s.publisher w).Inv s.message
  exclusive : ∀ w, (s.publisher w).holds = true ↔ s.message.mtx = .exclusive w
  sharing : ∀ i, (s.listener i).pc.holds = true →
    ∃ owners, s.message.mtx = .shared owners ∧ i ∈ owners
  memory : (∀ w packet copied, s.publisher w ≠ .memcpy packet copied) →
    ∀ packet ∈ s.written.getLast?, s.message.Shows packet
  listener : ∀ i, (s.listener i).Inv s.message s.published s.written

lemma Channel.Inv.initial (ω ι : Type) (max : ℕ) : (Channel.initial max : Channel ω ι).Inv max where
  maxPacketSize := rfl
  bytes := List.length_replicate
  packetSize := Nat.zero_le max
  publisher _ := trivial
  exclusive := by simp [Channel.initial]
  sharing := by simp [Channel.initial]
  memory := by simp [Channel.initial, Channel.written]
  listener i := ⟨List.Sublist.refl _, by simp [Channel.initial], trivial⟩

/-- A listener that has the lock finds the last packet published. -/
lemma Channel.Inv.shows {ω ι : Type} {max : ℕ} {s : Channel ω ι} (h : s.Inv max) {i : ι}
    (hpc : (s.listener i).pc.holds = true) :
    s.written = s.published ∧ ∀ packet ∈ s.published.getLast?, s.message.Shows packet := by
  obtain ⟨owners, hmtx, -⟩ := h.sharing i hpc
  have hwritten := Channel.written_shared hmtx
  refine ⟨hwritten, hwritten ▸ h.memory ?_⟩
  intro w packet copied hw
  have hheld := (h.exclusive w).mp (by simp [hw])
  exact absurd (hmtx.symm.trans hheld) (by simp)

theorem Channel.Inv.stepListener {ω ι : Type} [DecidableEq ω] [DecidableEq ι] {max : ℕ}
    {s s' : Channel ω ι} (h : s.Inv max) {i : ι} (hstep : Channel.step max s (.listener i) s') :
    s'.Inv max := by
  obtain ⟨m, l, hstep, rfl⟩ := hstep
  have hlistener := hstep.inv (h.listener i) h.shows
  obtain ⟨hm, hmtx, hholds⟩ := hstep.mutex (h.sharing i)
  have hwritten : Channel.written ⟨m, s.publisher, Function.update s.listener i l, s.published⟩ =
      s.written := by
    rcases hmtx with hsame | ⟨owners, owners', hbefore, hafter, -⟩
    · simp only [Channel.written, hsame]
    · rw [Channel.written_shared hbefore, Channel.written_shared (s := ⟨m, _, _, _⟩) hafter]
  -- everything but the lock is as it was
  constructor
  case maxPacketSize =>
    rw [hm]
    exact h.maxPacketSize
  case bytes =>
    rw [hm]
    exact h.bytes
  case packetSize =>
    rw [hm]
    exact h.packetSize
  case publisher =>
    intro w
    rw [hm]
    exact (h.publisher w).relock
  case exclusive =>
    intro w
    rcases hmtx with hsame | ⟨owners, owners', hbefore, hafter, -⟩
    · rw [hsame]
      exact h.exclusive w
    · rw [hafter]
      exact (h.exclusive w).trans (by simp [hbefore])
  case sharing =>
    refine (Function.forall_update_iff s.listener (fun j l => l.pc.holds = true →
      ∃ owners, m.mtx = .shared owners ∧ j ∈ owners)).mpr ⟨hholds, ?_⟩
    intro j hne hj
    obtain ⟨held, hheld, hmem⟩ := h.sharing j hj
    rcases hmtx with hsame | ⟨owners, owners', hbefore, hafter, hothers⟩
    · exact ⟨held, hsame.trans hheld, hmem⟩
    · obtain rfl : held = owners := by simpa using hheld.symm.trans hbefore
      exact ⟨owners', hafter, (hothers j hne).mp hmem⟩
  case memory =>
    rw [hwritten, hm]
    exact h.memory
  case listener =>
    rw [hwritten]
    refine (Function.forall_update_iff s.listener
      (fun _ l => l.Inv m s.published s.written)).mpr ⟨hlistener, ?_⟩
    intro j _
    rw [hm]
    exact ⟨(h.listener j).delivered, (h.listener j).news, (h.listener j).reads⟩

/-- What is written after a step of a thread that has the lock. -/
lemma Channel.Inv.written_holds {ω ι : Type} [DecidableEq ω] {max : ℕ} {s : Channel ω ι}
    (h : s.Inv max) {w : ω} (hholds : (s.publisher w).holds = true) {m : MessageObject ω ι}
    {pc : PublisherPc} {wake : Bool} {returned : Option Packet} {listener : ι → Listener}
    (hstep : PublisherStep max w s.message (s.publisher w) m pc wake returned) :
    Channel.written ⟨m, Function.update s.publisher w pc, listener,
      s.published ++ returned.toList⟩ = s.published ++ (returned.toList ++ pc.pending.toList) := by
  have hheld := (h.exclusive w).mp hholds
  obtain ⟨hmtx, hafter⟩ := hstep.mutex (h.exclusive w)
  rcases hmtx with hsame | ⟨hshared, -⟩ | ⟨-, hshared⟩
  · rw [Channel.written_exclusive (hsame.trans hheld)]
    simp
  · exact absurd (hshared.symm.trans hheld) (by simp)
  · have hpending : pc.pending = none :=
      PublisherPc.pending_of_not_holds fun hpc => absurd (hshared.symm.trans (hafter.mp hpc)) (by simp)
    rw [Channel.written_shared hshared, hpending]
    simp

/-- What is written after a step of a thread that has not. -/
lemma Channel.Inv.written_idles {ω ι : Type} [DecidableEq ω] {max : ℕ} {s : Channel ω ι}
    (h : s.Inv max) {w : ω} (hidles : (s.publisher w).holds = false) {m : MessageObject ω ι}
    {pc : PublisherPc} {wake : Bool} {returned : Option Packet} {listener : ι → Listener}
    (hstep : PublisherStep max w s.message (s.publisher w) m pc wake returned) :
    Channel.written ⟨m, Function.update s.publisher w pc, listener,
      s.published ++ returned.toList⟩ = s.written := by
  obtain ⟨-, -, rfl, hpending⟩ := hstep.idles hidles
  rcases (hstep.mutex (h.exclusive w)).1 with hsame | ⟨hshared, hheld⟩ | ⟨hheld, -⟩
  · have hother : ∀ w', s.message.mtx = .exclusive w' → w' ≠ w := by
      rintro w' hmtx rfl
      exact Bool.eq_false_iff.mp hidles ((h.exclusive w').mpr hmtx)
    cases hmtx : s.message.mtx with
    | shared owners =>
        rw [Channel.written_shared hmtx, Channel.written_shared (hsame.trans hmtx)]
        simp
    | exclusive w' =>
        rw [Channel.written_exclusive hmtx, Channel.written_exclusive (hsame.trans hmtx)]
        simp [hother w' hmtx]
  · rw [Channel.written_shared hshared, Channel.written_exclusive hheld]
    simp only [Function.update_self, hpending]
    simp
  · exact absurd ((h.exclusive w).mpr hheld) (Bool.eq_false_iff.mp hidles)

/-- A step of a thread either completes a packet, or leaves what has been written. -/
lemma Channel.Inv.written_step {ω ι : Type} [DecidableEq ω] {max : ℕ} {s : Channel ω ι}
    (h : s.Inv max) {w : ω} {m : MessageObject ω ι} {pc : PublisherPc} {wake : Bool}
    {returned : Option Packet} (listener : ι → Listener) {written : List Packet}
    (hstep : PublisherStep max w s.message (s.publisher w) m pc wake returned)
    (hwritten : Channel.written ⟨m, Function.update s.publisher w pc, listener,
      s.published ++ returned.toList⟩ = written) :
    (∃ packet, m.Shows packet ∧ written = s.published ++ [packet]) ∨
    written = s.written ∧ ((∃ packet copied, pc = .memcpy packet copied) ∨
      (∀ packet copied, s.publisher w ≠ .memcpy packet copied) ∧
        m.packetSize = s.message.packetSize ∧ m.bytes = s.message.bytes) := by
  subst hwritten
  cases hholds : (s.publisher w).holds with
  | false =>
      obtain ⟨hm, -⟩ := hstep.idles hholds
      refine Or.inr ⟨h.written_idles hholds hstep, Or.inr ⟨?_, by rw [hm], by rw [hm]⟩⟩
      intro packet copied hpc
      simp [hpc] at hholds
  | true =>
      have hbefore := Channel.written_exclusive ((h.exclusive w).mp hholds)
      rw [h.written_holds hholds hstep]
      rcases hstep.writes with ⟨packet, hpc, rfl, rfl, rfl⟩ | ⟨hpending, hmemory⟩
      · have hknows := h.publisher w
        rw [hpc] at hknows
        exact Or.inl ⟨packet, hknows.shows, rfl⟩
      · exact Or.inr ⟨by rw [hpending, hbefore], hmemory⟩

/-- A listener, after a step of a thread. -/
lemma Channel.Inv.listener_step {ω ι : Type} [DecidableEq ω] {max : ℕ} {s : Channel ω ι}
    (h : s.Inv max) {w : ω} {m : MessageObject ω ι} {pc : PublisherPc} {wake : Bool}
    {returned : Option Packet} {written : List Packet}
    (hstep : PublisherStep max w s.message (s.publisher w) m pc wake returned)
    (hwritten : written = s.written ∨ ∃ packet, written = s.published ++ [packet])
    (hsame : (s.publisher w).holds = false → written = s.written) (i : ι) :
    (s.listener i).Inv m (s.published ++ returned.toList) written := by
  cases hholds : (s.publisher w).holds with
  | false =>
      obtain ⟨hm, -, rfl, -⟩ := hstep.idles hholds
      have hlistener := h.listener i
      rw [hm, hsame hholds]
      exact ⟨by simpa using hlistener.delivered, hlistener.news, hlistener.reads⟩
  | true =>
      have hfree : (s.listener i).pc.holds = false := by
        refine Bool.eq_false_iff.mpr fun hpc => ?_
        obtain ⟨owners, hshared, -⟩ := h.sharing i hpc
        exact absurd (hshared.symm.trans ((h.exclusive w).mp hholds)) (by simp)
      exact (h.listener i).mono hfree (hstep.keeps (h.publisher w)).2.2.2
        (List.prefix_append _ _) hwritten

theorem Channel.Inv.stepPublisher {ω ι : Type} [DecidableEq ω] [DecidableEq ι] {max : ℕ}
    {s s' : Channel ω ι} (h : s.Inv max) {w : ω} (hstep : Channel.step max s (.publisher w) s') :
    s'.Inv max := by
  obtain ⟨m, pc, wake, returned, hstep, rfl⟩ := hstep
  obtain ⟨hmax, hbytes, hsize, -⟩ := hstep.keeps (h.publisher w)
  obtain ⟨hmtx, hholds⟩ := hstep.mutex (h.exclusive w)
  have hwritten := h.written_step
    (if wake then fun i => (s.listener i).wake else s.listener) hstep rfl
  constructor
  case maxPacketSize => exact hmax.trans h.maxPacketSize
  case bytes => exact hbytes.trans h.bytes
  case packetSize =>
    have hle := h.packetSize
    have hlimit := h.maxPacketSize
    show m.packetSize ≤ max
    omega
  case publisher =>
    refine (Function.forall_update_iff s.publisher (fun _ pc => pc.Inv m)).mpr
      ⟨hstep.inv (h.publisher w) h.maxPacketSize h.bytes, ?_⟩
    intro w' hne
    cases hfree : (s.publisher w).holds with
    | false =>
        rw [(hstep.idles hfree).1]
        exact (h.publisher w').relock
    | true =>
        refine (h.publisher w').other (Bool.eq_false_iff.mpr fun hpc => hne ?_) hmax
        have hheld := ((h.exclusive w').mp hpc).symm.trans ((h.exclusive w).mp hfree)
        simpa using hheld
  case exclusive =>
    refine (Function.forall_update_iff s.publisher
      (fun w' pc => pc.holds = true ↔ m.mtx = .exclusive w')).mpr ⟨hholds, ?_⟩
    intro w' hne
    refine (h.exclusive w').trans ?_
    rcases hmtx with hsame | ⟨hbefore, hafter⟩ | ⟨hbefore, hafter⟩
    · rw [hsame]
    · simp [hbefore, hafter, hne.symm]
    · simp [hbefore, hafter, hne.symm]
  case sharing =>
    have hlistener : ∀ i, (s.listener i).pc.holds = true →
        ∃ owners, m.mtx = .shared owners ∧ i ∈ owners := by
      intro i hi
      obtain ⟨owners, hshared, hmem⟩ := h.sharing i hi
      rcases hmtx with hsame | ⟨hbefore, -⟩ | ⟨hbefore, -⟩
      · exact ⟨owners, hsame.trans hshared, hmem⟩
      · obtain rfl : ∅ = owners := by simpa using hbefore.symm.trans hshared
        exact absurd hmem (Finset.notMem_empty i)
      · exact absurd (hbefore.symm.trans hshared) (by simp)
    cases wake with
    | false => exact hlistener
    | true =>
        intro i hi
        exact hlistener i ((s.listener i).holds_wake ▸ hi)
  case memory =>
    intro hcopies packet hpacket
    rcases hwritten with ⟨new, hshows, hnew⟩ | ⟨hold, hmemory⟩
    · rw [hnew] at hpacket
      obtain rfl : new = packet := by simpa using hpacket
      exact hshows
    · rw [hold] at hpacket
      rcases hmemory with ⟨packet', copied, rfl⟩ | ⟨hother, hpacketSize, hmem⟩
      · exact absurd (Function.update_self ..) (hcopies w packet' copied)
      · have hbefore : s.message.Shows packet := by
          refine h.memory (fun w' packet' copied hw' => ?_) packet hpacket
          by_cases hne : w' = w
          · exact hother packet' copied (hne ▸ hw')
          · exact hcopies w' packet' copied ((Function.update_of_ne hne ..).trans hw')
        unfold MessageObject.Shows at hbefore ⊢
        rw [hpacketSize, hmem]
        exact hbefore
  case listener =>
    have hlistener := h.listener_step hstep
      (hwritten.symm.imp (fun hold => hold.1) fun ⟨packet, _, hnew⟩ => ⟨packet, hnew⟩)
      (fun hfree => h.written_idles hfree hstep)
    cases wake with
    | false => exact hlistener
    | true =>
        refine fun i => (hlistener i).wake ?_
        refine (hstep.notifies (h.publisher w)).imp_right ?_
        rintro ⟨packet, hpending, rfl⟩
        have hheld : (s.publisher w).holds = true := by
          refine Bool.not_eq_false _ ▸ fun hfree => ?_
          exact absurd (hstep.idles hfree).2.1 (by simp)
        refine ⟨packet, ?_⟩
        rw [h.written_holds hheld hstep, hpending]
        simp

theorem Channel.Inv.step {ω ι : Type} [DecidableEq ω] [DecidableEq ι] {max : ℕ}
    {s s' : Channel ω ι} {actor : Actor ω ι} (h : s.Inv max)
    (hstep : Channel.step max s actor s') : s'.Inv max := by
  cases actor with
  | publisher w => exact h.stepPublisher hstep
  | listener i => exact h.stepListener hstep

/-! ## The packets delivered -/

/-- An inactive object stays inactive, and its listeners deliver nothing more. -/
lemma Channel.Inv.step_inactive {ω ι : Type} [DecidableEq ω] [DecidableEq ι] {max : ℕ}
    {s s' : Channel ω ι} {actor : Actor ω ι} (h : s.Inv max)
    (hstep : Channel.step max s actor s') (hinactive : s.message.active = false) (i : ι) :
    s'.message.active = false ∧ (s'.listener i).delivered = (s.listener i).delivered := by
  cases actor with
  | publisher w =>
      obtain ⟨m, pc, wake, returned, hstep, rfl⟩ := hstep
      refine ⟨(hstep.keeps (h.publisher w)).2.2.2 hinactive, ?_⟩
      cases wake with
      | false => rfl
      | true =>
          simp only [if_true, Listener.wake]
          split <;> rfl
  | listener j =>
      obtain ⟨m, l, hstep, rfl⟩ := hstep
      have hreads := (h.listener j).reads
      have hdelivered : m.active = false ∧ l.delivered = (s.listener j).delivered := by
        cases hstep with
        | deliver hpc _ =>
            rw [hpc] at hreads
            exact absurd hreads.1 (by simp [hinactive])
        | _ => exact ⟨hinactive, rfl⟩
      refine ⟨hdelivered.1, ?_⟩
      by_cases hij : i = j
      · subst hij
        simpa using hdelivered.2
      · simp [hij]

/-- **No stale or invented data**: in every state of every interleaving a listener has delivered a
subsequence of the packets published, and the size in memory is within its limit; once a listener
has come to an inactive object, it delivers nothing more. -/
theorem shared_memory_delivers {ω ι : Type} [DecidableEq ω] [DecidableEq ι] (maxPacketSize_ : ℕ)
    {actors : List (Actor ω ι)} {s : Channel ω ι}
    (hrun : Transition.Run (Channel.step maxPacketSize_) (Channel.initial maxPacketSize_) actors s) :
    (∀ i, (s.listener i).delivered.Sublist s.published) ∧
    s.message.packetSize ≤ s.message.maxPacketSize ∧
    ∀ i actors' s', (s.listener i).pc = .active → s.message.active = false →
      Transition.Run (Channel.step maxPacketSize_) s actors' s' →
      (s'.listener i).delivered = (s.listener i).delivered := by
  have hinv : s.Inv maxPacketSize_ :=
    hrun.invariant (Channel.Inv.initial ω ι maxPacketSize_) fun _ _ _ h hstep => h.step hstep
  refine ⟨fun i => (hinv.listener i).delivered, ?_, ?_⟩
  · rw [hinv.maxPacketSize]
    exact hinv.packetSize
  · intro i actors' s' _ hinactive hrun'
    refine (hrun'.invariant (I := fun t => t.Inv maxPacketSize_ ∧ t.message.active = false ∧
      (t.listener i).delivered = (s.listener i).delivered) ⟨hinv, hinactive, rfl⟩ ?_).2.2
    rintro t actor t' ⟨h, hinactive, hsame⟩ hstep
    obtain ⟨hstays, hnothing⟩ := h.step_inactive hstep hinactive i
    exact ⟨h.step hstep, hstays, hnothing.trans hsame⟩

/-- A step of the only listener. -/
lemma Channel.step_listener {max : ℕ} {m m' : MessageObject Unit Unit} {pc : PublisherPc}
    {l l' : Listener} {published : List Packet} (hstep : ListenerStep () m l m' l') :
    Channel.step max ⟨m, fun _ => pc, fun _ => l, published⟩ (.listener ())
      ⟨m', fun _ => pc, fun _ => l', published⟩ := by
  refine ⟨m', l', hstep, ?_⟩
  congr

/-- A step of the only thread that publishes. -/
lemma Channel.step_publisher {max : ℕ} {m m' : MessageObject Unit Unit} {pc pc' : PublisherPc}
    {l l' : Listener} {wake : Bool} {returned : Option Packet} {published : List Packet}
    (hstep : PublisherStep max () m pc m' pc' wake returned)
    (hwake : (if wake then l.wake else l) = l') :
    Channel.step max ⟨m, fun _ => pc, fun _ => l, published⟩ (.publisher ())
      ⟨m', fun _ => pc', fun _ => l', published ++ returned.toList⟩ := by
  refine ⟨m', pc', wake, returned, hstep, ?_⟩
  subst hwake
  cases wake <;> rfl

/-- One packet of one byte, published while the listener waits. -/
theorem shared_memory_delivers_byte : ∃ actors, ∃ s : Channel Unit Unit,
    Transition.Run (Channel.step 1) (Channel.initial 1) actors s ∧
    (s.listener ()).delivered = [⟨[7]⟩] ∧ (s.listener ()).delivered.Sublist s.published := by
  have hwait : Transition.Run (Channel.step 1) (Channel.initial 1 : Channel Unit Unit)
      (List.replicate 4 (.listener ()))
      ⟨{ mtx := .shared ((insert () ∅ : Finset Unit).erase ()), maxPacketSize := 1, bytes := [0] },
        fun _ => .idle, fun _ => { pc := .waiting false, listenerCanceled_ := false }, []⟩ :=
    (((Transition.Run.nil.snoc (Channel.step_listener .start)).snoc
      (Channel.step_listener (.spawn rfl rfl))).snoc
      (Channel.step_listener (.lock rfl rfl))).snoc
      (Channel.step_listener (.wait rfl rfl rfl))
  have hpublish : Transition.Run (Channel.step 1)
      ⟨{ mtx := .shared ((insert () ∅ : Finset Unit).erase ()), maxPacketSize := 1, bytes := [0] },
        fun _ => .idle, fun _ => { pc := .waiting false, listenerCanceled_ := false }, []⟩
      (List.replicate 7 (.publisher ()))
      ⟨{ maxPacketSize := 1, packetSize := 1, bytes := [7] },
        fun _ => .idle, fun _ => { pc := .waiting true, listenerCanceled_ := false }, [⟨[7]⟩]⟩ :=
    ((((((Transition.Run.nil.snoc (Channel.step_publisher (.publish ⟨[7]⟩ (by decide)) rfl)).snoc
      (Channel.step_publisher (.lock (congrArg SharableMutex.shared rfl)) rfl)).snoc
      (Channel.step_publisher .setSize rfl)).snoc
      (Channel.step_publisher (.memcpy rfl) rfl)).snoc
      (Channel.step_publisher .copied rfl)).snoc
      (Channel.step_publisher .notify rfl)).snoc
      (Channel.step_publisher .unlock rfl)
  have hdeliver : Transition.Run (Channel.step 1)
      ⟨{ maxPacketSize := 1, packetSize := 1, bytes := [7] },
        fun _ => .idle, fun _ => { pc := .waiting true, listenerCanceled_ := false }, [⟨[7]⟩]⟩
      (List.replicate 6 (.listener ()))
      ⟨{ mtx := .shared (insert () ∅), maxPacketSize := 1, packetSize := 1, bytes := [7] },
        fun _ => .idle,
        fun _ => { pc := .callback, listenerCanceled_ := false, delivered := [⟨[7]⟩] },
        [⟨[7]⟩]⟩ :=
    (((((Transition.Run.nil.snoc (Channel.step_listener (.wakeup rfl))).snoc
      (Channel.step_listener (.relock rfl rfl))).snoc
      (Channel.step_listener (.active rfl rfl))).snoc
      (Channel.step_listener (.resize rfl))).snoc
      (Channel.step_listener (.memcpy rfl (by decide) rfl))).snoc
      (Channel.step_listener (.deliver rfl rfl))
  have hrun := (hwait.trans hpublish).trans hdeliver
  exact ⟨_, _, hrun, rfl, (shared_memory_delivers 1 hrun).1 ()⟩

end CpsCore.SharedMemory

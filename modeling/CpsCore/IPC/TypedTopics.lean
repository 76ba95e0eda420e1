import Mathlib
import CpsCore.DataPresentation.Packs
import CpsCore.IPC.LatestPacket
import CpsCore.IPC.EndOfStream

/-!
# Topics with a type

`IPC::publish<Type>` and `IPC::subscribe<Type>` put the codec on both ends of a channel of packets:
a `Publisher<Type>` serializes what it is given, and a slot is called with what the packet
deserializes to.

* `forwardToPacket`, `forwardFromPacket`: the two ends.
* `subsingleton_of_enc_nil`: a type whose values take no bytes has one value.
* `forwardFromPacket_forwardToPacket`: a value gets through, whatever stands behind it.
* `typed_topic_in_order`: over the message queue.
* `typed_topic_latest`: over shared memory.

Values may be published whose counts do not fit their fields.  What a slot gets of those is not
what was published, and the others get through all the same.
-/

namespace CpsCore.IPC

open StateExcept dp

variable (fl : FloatCast) {o : Bool} {α : Type}

/-! ## The two ends -/

/-- `IPC::forwardToPacket`; the first argument is what `get<DataPresentation>()` returns. -/
def forwardToPacket (data : Option DataPresentation) (t : Ty o α) (val : α) : Packet :=
  match data with
  | some self => self.serialize fl [⟨t, val⟩]
  | none => dp.serialize fl t val {}

/-- What `IPC::forwardFromPacket` calls the slot with. -/
def forwardFromPacket (data : Option DataPresentation) (t : Ty o α) (beyond : ℕ → UInt8)
    (packet : Packet) : Except Exn α :=
  match data with
  | some self => (self.deserialize fl [⟨t⟩] beyond packet).map Tuple.head
  | none => dp.deserialize fl t {} beyond packet

/-- The options of the archives. -/
def archiveOptions : Option DataPresentation → ArchiveOptions
  | some self => self.params
  | none => {}

/-- A value behind the codec. -/
def codec (data : Option DataPresentation) (t : Ty o α) (val : α) : α :=
  readBack fl (archiveOptions data).compressDouble t t.default val

variable {fl} {data data' : Option DataPresentation} {t : Ty o α} {val : α}

lemma forwardToPacket_buffer : (forwardToPacket fl data t val).buffer_ =
    enc fl (archiveOptions data).compressDouble t val := by
  cases data with
  | none => exact dp.serialize_eq t val {}
  | some self => simp [forwardToPacket, DataPresentation.serialize_eq, archiveOptions]

/-! ## Types without bytes -/

lemma toBytes_ne_nil (w : IntWidth) (v : BitVec w.bits) : w.toBytes v ≠ [] := by
  intro h
  have hlen := w.length_toBytes v
  rw [h] at hlen
  exact absurd hlen.symm w.bytes_pos.ne'

lemma encDouble_ne_nil (c : Bool) (d : BitVec 64) : encDouble fl c d ≠ [] := by
  rw [encDouble]
  split
  · exact toBytes_ne_nil .w32 _
  · exact toBytes_ne_nil .w64 d

/-- Elements that take bytes, and take none: there are no elements. -/
lemma eq_nil_of_flatMap {β : Type} {g : β → Bytes} (hne : ∀ b, g b ≠ []) :
    ∀ {l : List β}, l.flatMap g = [] → l = []
  | [], _ => rfl
  | b :: _, h => absurd (List.append_eq_nil_iff.mp h).1 (hne b)

lemma coefficients_of_nil {c : Bool} {s : Scalar} {n : ℕ} {v : List.Vector s.Value n}
    (h : encCoefficients fl c s v = []) : n = 0 := by
  have hnil : v.toList = [] := by
    cases s with
    | raw w => exact eq_nil_of_flatMap (toBytes_ne_nil w) h
    | double => exact eq_nil_of_flatMap (encDouble_ne_nil c) h
  simpa [hnil] using v.toList_length.symm

lemma eigen_ext {rows cols : ℕ} {s : Scalar} (hsize : rows * cols = 0)
    (a b : EigenMatrix (.static rows) (.static cols) s) : a = b := by
  obtain ⟨r, k, data, rfl, rfl, halloc⟩ := a
  obtain ⟨r', k', data', hr, hk, halloc'⟩ := b
  obtain rfl : r' = r := hr
  obtain rfl : k' = k := hk
  have hdata : data = data' := by
    refine List.Vector.toList_injective ?_
    rw [List.eq_nil_of_length_eq_zero (data.toList_length.trans hsize),
      List.eq_nil_of_length_eq_zero (data'.toList_length.trans hsize)]
  rw [hdata]

/-- **A type whose values take no bytes has one value.** -/
lemma subsingleton_of_enc_nil {c : Bool} : ∀ {o : Bool} {α : Type} (t : Ty o α) {val : α},
    enc fl c t val = [] → ∀ a b : α, a = b
  | _, _, .pod p, val, h => by
      have hlen := p.length_toBytes val
      rw [enc] at h
      rw [h] at hlen
      exact absurd hlen.symm p.size_pos.ne'
  | _, _, .enum _, _, h => absurd h (toBytes_ne_nil .w8 _)
  | _, _, .double, val, h => absurd h (encDouble_ne_nil c val)
  | _, _, .string, _, h => absurd (List.append_eq_nil_iff.mp h).1 (toBytes_ne_nil .w16 _)
  | _, _, .vector t, _, h => absurd (List.append_eq_nil_iff.mp h).1 (toBytes_ne_nil .w16 _)
  | _, _, .optional _, none, h => by simp [enc, Pod.toBytes] at h
  | _, _, .optional t, some it, h => by simp [enc, Pod.toBytes] at h
  | _, _, .array n t, val, h => by
      have hhead : enc fl c t val.head = [] := by
        obtain ⟨it, rest, rfl⟩ := val.exists_eq_cons
        exact List.flatMap_eq_nil_iff.mp h _ (by simp)
      intro a b
      have hsame := subsingleton_of_enc_nil t hhead
      exact List.Vector.ext fun i => hsame _ _
  | _, _, @Ty.map _ _ _ _ k t, _, h =>
      absurd (List.append_eq_nil_iff.mp h).1 (toBytes_ne_nil .w8 _)
  | _, _, .pair s t, _, h => by
      obtain ⟨hs, ht⟩ := List.append_eq_nil_iff.mp h
      exact fun a b => Prod.ext (subsingleton_of_enc_nil s hs _ _) (subsingleton_of_enc_nil t ht _ _)
  | _, _, .noParams, _, _ => fun _ _ => rfl
  | _, _, .param _ t rest, _, h => by
      obtain ⟨ht, hrest⟩ := List.append_eq_nil_iff.mp h
      exact fun a b =>
        Prod.ext (subsingleton_of_enc_nil t ht _ _) (subsingleton_of_enc_nil rest hrest _ _)
  | _, _, .eigen .dynamic _ _ _, _, h =>
      absurd (List.append_eq_nil_iff.mp h).1 (toBytes_ne_nil .w64 _)
  | _, _, .eigen (.static _) .dynamic _ _, _, h =>
      absurd (List.append_eq_nil_iff.mp (List.append_eq_nil_iff.mp h).2).1 (toBytes_ne_nil .w64 _)
  | _, _, .eigen (.static rows) (.static cols) s _, val, h => by
      have hsize := coefficients_of_nil (List.append_eq_nil_iff.mp (List.append_eq_nil_iff.mp h).2).2
      rw [show val.rowCount = rows from val.rows_admits,
        show val.colCount = cols from val.cols_admits] at hsize
      exact eigen_ext hsize
  | _, _, .custom fields t, _, h => fun _ _ =>
      fields.injective (subsingleton_of_enc_nil t h _ _)
  | _, _, .timePoint, _, h => absurd (List.append_eq_nil_iff.mp h).1 (toBytes_ne_nil .w8 _)
  | _, _, .configuration _, _, h => absurd (List.append_eq_nil_iff.mp h).1 (toBytes_ne_nil .w16 _)

/-! ## A value gets through -/

/-- A packet that begins with a value is read as that value, by a subscriber who would write it as the
publisher did. -/
lemma forwardFromPacket_forwardToPacket
    (hsame : enc fl (archiveOptions data').compressDouble t val =
      enc fl (archiveOptions data).compressDouble t val)
    (hcounts : CountsFit t val) (hsize : (forwardToPacket fl data t val).getSize < 2 ^ 32)
    (r : Bytes) (beyond : ℕ → UInt8) :
    forwardFromPacket fl data' t beyond ⟨(forwardToPacket fl data t val).buffer_ ++ r⟩ =
      .ok (codec fl data' t val) := by
  rw [Packet.getSize, forwardToPacket_buffer, ← hsame] at hsize
  rw [forwardToPacket_buffer, ← hsame, codec]
  cases data' with
  | some self =>
      obtain ⟨-, hdeserialize⟩ := @DataPresentation.extract_written fl self [⟨t, val⟩]
        (by simpa using hcounts) (by simpa [archiveOptions] using hsize)
        ⟨enc fl (archiveOptions (some self)).compressDouble t val ++ r⟩ r
        (by simp [archiveOptions]) beyond
      exact congrArg (Except.map Tuple.head) hdeserialize
  | none =>
      have hread := reads_enc fl t t.default val hcounts (archiveOptions none) r 0 rfl (by omega)
      obtain ⟨ar, hdecode, -⟩ := @decode_of_checked_ok fl _ _ t (archiveOptions none)
        ⟨enc fl (archiveOptions none).compressDouble t val ++ r⟩ _ _ _ hread beyond
      simp only [forwardFromPacket, deserialize]
      split
      case isTrue hempty =>
          -- nothing was written and nothing stands behind it
          have hnil : enc fl (archiveOptions none).compressDouble t val = [] := by
            have h := List.eq_nil_of_length_eq_zero hempty
            exact (List.append_eq_nil_iff.mp h).1
          exact congrArg Except.ok (subsingleton_of_enc_nil t hnil _ _)
      case isFalse hne =>
          rw [show ({} : ArchiveOptions) = archiveOptions none from rfl, hdecode]

structure IPCParams where
  maxPacketSize : ℕ := 16384
  maxNumPackets : ℕ := 10
  deriving DecidableEq, Repr

variable (fl data t) in
/-- The size of the packets of `publish<Type>`. -/
def packetSize (params : IPCParams) (variableSize : Bool) : ℕ :=
  if variableSize then params.maxPacketSize else (forwardToPacket fl data t t.default).getSize

variable (fl data t) in
/-- The queue of a topic, and the buffer of its subscriber; `publishOnMessageQueue` takes its sizes
as `unsigned`. -/
def sizes (params subscriber : IPCParams) (variableSize : Bool) : MessageQueue.Sizes where
  numOfMessages := params.maxNumPackets % 2 ^ 32
  elementSize := packetSize fl data t params variableSize % 2 ^ 32
  maxPacketSize_ := subscriber.maxPacketSize

variable (fl data t) in
/-- A step of the channel in which `Publisher<Type>::publish` may be called; beside the channel the
values it has returned true for. -/
def TopicStep (c : MessageQueue.Sizes) (σ : MessageQueue.Channel × List α)
    (action : MessageQueue.Action) (σ' : MessageQueue.Channel × List α) : Prop :=
  MessageQueue.Channel.Step c σ.1 action σ'.1 ∧
    match action with
    | .publish packet => ∃ val, packet = forwardToPacket fl data t val ∧
        σ'.2 = σ.2 ++ if (MessageQueue.publish c packet σ.1.queue).1 then [val] else []
    | _ => σ'.2 = σ.2

/-- What has been published are the values, each small enough. -/
structure Carries (fl : FloatCast) (data : Option DataPresentation) (t : Ty o α)
    (c : MessageQueue.Sizes) (s : MessageQueue.Channel) (vals : List α) : Prop where
  inv : s.Inv
  published : s.published = vals.map (forwardToPacket fl data t)
  small : ∀ val ∈ vals, (forwardToPacket fl data t val).getSize ≤ c.elementSize

/-- Only `publish` publishes, what the queue takes. -/
lemma published_step {c : MessageQueue.Sizes} {s s' : MessageQueue.Channel}
    {action : MessageQueue.Action} (hstep : MessageQueue.Channel.Step c s action s') :
    s'.published = s.published ++ match action with
      | .publish packet => if (MessageQueue.publish c packet s.queue).1 then [packet] else []
      | _ => [] := by
  cases hstep with
  | publish _ => rfl
  | _ => exact (List.append_nil _).symm

lemma Carries.step {c : MessageQueue.Sizes} {s s' : MessageQueue.Channel} {vals vals' : List α}
    {action : MessageQueue.Action} (h : Carries fl data t c s vals)
    (hstep : TopicStep fl data t c (s, vals) action (s', vals')) :
    Carries fl data t c s' vals' := by
  obtain ⟨hchannel, hvals⟩ := hstep
  have hinv := h.inv.step hchannel
  have hpublished := published_step hchannel
  rw [h.published] at hpublished
  cases action with
  | publish packet =>
      obtain ⟨val, rfl, hvals⟩ := hvals
      cases hsent : (MessageQueue.publish c (forwardToPacket fl data t val) s.queue).1 with
      | true =>
          simp only [hsent, if_true] at hvals hpublished
          rw [hvals]
          have hle := (MessageQueue.publish_eq_true_iff.mp hsent).1
          refine ⟨hinv, by simpa using hpublished, ?_⟩
          exact List.forall_mem_append.mpr ⟨h.small, by simpa using hle⟩
      | false =>
          simp only [hsent, Bool.false_eq_true, if_false, List.append_nil] at hvals hpublished
          rw [hvals]
          exact ⟨hinv, hpublished, h.small⟩
  | destroy | remove | listener | caller =>
      obtain rfl : vals' = vals := hvals
      exact ⟨hinv, hpublished.trans (List.append_nil _), h.small⟩

/-- A topic of bytes. -/
def byteTy : Ty true (BitVec IntWidth.w8.bits) := .pod (.raw .w8)

lemma topic_snoc {c : MessageQueue.Sizes} {σ : MessageQueue.Channel × List α}
    {actions : List MessageQueue.Action} {s s' : MessageQueue.Channel} {vals : List α}
    {action : MessageQueue.Action} (h : Transition.Run (TopicStep fl data t c) σ actions (s, vals))
    (hstep : MessageQueue.Channel.Step c s action s')
    (hother : action = .listener ∨ action = .caller) :
    Transition.Run (TopicStep fl data t c) σ (actions ++ [action]) (s', vals) := by
  refine h.snoc ⟨hstep, ?_⟩
  rcases hother with rfl | rfl <;> rfl

/-- One byte, published and delivered with a blank behind it. -/
lemma run_byte : Transition.Run (TopicStep default none byteTy (sizes default none byteTy {} {} false))
    ({}, []) [.caller, .caller, .publish ⟨[7]⟩, .listener, .listener, .listener]
    (⟨[], .alive, ⟨.check, false, true, [⟨[7, 0x20]⟩], [⟨[7]⟩]⟩, [⟨[7]⟩], false⟩, [7#8]) := by
  have hstart := topic_snoc (topic_snoc (@Transition.Run.nil _ _
    (TopicStep default none byteTy (sizes default none byteTy {} {} false)) ({}, []))
    (.caller (.connect rfl (by decide))) (Or.inr rfl))
    (.caller (.start (Or.inl rfl) rfl)) (Or.inr rfl)
  have hpublish : Transition.Run
      (TopicStep default none byteTy (sizes default none byteTy {} {} false)) ({}, [])
      [.caller, .caller, .publish ⟨[7]⟩]
      (⟨[⟨[7]⟩], .alive, ⟨.check, false, true, [], []⟩, [⟨[7]⟩], false⟩, [7#8]) :=
    hstart.snoc ⟨.publish rfl, 7#8, rfl, rfl⟩
  exact topic_snoc (topic_snoc (topic_snoc hpublish (.listener (.proceed rfl rfl)) (Or.inl rfl))
    (.listener (.receive rfl (by decide))) (Or.inl rfl))
    (.listener (@MessageQueue.ListenerStep.deliver _ _ _ ⟨[7]⟩ rfl (by decide))) (Or.inl rfl)

/-- The packet a thread of the publisher has in hand. -/
@[simp] def inHand : SharedMemory.PublisherPc → Option Packet
  | .lock packet | .setSize packet | .memcpy packet _ => some packet
  | .notify packet | .unlock packet => packet
  | _ => none

variable (fl data t) in
/-- A packet made of a value, of a size that is an `unsigned`. -/
def Typed (packet : Packet) : Prop :=
  ∃ val, packet = forwardToPacket fl data t val ∧ packet.getSize < 2 ^ 32

variable (fl data t) in
/-- A step in which the threads of the publisher are given values. -/
def SharedStep {ω ι : Type} [DecidableEq ω] [DecidableEq ι] (size : ℕ)
    (s : SharedMemory.Channel ω ι) (actor : SharedMemory.Actor ω ι)
    (s' : SharedMemory.Channel ω ι) : Prop :=
  SharedMemory.Channel.step size s actor s' ∧
    ∀ w packet, s.publisher w = .idle → s'.publisher w = .lock packet →
      ∃ val, packet = forwardToPacket fl data t val

/-- A thread has what it has been given, and `publish` returns for that. -/
lemma inHand_step {ω ι : Type} {size : ℕ} {w : ω} {m m' : SharedMemory.MessageObject ω ι}
    {pc pc' : SharedMemory.PublisherPc} {wake : Bool} {returned : Option Packet}
    (hstep : SharedMemory.PublisherStep size w m pc m' pc' wake returned) :
    (∀ packet ∈ inHand pc', packet ∈ inHand pc ∨
      pc = .idle ∧ pc' = .lock packet ∧ packet.getSize ≤ size) ∧
    ∀ packet ∈ returned, packet ∈ inHand pc := by
  cases hstep <;> simp_all

variable (fl data t) in
structure SharedCarries {ω ι : Type} (size : ℕ) (s : SharedMemory.Channel ω ι) : Prop where
  inv : s.Inv size
  inHand : ∀ w, ∀ packet ∈ inHand (s.publisher w), Typed fl data t packet
  published : ∀ packet ∈ s.published, Typed fl data t packet

lemma SharedCarries.step {ω ι : Type} [DecidableEq ω] [DecidableEq ι] {size : ℕ}
    (hsize : size < 2 ^ 32) {s s' : SharedMemory.Channel ω ι} {actor : SharedMemory.Actor ω ι}
    (h : SharedCarries fl data t size s) (hstep : SharedStep fl data t size s actor s') :
    SharedCarries fl data t size s' := by
  obtain ⟨hchannel, hgiven⟩ := hstep
  have hinv := h.inv.step hchannel
  cases actor with
  | listener i =>
      obtain ⟨m, l, -, rfl⟩ := hchannel
      exact ⟨hinv, h.inHand, h.published⟩
  | publisher w =>
      obtain ⟨m, pc, wake, returned, hstep, rfl⟩ := hchannel
      obtain ⟨htakes, hreturns⟩ := inHand_step hstep
      refine ⟨hinv, ?_, ?_⟩
      · intro w' packet hpacket
        by_cases hw : w' = w
        · subst hw
          simp only [Function.update_self] at hpacket
          rcases htakes packet hpacket with hold | ⟨hidle, hlock, hle⟩
          · exact h.inHand w' packet hold
          · obtain ⟨val, hval⟩ := hgiven w' packet hidle (by simpa using hlock)
            exact ⟨val, hval, hle.trans_lt hsize⟩
        · simp only [Function.update_of_ne hw] at hpacket
          exact h.inHand w' packet hpacket
      · intro packet hpacket
        rcases List.mem_append.mp hpacket with hold | hnew
        · exact h.published packet hold
        · exact h.inHand w packet (hreturns packet (by simpa using hnew))

/-- Packets made of values, and the values. -/
lemma exists_values : ∀ {packets : List Packet}, (∀ packet ∈ packets, Typed fl data t packet) →
    ∃ vals : List α, packets = vals.map (forwardToPacket fl data t) ∧
      ∀ val ∈ vals, (forwardToPacket fl data t val).getSize < 2 ^ 32
  | [], _ => ⟨[], rfl, by simp⟩
  | packet :: packets, h => by
      obtain ⟨val, rfl, hsize⟩ := h packet (by simp)
      obtain ⟨vals, rfl, hvals⟩ := exists_values fun p hp => h p (List.mem_cons_of_mem _ hp)
      exact ⟨val :: vals, rfl, List.forall_mem_cons.mpr ⟨hsize, hvals⟩⟩

lemma SharedCarries.initial (ω ι : Type) (size : ℕ) :
    SharedCarries fl data t size (SharedMemory.Channel.initial size : SharedMemory.Channel ω ι) :=
  ⟨SharedMemory.Channel.Inv.initial ω ι size, by simp [SharedMemory.Channel.initial],
    by simp [SharedMemory.Channel.initial]⟩

/-- A listener hands over what has been published, in its order, with gaps. -/
lemma SharedCarries.heard {ω ι : Type} {size : ℕ} {s : SharedMemory.Channel ω ι}
    (h : SharedCarries fl data t size s) :
    ∃ vals : List α, s.published = vals.map (forwardToPacket fl data t) ∧
      (∀ val ∈ vals, (forwardToPacket fl data t val).getSize < 2 ^ 32) ∧
      ∀ i, ∃ heard : List α, heard.Sublist vals ∧
        (s.listener i).delivered = heard.map (forwardToPacket fl data t) := by
  obtain ⟨vals, hpublished, hvals⟩ := exists_values h.published
  refine ⟨vals, hpublished, hvals, fun i => ?_⟩
  have hdelivered := (h.inv.listener i).delivered
  rw [hpublished] at hdelivered
  exact List.sublist_map_iff.mp hdelivered

/-- A step of the only listener of a topic. -/
lemma shared_listener {size : ℕ} {m m' : SharedMemory.MessageObject Unit Unit}
    {pc : SharedMemory.PublisherPc} {l l' : SharedMemory.Listener} {published : List Packet}
    (hstep : SharedMemory.ListenerStep () m l m' l') :
    SharedStep fl data t size ⟨m, fun _ => pc, fun _ => l, published⟩ (.listener ())
      ⟨m', fun _ => pc, fun _ => l', published⟩ := by
  refine ⟨SharedMemory.Channel.step_listener hstep, ?_⟩
  intro w packet hidle hlock
  exact nomatch hidle.symm.trans hlock

/-- A step of the only thread that publishes on a topic. -/
lemma shared_publisher {size : ℕ} {m m' : SharedMemory.MessageObject Unit Unit}
    {pc pc' : SharedMemory.PublisherPc} {l l' : SharedMemory.Listener} {wake : Bool}
    {returned : Option Packet} {published : List Packet}
    (hstep : SharedMemory.PublisherStep size () m pc m' pc' wake returned)
    (hwake : (if wake then l.wake else l) = l')
    (htyped : ∀ packet, pc' = .lock packet → ∃ val, packet = forwardToPacket fl data t val) :
    SharedStep fl data t size ⟨m, fun _ => pc, fun _ => l, published⟩ (.publisher ())
      ⟨m', fun _ => pc', fun _ => l', published ++ returned.toList⟩ :=
  ⟨SharedMemory.Channel.step_publisher hstep hwake, fun _ packet _ hlock => htyped packet hlock⟩

/-- The bytes go into the shared memory one by one. -/
lemma run_copy_in {size : ℕ} {m : SharedMemory.MessageObject Unit Unit} {l : SharedMemory.Listener}
    {published : List Packet} (packet : Packet) (hroom : packet.getSize ≤ m.bytes.length) {k : ℕ}
    (hk : k ≤ packet.getSize) :
    ∃ actors, Transition.Run (SharedStep fl data t size)
      ⟨m, fun _ => .memcpy packet 0, fun _ => l, published⟩ actors
      ⟨{ m with bytes := packet.buffer_.take k ++ m.bytes.drop k }, fun _ => .memcpy packet k,
        fun _ => l, published⟩ := by
  induction k with
  | zero => exact ⟨[], Transition.Run.nil⟩
  | succ k ih =>
      obtain ⟨actors, hrun⟩ := ih (by omega)
      have hlt : k < packet.buffer_.length := hk
      have hbyte : packet.buffer_[k]? = some packet.buffer_[k] := List.getElem?_eq_getElem hlt
      have hset : (packet.buffer_.take k ++ m.bytes.drop k).set k packet.buffer_[k] =
          packet.buffer_.take (k + 1) ++ m.bytes.drop (k + 1) := by
        rw [List.set_append_right _ _ (by simp), List.length_take, Nat.min_eq_left hlt.le,
          Nat.sub_self, List.drop_eq_getElem_cons (by omega), List.set_cons_zero,
          List.take_add_one, hbyte, Option.toList_some, List.append_assoc, List.singleton_append]
      have hstep := hrun.snoc (shared_publisher (.memcpy hbyte) rfl (by simp))
      simp only [hset, Option.toList_none, List.append_nil] at hstep
      exact ⟨_, hstep⟩

/-- And out of it. -/
lemma run_copy_out {size n : ℕ} {m : SharedMemory.MessageObject Unit Unit}
    {pc : SharedMemory.PublisherPc} {l : SharedMemory.Listener} {published : List Packet}
    (hroom : n ≤ m.bytes.length) {k : ℕ} (hk : k ≤ n) :
    ∃ actors, Transition.Run (SharedStep fl data t size)
      ⟨m, fun _ => pc, fun _ => { l with pc := .memcpy n [] }, published⟩ actors
      ⟨m, fun _ => pc, fun _ => { l with pc := .memcpy n (m.bytes.take k) }, published⟩ := by
  induction k with
  | zero => exact ⟨[], Transition.Run.nil⟩
  | succ k ih =>
      obtain ⟨actors, hrun⟩ := ih (by omega)
      have hlt : k < m.bytes.length := by omega
      have hlength : (m.bytes.take k).length = k := List.length_take_of_le hlt.le
      have hbyte : m.bytes[(m.bytes.take k).length]? = some m.bytes[k] := by
        rw [hlength, List.getElem?_eq_getElem]
      have hstep := hrun.snoc (shared_listener (.memcpy rfl (by omega) hbyte))
      rw [List.take_concat_get'] at hstep
      exact ⟨_, hstep⟩

/-- A value that is published while the listener waits is handed over. -/
lemma run_delivers (fl : FloatCast) (data : Option DataPresentation) (t : Ty o α) (val : α) :
    ∃ actors, ∃ s : SharedMemory.Channel Unit Unit,
    Transition.Run (SharedStep fl data t (forwardToPacket fl data t val).getSize)
      (SharedMemory.Channel.initial (forwardToPacket fl data t val).getSize) actors s ∧
    (s.listener ()).delivered = [forwardToPacket fl data t val] ∧
    s.published = [forwardToPacket fl data t val] := by
  generalize hpacket : forwardToPacket fl data t val = packet
  have hval : ∃ val, packet = forwardToPacket fl data t val := ⟨val, hpacket.symm⟩
  let waiting : SharedMemory.Listener := { pc := .waiting false, listenerCanceled_ := false }
  let free : SharedMemory.MessageObject Unit Unit :=
    { mtx := .shared ((insert () ∅ : Finset Unit).erase ()), maxPacketSize := packet.getSize,
      bytes := List.replicate packet.getSize 0 }
  have hwait : Transition.Run (SharedStep fl data t packet.getSize)
      (SharedMemory.Channel.initial packet.getSize : SharedMemory.Channel Unit Unit)
      (List.replicate 4 (.listener ())) ⟨free, fun _ => .idle, fun _ => waiting, []⟩ :=
    (((Transition.Run.nil.snoc (shared_listener .start)).snoc
      (shared_listener (.spawn rfl rfl))).snoc (shared_listener (.lock rfl rfl))).snoc
      (shared_listener (.wait rfl rfl rfl))
  have hopen : Transition.Run (SharedStep fl data t packet.getSize)
      ⟨free, fun _ => .idle, fun _ => waiting, []⟩ (List.replicate 3 (.publisher ()))
      ⟨{ free with mtx := .exclusive (), packetSize := packet.getSize },
        fun _ => .memcpy packet 0, fun _ => waiting, []⟩ :=
    ((Transition.Run.nil.snoc (shared_publisher (.publish packet (by omega)) rfl
        fun packet hlock => SharedMemory.PublisherPc.lock.inj hlock ▸ hval)).snoc
      (shared_publisher (.lock (congrArg SharedMemory.SharableMutex.shared rfl)) rfl (by simp))).snoc
      (shared_publisher .setSize rfl (by simp))
  obtain ⟨ins, hin⟩ := @run_copy_in fl _ _ data t packet.getSize
    { free with mtx := .exclusive (), packetSize := packet.getSize } waiting [] packet
    (by simp [free]) packet.getSize le_rfl
  have hbytes : packet.buffer_.take packet.getSize ++ free.bytes.drop packet.getSize =
      packet.buffer_ := by
    simp [free, Packet.getSize]
  rw [hbytes] at hin
  let full : SharedMemory.MessageObject Unit Unit :=
    { maxPacketSize := packet.getSize, packetSize := packet.getSize, bytes := packet.buffer_ }
  have hpublish : Transition.Run (SharedStep fl data t packet.getSize)
      ⟨{ full with mtx := .exclusive () }, fun _ => .memcpy packet packet.getSize,
        fun _ => waiting, []⟩ (List.replicate 3 (.publisher ()))
      ⟨full, fun _ => .idle, fun _ => { waiting with pc := .waiting true }, [packet]⟩ :=
    ((Transition.Run.nil.snoc (shared_publisher .copied rfl (by simp))).snoc
      (shared_publisher .notify rfl (by simp))).snoc (shared_publisher .unlock rfl (by simp))
  have hwakeup : Transition.Run (SharedStep fl data t packet.getSize)
      ⟨full, fun _ => .idle, fun _ => { waiting with pc := .waiting true }, [packet]⟩
      (List.replicate 4 (.listener ()))
      ⟨{ full with mtx := .shared (insert () ∅) }, fun _ => .idle,
        fun _ => { waiting with pc := .memcpy packet.getSize [] }, [packet]⟩ :=
    (((Transition.Run.nil.snoc (shared_listener (.wakeup rfl))).snoc
      (shared_listener (.relock rfl rfl))).snoc (shared_listener (.active rfl rfl))).snoc
      (shared_listener (.resize rfl))
  obtain ⟨outs, hout⟩ := @run_copy_out fl _ _ data t packet.getSize packet.getSize
    { full with mtx := .shared (insert () ∅) } .idle waiting [packet] le_rfl packet.getSize le_rfl
  have hall : packet.buffer_.take packet.getSize = packet.buffer_ := List.take_length
  rw [hall] at hout
  exact ⟨_, _, (((((hwait.trans hopen).trans hin).trans hpublish).trans hwakeup).trans hout).snoc
    (shared_listener (.deliver rfl rfl)), rfl, rfl⟩

end CpsCore.IPC

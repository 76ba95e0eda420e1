import Mathlib
import CpsCore.DataPresentation.BinarySerialization

/-!
# What `dp::extract` guarantees

`dp::extract` should stay inside the packet and be atomic: either it decodes a value from a
prefix of the packet and removes that prefix, or it returns `T()` and leaves the packet alone.

The archive does not check the end of a block, so this depends on the packet.  `WellBounded`
reads the packet with the checked archive; `extract_contract_iff` says that the contract holds
exactly for empty and for well-bounded packets.
-/

namespace CpsCore.dp

open StateExcept

variable (fl : FloatCast) {o : Bool} {α : Type} (t : Ty o α) (options : ArchiveOptions)

/-- The blocks of the string that decoding copies, as offset and length. -/
def blocksRead (beyond : ℕ → UInt8) (packet : Packet) : List (ℕ × ℕ) :=
  if packet.getSize = 0 then []
  else (endState (decode fl t t.default options beyond packet)).blocks

/-- `val` was decoded from the bytes read: the packet loses exactly these, and any other string
that has them at the same places decodes to `val`, whatever follows it in memory. -/
def Decoded (beyond : ℕ → UInt8) (packet : Packet) (val : α) (packet' : Packet) : Prop :=
  packet.getSize ≠ 0 ∧ ∃ ar, decode fl t t.default options beyond packet = .ok val ar ∧
    ar.getConsumed = (ar.blocks.map Prod.snd).sum ∧
    packet' = ⟨packet.buffer_.drop ar.getConsumed⟩ ∧
    ∀ (other : Packet) (beyond' : ℕ → UInt8),
      (∀ b ∈ ar.blocks, ∀ i, b.1 ≤ i → i < b.1 + b.2 → other.buffer_[i]? = packet.buffer_[i]?) →
        ∃ ar', decode fl t t.default options beyond' other = .ok val ar'

/-- Nothing was decoded: `T()` is returned and the packet is as before. -/
def Rejected (beyond : ℕ → UInt8) (packet : Packet) (val : α) (packet' : Packet) : Prop :=
  (packet.getSize = 0 ∨
    ∃ what ar, decode fl t t.default options beyond packet = .error (.archiveError what) ar) ∧
  val = t.default ∧ packet' = packet

/-- Decoding stays inside the buffer and has exactly one of the two outcomes. -/
def ExtractContract (beyond : ℕ → UInt8) (packet : Packet) : Prop :=
  (∀ b ∈ blocksRead fl t options beyond packet, b.1 + b.2 ≤ packet.getSize) ∧
  ∃ val packet', extract fl t options beyond packet = .ok val packet' ∧
    Xor (Decoded fl t options beyond packet val packet')
      (Rejected fl t options beyond packet val packet')

/-- Read with bounds checks, the packet holds a value, or ends where a block would begin: no
block sticks out of it, no matrix is impossible, no configuration text is malformed. -/
def WellBounded (packet : Packet) : Prop :=
  match (load fl Checked.archive t t.default).run ⟨options, packet.buffer_, 0⟩ with
  | .ok _ _ => True
  | .error e _ => e = endOfData

variable {fl t options}

lemma Decoded.not_rejected {beyond : ℕ → UInt8} {packet packet' : Packet} {val : α}
    (h : Decoded fl t options beyond packet val packet') :
    ¬Rejected fl t options beyond packet val packet' := by
  obtain ⟨hsize, ar, hdecode, -⟩ := h
  rintro ⟨hempty | ⟨what, ar', herror⟩, -⟩
  · exact hsize hempty
  · rw [hdecode] at herror
    cases herror

lemma extract_of_ok {beyond : ℕ → UInt8} {packet : Packet} {val : α} {ar : BinaryFromArchive}
    (hsize : packet.getSize ≠ 0) (h : decode fl t t.default options beyond packet = .ok val ar) :
    extract fl t options beyond packet = .ok val (packet.consume ar.getConsumed).2 := by
  rw [extract, if_neg hsize, h]

lemma extract_of_archiveError {beyond : ℕ → UInt8} {packet : Packet} {what : String}
    {ar : BinaryFromArchive} (hsize : packet.getSize ≠ 0)
    (h : decode fl t t.default options beyond packet = .error (.archiveError what) ar) :
    extract fl t options beyond packet = .ok t.default packet := by
  rw [extract, if_neg hsize, h]

lemma extract_of_empty {beyond : ℕ → UInt8} {packet : Packet} (hsize : packet.getSize = 0) :
    extract fl t options beyond packet = .ok t.default packet := by
  rw [extract, if_pos hsize]

/-- The binary archive next to the checked one, where that reads a value. -/
lemma decode_of_checked_ok {packet : Packet} {prior val : α} {ch : Checked}
    (hch : (load fl Checked.archive t prior).run ⟨options, packet.buffer_, 0⟩ = .ok val ch)
    (beyond : ℕ → UInt8) :
    ∃ ar, decode fl t prior options beyond packet = .ok val ar ∧
      Follows packet.buffer_ ar ch := by
  have htracks := (load_related fl (binary_follows packet.buffer_) t prior).1 _ _
    (follows_open packet.buffer_ options beyond)
  rwa [hch] at htracks

/-- The binary archive next to the checked one, where that throws. -/
lemma decode_of_checked_error {packet : Packet} {prior : α} {e : Exn} {ch : Checked}
    (hch : (load fl Checked.archive t prior).run ⟨options, packet.buffer_, 0⟩ = .error e ch)
    (beyond : ℕ → UInt8) :
    Left packet.buffer_ e (endError (decode fl t prior options beyond packet))
      (endState (decode fl t prior options beyond packet)) := by
  have htracks := (load_related fl (binary_follows packet.buffer_) t prior).1 _ _
    (follows_open packet.buffer_ options beyond)
  rwa [hch] at htracks

/-- From a short packet, only a block outside strays. -/
lemma end_of_checked_error {packet : Packet} {prior : α} {e : Exn} {ch : Checked}
    (hch : (load fl Checked.archive t prior).run ⟨options, packet.buffer_, 0⟩ = .error e ch)
    {beyond : ℕ → UInt8} (hlen : packet.buffer_.length < 2 ^ 32)
    (hinside : ∀ blk ∈ (endState (decode fl t prior options beyond packet)).blocks,
      blk.1 + blk.2 ≤ packet.buffer_.length) :
    e ≠ overrun ∧ endError (decode fl t prior options beyond packet) = some e := by
  obtain ⟨hstr, hleft⟩ := decode_of_checked_error hch beyond
  split_ifs at hleft with hover
  · rcases hleft with ⟨blk, hblk, hout⟩ | ⟨-, hlong⟩
    · rw [hstr] at hout
      exact absurd (hinside blk hblk) (Nat.not_le.mpr hout)
    · rw [hstr] at hlong
      exact absurd hlong (Nat.not_le.mpr hlen)
  · exact ⟨hover, hleft.1⟩

/-- A string that has the bytes of the blocks has the whole prefix they cover. -/
lemma InBounds.prefix_eq {ar : BinaryFromArchive} (h : InBounds ar) {other : Bytes}
    (hsame : ∀ b ∈ ar.blocks, ∀ i, b.1 ≤ i → i < b.1 + b.2 → other[i]? = ar.string_[i]?) :
    ∃ r, other = ar.string_.take ar.idx_ ++ r := by
  refine ⟨other.drop ar.idx_, ?_⟩
  have htake : other.take ar.idx_ = ar.string_.take ar.idx_ := by
    refine List.ext_getElem? fun i => ?_
    rcases Nat.lt_or_ge i ar.idx_ with hlt | hge
    · obtain ⟨b, hb, hle, hin⟩ := h.covers i hlt
      rw [List.getElem?_take_of_lt hlt, List.getElem?_take_of_lt hlt]
      exact hsame b hb i hle hin
    · rw [List.getElem?_take_eq_none hge, List.getElem?_take_eq_none hge]
  rw [← htake, List.take_append_drop]

/-- **A value within bounds depends on nothing else.** -/
lemma decoded_of_checked_ok {beyond : ℕ → UInt8} {packet : Packet} {val : α} {ch : Checked}
    (hsize : packet.getSize ≠ 0)
    (hch : (load fl Checked.archive t t.default).run ⟨options, packet.buffer_, 0⟩ = .ok val ch) :
    ∃ ar, decode fl t t.default options beyond packet = .ok val ar ∧ InBounds ar ∧
      ar.string_ = packet.buffer_ ∧
      Decoded fl t options beyond packet val ⟨packet.buffer_.drop ar.getConsumed⟩ := by
  obtain ⟨ar, hdecode, hstr, hin, hstate⟩ := decode_of_checked_ok hch beyond
  refine ⟨ar, hdecode, hin, hstr, hsize, ar, hdecode, hin.total.symm, rfl, ?_⟩
  intro other beyond' hsame
  -- the checked archive takes the same prefix off both packets
  obtain ⟨used, r, hbuf, hlocal⟩ := load_related fl checked_local t t.default _ _ _ _ _ hch
  have hused : used = ar.string_.take ar.idx_ := by
    have hend := hch.symm.trans (hbuf ▸ hlocal r)
    simp only [EStateM.Result.ok.injEq, true_and] at hend
    have hidx : ar.idx_ = used.length := by
      have hcons := congrArg Checked.consumed (hstate.symm.trans hend)
      simpa using hcons
    rw [hstr, hidx, hbuf, List.take_left]
  obtain ⟨r', hother⟩ := hin.prefix_eq (hstr ▸ hsame)
  have hch' := hlocal r'
  rw [hused, ← hother] at hch'
  obtain ⟨ar', hdecode', -⟩ := decode_of_checked_ok hch' beyond'
  exact ⟨ar', hdecode'⟩

/-- **Strayed means broken.**  A block outside contradicts the first half of the contract; a
packet too large to count is either consumed by the wrong amount or not rejected. -/
lemma not_contract_of_strayed {beyond : ℕ → UInt8} {packet : Packet}
    (hsize : packet.getSize ≠ 0)
    (hstr : (endState (decode fl t t.default options beyond packet)).string_ = packet.buffer_)
    (hstrayed : Strayed (endState (decode fl t t.default options beyond packet))) :
    ¬ExtractContract fl t options beyond packet := by
  rintro ⟨hinside, val, packet', -, hxor⟩
  rw [blocksRead, if_neg hsize] at hinside
  rcases hstrayed with ⟨b, hb, hout⟩ | ⟨hcount, hlen⟩
  · have hb' := hinside b hb
    rw [hstr] at hout
    exact absurd hb' (Nat.not_le.mpr hout)
  · rw [hstr] at hlen
    rcases Xor.or hxor with ⟨-, ar, hdecode, htotal, -⟩ | ⟨hempty | ⟨what, ar, herror⟩, -⟩
    · have hidx := decode_index hdecode
      rw [hdecode, endState_ok] at hcount
      omega
    · exact hsize hempty
    · exact absurd (decode_archiveError herror) (Nat.not_lt.mpr hlen)

/-- **When `dp::extract` keeps its contract.** -/
theorem extract_contract_iff (fl : FloatCast) {o : Bool} {α : Type} (t : Ty o α)
    (options : ArchiveOptions) (beyond : ℕ → UInt8) (packet : Packet) :
    ExtractContract fl t options beyond packet ↔
      packet.buffer_ = [] ∨ WellBounded fl t options packet := by
  by_cases hsize : packet.getSize = 0
  · have hnil : packet.buffer_ = [] := List.eq_nil_of_length_eq_zero hsize
    refine iff_of_true ⟨?_, t.default, packet, extract_of_empty hsize, ?_⟩ (Or.inl hnil)
    · simp [blocksRead, hsize]
    · exact Or.inr ⟨⟨Or.inl hsize, rfl, rfl⟩, fun h => h.1 hsize⟩
  have hne : packet.buffer_ ≠ [] := fun hnil => hsize (by rw [Packet.getSize, hnil]; rfl)
  rw [or_iff_right hne, WellBounded]
  cases hch : (load fl Checked.archive t t.default).run ⟨options, packet.buffer_, 0⟩ with
  | ok val ch =>
      obtain ⟨ar, hdecode, hin, hstr, hdecoded⟩ := @decoded_of_checked_ok fl _ _ t options beyond
        packet val ch hsize hch
      have hconsume : (packet.consume ar.getConsumed).2 =
          ⟨packet.buffer_.drop ar.getConsumed⟩ :=
        Packet.consume_of_le (hstr ▸ hin.idx_le)
      refine iff_of_true ⟨?_, val, _, extract_of_ok hsize hdecode, ?_⟩ trivial
      · rw [blocksRead, if_neg hsize, hdecode, endState_ok, Packet.getSize, ← hstr]
        exact hin.inside
      · rw [hconsume]
        exact Or.inl ⟨hdecoded, hdecoded.not_rejected⟩
  | error e ch =>
      obtain ⟨hstr, hleft⟩ := decode_of_checked_error hch beyond
      have herrors := load_related fl checked_errors t t.default ⟨options, packet.buffer_, 0⟩ trivial
      rw [hch] at herrors
      split_ifs at hleft with hover
      · exact iff_of_false (not_contract_of_strayed hsize hstr hleft)
          (by rw [hover]; exact endOfData_ne_overrun.symm)
      · -- both archives throw the same error
        obtain ⟨herror, hin⟩ := hleft
        cases hdecode : decode fl t t.default options beyond packet with
        | ok val ar => rw [hdecode] at herror; cases herror
        | error e' ar =>
            rw [hdecode] at herror hin hstr
            obtain rfl : e' = e := Option.some.inj herror
            rcases herrors with rfl | hover' | rfl | rfl
            · refine iff_of_true ⟨?_, t.default, packet,
                extract_of_archiveError hsize hdecode, ?_⟩ rfl
              · rw [blocksRead, if_neg hsize, hdecode, Packet.getSize, ← hstr]
                exact hin.inside
              · refine Or.inr ⟨⟨Or.inr ⟨_, ar, hdecode⟩, rfl, rfl⟩, fun h => ?_⟩
                obtain ⟨-, ar', hok, -⟩ := h
                rw [hdecode] at hok
                cases hok
            · exact absurd hover' hover
            · refine iff_of_false (fun h => ?_) Exn.noConfusion
              obtain ⟨-, val, packet', hext, -⟩ := h
              rw [extract, if_neg hsize, hdecode] at hext
              cases hext
            · refine iff_of_false (fun h => ?_) Exn.noConfusion
              obtain ⟨-, val, packet', hext, -⟩ := h
              rw [extract, if_neg hsize, hdecode] at hext
              cases hext

/-- A packet of one byte, decoded as a `uint16_t`: `begin` sees the byte, two bytes are copied,
and the packet stays as it is because it has no two bytes to consume. -/
theorem extract_past_the_end :
    ¬ExtractContract default (.pod (.raw .w16)) ⟨true⟩ (fun _ => 255) ⟨[1]⟩ := by
  rintro ⟨hinside, -⟩
  exact absurd (hinside (0, 2) (by decide)) (by decide)

end CpsCore.dp

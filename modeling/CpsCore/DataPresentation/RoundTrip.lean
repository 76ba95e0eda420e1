import Mathlib
import CpsCore.DataPresentation.BinarySerialization

/-!
# The round trip of the binary codec

A sequence of values of any types is streamed into one archive and read back from it, with
anything behind it; headers are pushed onto a packet and taken off in reverse order.

* `readsBack_iff` — a sequence comes back exactly when every value settles in its target.
* `extractHeader_addHeader` — what one header does.
* `codec_round_trip` — both, with the index of the archive taken into account: it is an
  `unsigned int`, so an encoding of `2 ^ 32` bytes or more is never consumed as such.
-/

namespace CpsCore.dp

open StateExcept

variable (fl : FloatCast)

/-- A value with its type. -/
structure Value where
  {o : Bool}
  {α : Type}
  ty : Ty o α
  val : α

/-- A value, and the object it is to be read into. -/
structure Item extends Value where
  target : α

/-- The encoding of one value, as `BinaryToArchive` writes it. -/
def Value.encoding (opts : ArchiveOptions) (v : Value) : Bytes :=
  (serialize fl v.ty v.val opts).buffer_

/-- `archive << v1 << v2 << …` on an empty string. -/
def written (opts : ArchiveOptions) (items : List Item) : Bytes :=
  (items.foldl (fun ar it => store fl BinaryToArchive.archive it.ty it.val ar)
    (⟨opts, []⟩ : BinaryToArchive)).string_

/-- `archive >> t1 >> t2 >> …` returns the values and ends in `ar'`. -/
def ReadsBack : List Item → BinaryFromArchive → BinaryFromArchive → Prop
  | [], ar, ar' => ar' = ar
  | it :: items, ar, ar' => ∃ ar₁,
      (load fl BinaryFromArchive.archive it.ty it.target).run ar = .ok it.val ar₁ ∧
        ReadsBack items ar₁ ar'

/-- The encodings stand one behind the other, every value comes back, and what is consumed is
what was written, so that `trailing` is next. -/
def RoundTrips (opts : ArchiveOptions) (items : List Item) (trailing : Bytes)
    (beyond : ℕ → UInt8) : Prop :=
  written fl opts items = items.flatMap (fun it => it.encoding fl opts) ∧
    ∃ ar', ReadsBack fl items
        (BinaryFromArchive.open_ (written fl opts items ++ trailing) opts beyond) ar' ∧
      ar'.getConsumed = (written fl opts items).length

/-- The packet after the headers were pushed; the last one pushed stands first. -/
def pushHeaders (self : DataPresentation) (packet : Packet) : List Value → Packet
  | [] => packet
  | h :: headers => self.addHeader fl h.ty h.val (pushHeaders self packet headers)

/-- Every extraction returns the header pushed last and restores the packet it was pushed on. -/
def HeadersComeBack (self : DataPresentation) (packet : Packet) (beyond : ℕ → UInt8) :
    List Value → Prop
  | [] => True
  | h :: headers =>
      self.extractHeader fl h.ty beyond (pushHeaders fl self packet (h :: headers)) =
          .ok h.val (pushHeaders fl self packet headers) ∧
        HeadersComeBack self packet beyond headers

/-! ## Sequences -/

section Items

variable {fl}

lemma Value.encoding_eq (opts : ArchiveOptions) (v : Value) :
    v.encoding fl opts = enc fl opts.compressDouble v.ty v.val :=
  serialize_eq v.ty v.val opts

lemma written_eq (opts : ArchiveOptions) (items : List Item) :
    written fl opts items = items.flatMap fun it => it.encoding fl opts := by
  have hstore := @foldl_append_eq _ _ BinaryToArchive.lawful _ _
    (fun c (it : Item) => enc fl c it.ty it.val)
    (fun ar (it : Item) => store_eq fl BinaryToArchive.lawful it.ty it.val ar) items ⟨opts, []⟩
  rw [written, hstore]
  simp only [Value.encoding_eq]
  rfl

/-- Induction on the sequence: the archive is at the encoding of the next value, and moves to
the one after it whatever became of the value. -/
theorem readsBack_iff {opts : ArchiveOptions} (hopts : opts.compressDouble = false)
    {str r : Bytes} : ∀ (items : List Item) (k : ℕ) (ar : BinaryFromArchive),
    (∀ it ∈ items, Fits it.ty it.val) →
    Follows str ar ⟨opts, items.flatMap (fun it => it.encoding fl opts) ++ r, k⟩ →
    k + (items.flatMap fun it => it.encoding fl opts).length < 2 ^ 32 →
    ((∃ ar', ReadsBack fl items ar ar' ∧
        ar'.getConsumed = k + (items.flatMap fun it => it.encoding fl opts).length) ↔
      ∀ it ∈ items, Settles it.ty it.target it.val)
  | [], k, ar, _, har, _ => by
      have hidx : ar.getConsumed = k := har.getConsumed
      simp [ReadsBack, hidx]
  | it :: items, k, ar, hfits, har, hcount => by
      rw [List.flatMap_cons, List.append_assoc, Value.encoding_eq] at har
      rw [List.flatMap_cons, List.length_append, Value.encoding_eq, ← Nat.add_assoc] at hcount ⊢
      obtain ⟨ar₁, hrun, har₁⟩ := load_enc_follows it.ty it.target (hfits it (by simp)) har
        (by omega)
      have ih := readsBack_iff hopts items _ ar₁
        (fun x hx => hfits x (List.mem_cons_of_mem _ hx)) har₁ hcount
      rw [List.forall_mem_cons, ← ih, ← readBack_eq_iff fl it.ty it.target it.val
        (hfits it (by simp)), ← hopts]
      simp only [ReadsBack, hrun, EStateM.Result.ok.injEq]
      constructor
      · rintro ⟨ar', ⟨ar₂, ⟨hval, rfl⟩, hrest⟩, hidx⟩
        exact ⟨hval, ar', hrest, hidx⟩
      · rintro ⟨hval, ar', hrest, hidx⟩
        exact ⟨ar', ⟨ar₁, ⟨hval, rfl⟩, hrest⟩, hidx⟩

lemma ReadsBack.index {str : Bytes} : ∀ {items : List Item} {ar ar' : BinaryFromArchive},
    ReadsBack fl items ar ar' → ar.string_ = str ∧ ar.idx_ < 2 ^ 32 → ar'.idx_ < 2 ^ 32
  | [], ar, ar', h, hidx => by
      obtain rfl : ar' = ar := h
      exact hidx.2
  | it :: items, ar, ar', h, hidx => by
      obtain ⟨ar₁, hrun, hrest⟩ := h
      have hkeep := load_related fl (binary_index str) it.ty it.target ar hidx
      rw [hrun] at hkeep
      exact ReadsBack.index hrest hkeep

theorem roundTrips_iff {opts : ArchiveOptions} (hopts : opts.compressDouble = false)
    {items : List Item} (hfits : ∀ it ∈ items, Fits it.ty it.val) (trailing : Bytes)
    (beyond : ℕ → UInt8) :
    RoundTrips fl opts items trailing beyond ↔
      (items.flatMap fun it => it.encoding fl opts).length < 2 ^ 32 ∧
        ∀ it ∈ items, Settles it.ty it.target it.val := by
  rw [RoundTrips, written_eq, and_iff_right rfl]
  have hopen := follows_open (items.flatMap (fun it => it.encoding fl opts) ++ trailing) opts beyond
  have hseq := readsBack_iff hopts items 0 _ hfits hopen
  rw [Nat.zero_add] at hseq
  constructor
  · rintro ⟨ar', hread, hidx⟩
    have hlt : ar'.getConsumed < 2 ^ 32 := hread.index ⟨rfl, Nat.two_pow_pos 32⟩
    rw [hidx] at hlt
    exact ⟨hlt, (hseq hlt).mp ⟨ar', hread, hidx⟩⟩
  · rintro ⟨hlt, hsettles⟩
    exact (hseq hlt).mpr hsettles

end Items

/-! ## Headers -/

section Headers

variable {fl} {self : DataPresentation} {beyond : ℕ → UInt8}

/-- One header: it comes back, and the packet with it, unless the index wraps around or the
default-constructed header the code reads into already holds something. -/
theorem extractHeader_addHeader (hopts : self.params.compressDouble = false) {h : Value}
    (hfits : Fits h.ty h.val) (packet : Packet) :
    self.extractHeader fl h.ty beyond (self.addHeader fl h.ty h.val packet) = .ok h.val packet ↔
      (h.encoding fl self.params).length < 2 ^ 32 ∧ Settles h.ty h.ty.default h.val := by
  have hbuf : (self.addHeader fl h.ty h.val packet).buffer_ =
      h.encoding fl self.params ++ packet.buffer_ := rfl
  rcases Nat.lt_or_ge (h.encoding fl self.params).length (2 ^ 32) with hlt | hge
  · have hcount : (enc fl self.params.compressDouble h.ty h.val).length < 2 ^ 32 := by
      rwa [← Value.encoding_eq]
    obtain ⟨ar, hdecode, hrest⟩ := decode_enc h.ty h.ty.default hfits hcount beyond
      (hbuf.trans (by rw [Value.encoding_eq]))
    rw [DataPresentation.extractHeader, hdecode]
    simp only [hrest, EStateM.Result.ok.injEq, and_true]
    rw [hopts, readBack_eq_iff fl h.ty _ _ hfits]
    exact (and_iff_right hlt).symm
  · refine iff_of_false (fun hext => ?_) fun hlt => absurd hlt.1 (Nat.not_lt.mpr hge)
    rw [DataPresentation.extractHeader] at hext
    cases hdecode : decode fl h.ty h.ty.default self.params beyond
        (self.addHeader fl h.ty h.val packet) with
    | error e ar => rw [hdecode] at hext; simp at hext
    | ok val ar =>
        -- too little is consumed, so too much is left
        have hidx := decode_index hdecode
        rw [hdecode] at hext
        simp only [EStateM.Result.ok.injEq] at hext
        have hle : ar.getConsumed ≤ (self.addHeader fl h.ty h.val packet).buffer_.length := by
          rw [hbuf, List.length_append]
          omega
        rw [Packet.consume_of_le hle, hbuf] at hext
        have hlen := congrArg (fun p => p.buffer_.length) hext.2
        simp only [List.length_drop, List.length_append] at hlen
        omega

lemma headersComeBack_iff (hopts : self.params.compressDouble = false) (packet : Packet) :
    ∀ headers : List Value, (∀ h ∈ headers, Fits h.ty h.val) →
      (HeadersComeBack fl self packet beyond headers ↔
        ∀ h ∈ headers, (h.encoding fl self.params).length < 2 ^ 32 ∧
          Settles h.ty h.ty.default h.val)
  | [], _ => by simp [HeadersComeBack]
  | h :: headers, hfits => by
      rw [HeadersComeBack, List.forall_mem_cons, pushHeaders,
        extractHeader_addHeader hopts (hfits h (by simp)),
        headersComeBack_iff hopts packet headers fun x hx => hfits x (List.mem_cons_of_mem _ hx)]

end Headers

/-- **The round trip, and when it holds.**  For values that fit their size fields, with doubles
uncompressed and fresh targets, a sequence round-trips exactly when its encodings are shorter
than `2 ^ 32` bytes altogether and the elements inside the values settle in the defaults of
their types; a stack of headers exactly when each header does. -/
theorem codec_round_trip (opts : ArchiveOptions) (hopts : opts.compressDouble = false)
    (items : List Item) (hfits : ∀ it ∈ items, Fits it.ty it.val)
    (hfresh : ∀ it ∈ items, Fresh it.ty it.target) (trailing : Bytes) (beyond : ℕ → UInt8)
    (headers : List Value) (hheaders : ∀ h ∈ headers, Fits h.ty h.val) (packet : Packet) :
    (RoundTrips fl opts items trailing beyond ↔
      (items.flatMap fun it => it.encoding fl opts).length < 2 ^ 32 ∧
        ∀ it ∈ items, ElementsSettle it.ty it.val) ∧
    (HeadersComeBack fl ⟨opts⟩ packet beyond headers ↔
      ∀ h ∈ headers, (h.encoding fl opts).length < 2 ^ 32 ∧ Settles h.ty h.ty.default h.val) := by
  refine ⟨?_, headersComeBack_iff hopts packet headers hheaders⟩
  rw [roundTrips_iff hopts hfits]
  refine and_congr_right fun _ => forall₂_congr fun it hit => ?_
  exact settles_iff_of_fresh it.ty it.val (hfresh it hit)

/-- A parameter set with a vector and an optional, as a message type has them. -/
def messageTy : Ty false (List (BitVec 8) × Option Bytes × Unit) :=
  .param [] (.vector (.pod (.raw .w8))) (.param none (.optional .string) .noParams)

theorem codec_round_trip_message :
    RoundTrips default ⟨false⟩ [⟨⟨messageTy, ([1#8, 2#8], some [65], ())⟩, ([], none, ())⟩] [7]
        (fun _ => 0) ∧
      HeadersComeBack default ⟨⟨false⟩⟩ ⟨[1, 2, 3]⟩ (fun _ => 0)
        [⟨messageTy, ([5#8], none, ())⟩, ⟨.pod (.raw .w16), 258#16⟩] := by
  have h := codec_round_trip default ⟨false⟩ rfl
    [⟨⟨messageTy, ([1#8, 2#8], some [65], ())⟩, ([], none, ())⟩]
    (by simp [messageTy, Fits]) (by simp [messageTy, Fresh]) [7] (fun _ => 0)
    [⟨messageTy, ([5#8], none, ())⟩, ⟨.pod (.raw .w16), 258#16⟩]
    (by simp [messageTy, Fits]) ⟨[1, 2, 3]⟩
  refine ⟨h.1.mpr ⟨by decide, ?_⟩, h.2.mpr ?_⟩
  · simp [messageTy, ElementsSettle, Settles]
  · simp only [List.forall_mem_cons, List.not_mem_nil, false_implies, implies_true, and_true]
    exact ⟨⟨by decide, by simp [messageTy, Settles, Ty.default]⟩, by decide,
      by simp [Settles]⟩

/-- A parameter set whose vector has the default value `[7]`. -/
def presetTy : Ty false (List (BitVec 8) × Unit) :=
  .param [7#8] (.vector (.pod (.raw .w8))) .noParams

/-- A vector with one such set, holding `[5]`, does not come back: the element is read into a
default-constructed set and pushed behind its `7`. -/
theorem codec_round_trip_fails : ¬RoundTrips default ⟨false⟩
    [⟨⟨.vector presetTy, [([5#8], ())]⟩, []⟩] [] (fun _ => 0) := by
  intro h
  have hsettles := ((roundTrips_iff rfl (by simp [presetTy, Fits]) [] (fun _ => 0)).mp h).2
  simp [presetTy, Settles, Ty.default] at hsettles

end CpsCore.dp

import Mathlib
import CpsCore.DataPresentation.Refinement
import CpsCore.Packet

/-!
# Packets and archives

The entry points of the codec: the free functions `dp::serialize`, `dp::deserialize` and
`dp::extract`, and the methods of the `DataPresentation` object.  The free functions catch an
`ArchiveError`; the methods do not.  `beyond` is the memory behind the packet's characters.
-/

namespace CpsCore

open StateExcept

variable (fl : FloatCast)

namespace dp

/-- What `archive << data` appends to an empty string. -/
def serialize {o : Bool} {α : Type} (t : Ty o α) (data : α) (options : ArchiveOptions) : Packet :=
  ⟨(store fl BinaryToArchive.archive t data ⟨options, []⟩).string_⟩

/-- `archive >> t` on an archive over the packet, `t` holding `prior` before. -/
def decode {o : Bool} {α : Type} (t : Ty o α) (prior : α) (options : ArchiveOptions)
    (beyond : ℕ → UInt8) (packet : Packet) : EStateM.Result Exn BinaryFromArchive α :=
  (load fl BinaryFromArchive.archive t prior).run
    (BinaryFromArchive.open_ packet.buffer_ options beyond)

/-- `dp::deserialize<T>(packet)`. -/
def deserialize {o : Bool} {α : Type} (t : Ty o α) (options : ArchiveOptions)
    (beyond : ℕ → UInt8) (packet : Packet) : Except Exn α :=
  if packet.getSize = 0 then .ok t.default
  else
    match decode fl t t.default options beyond packet with
    | .ok val _ => .ok val
    | .error (.archiveError _) _ => .ok t.default
    | .error e _ => .error e

/-- `dp::extract<T>(packet)`. -/
def extract {o : Bool} {α : Type} (t : Ty o α) (options : ArchiveOptions) (beyond : ℕ → UInt8) :
    EStateM Exn Packet α := fun packet =>
  if packet.getSize = 0 then .ok t.default packet
  else
    match decode fl t t.default options beyond packet with
    | .ok val archive => .ok val (packet.consume archive.getConsumed).2
    | .error (.archiveError _) _ => .ok t.default packet
    | .error e _ => .error e packet

end dp

/-- The aggregatable object; `params` are the archive options it is configured with. -/
structure DataPresentation where
  params : ArchiveOptions
  deriving DecidableEq, Repr

namespace DataPresentation

variable (self : DataPresentation)

def addHeader {o : Bool} {α : Type} (t : Ty o α) (header : α) (packet : Packet) : Packet :=
  packet.prepend (dp.serialize fl t header self.params).buffer_

def getHeader {o : Bool} {α : Type} (t : Ty o α) (beyond : ℕ → UInt8) (packet : Packet) :
    Except Exn α :=
  match dp.decode fl t t.default self.params beyond packet with
  | .ok header _ => .ok header
  | .error e _ => .error e

/-- `extractHeader`, and the one-type `extract`. -/
def extractHeader {o : Bool} {α : Type} (t : Ty o α) (beyond : ℕ → UInt8) :
    EStateM Exn Packet α := fun packet =>
  match dp.decode fl t t.default self.params beyond packet with
  | .ok header archive => .ok header (packet.consume archive.getConsumed).2
  | .error e _ => .error e packet

end DataPresentation

/-! ## What serializing and decoding do -/

namespace dp

variable {fl}

theorem serialize_eq {o : Bool} {α : Type} (t : Ty o α) (data : α) (options : ArchiveOptions) :
    (serialize fl t data options).buffer_ = enc fl options.compressDouble t data := by
  rw [serialize, store_eq fl BinaryToArchive.lawful]
  rfl

/-- What the checked archive reads, the binary archive reads from the place it is at. -/
theorem follows_of_reads {o : Bool} {α : Type} {t : Ty o α} {prior a : α} {b : Bytes}
    {opts : ArchiveOptions}
    (hreads : Reads opts.compressDouble b a (load fl Checked.archive t prior)) {str r : Bytes}
    {k : ℕ} {ar : BinaryFromArchive} (har : Follows str ar ⟨opts, b ++ r, k⟩)
    (hcount : k + b.length < 2 ^ 32) :
    ∃ ar', (load fl BinaryFromArchive.archive t prior).run ar = .ok a ar' ∧
      Follows str ar' ⟨opts, r, k + b.length⟩ := by
  have htracks := (load_related fl (binary_follows str) t prior).1 ar _ har
  rwa [hreads opts r k rfl hcount] at htracks

/-- Reading an encoding from the place an archive is at. -/
theorem reads_enc_follows {o : Bool} {α : Type} (t : Ty o α) (prior : α) {val : α}
    (hcounts : CountsFit t val) {str r : Bytes} {opts : ArchiveOptions} {k : ℕ}
    {ar : BinaryFromArchive}
    (har : Follows str ar ⟨opts, enc fl opts.compressDouble t val ++ r, k⟩)
    (hcount : k + (enc fl opts.compressDouble t val).length < 2 ^ 32) :
    ∃ ar', (load fl BinaryFromArchive.archive t prior).run ar =
        .ok (readBack fl opts.compressDouble t prior val) ar' ∧
      Follows str ar' ⟨opts, r, k + (enc fl opts.compressDouble t val).length⟩ :=
  follows_of_reads (reads_enc fl t prior val hcounts) har hcount

theorem load_enc_follows {o : Bool} {α : Type} (t : Ty o α) (prior : α) {val : α}
    (hfits : Fits t val) {str r : Bytes} {opts : ArchiveOptions} {k : ℕ} {ar : BinaryFromArchive}
    (har : Follows str ar ⟨opts, enc fl opts.compressDouble t val ++ r, k⟩)
    (hcount : k + (enc fl opts.compressDouble t val).length < 2 ^ 32) :
    ∃ ar', (load fl BinaryFromArchive.archive t prior).run ar =
        .ok (readBack fl opts.compressDouble t prior val) ar' ∧
      Follows str ar' ⟨opts, r, k + (enc fl opts.compressDouble t val).length⟩ :=
  reads_enc_follows t prior (Fits.countsFit t hfits) har hcount

/-- Decoding a packet that starts with an encoding. -/
theorem decode_enc {o : Bool} {α : Type} (t : Ty o α) (prior : α) {val : α} (hfits : Fits t val)
    {options : ArchiveOptions} (hcount : (enc fl options.compressDouble t val).length < 2 ^ 32)
    (beyond : ℕ → UInt8) {packet : Packet} {r : Bytes}
    (hbuf : packet.buffer_ = enc fl options.compressDouble t val ++ r) :
    ∃ ar, decode fl t prior options beyond packet =
        .ok (readBack fl options.compressDouble t prior val) ar ∧
      (packet.consume ar.getConsumed).2 = ⟨r⟩ := by
  have hopen := follows_open packet.buffer_ options beyond
  rw [hbuf] at hopen
  obtain ⟨ar, hrun, har⟩ := load_enc_follows t prior hfits hopen (by rwa [Nat.zero_add])
  refine ⟨ar, by rw [decode, hbuf]; exact hrun, ?_⟩
  have hidx : ar.getConsumed = (enc fl options.compressDouble t val).length := by
    rw [har.getConsumed, Nat.zero_add]
  have hpre : packet =
      (⟨r⟩ : Packet).prepend (enc fl options.compressDouble t val) := congrArg Packet.mk hbuf
  rw [hidx, hpre, Packet.consume_prepend]

theorem extract_enc {o : Bool} {α : Type} (t : Ty o α) {val : α} (hfits : Fits t val)
    {options : ArchiveOptions} (hcount : (enc fl options.compressDouble t val).length < 2 ^ 32)
    (hne : enc fl options.compressDouble t val ≠ []) (beyond : ℕ → UInt8) {packet : Packet}
    {r : Bytes} (hbuf : packet.buffer_ = enc fl options.compressDouble t val ++ r) :
    extract fl t options beyond packet =
      .ok (readBack fl options.compressDouble t t.default val) ⟨r⟩ := by
  obtain ⟨ar, hdecode, hrest⟩ := decode_enc t t.default hfits hcount beyond hbuf
  have hsize : packet.getSize ≠ 0 := by
    rw [Packet.getSize, hbuf]
    simp [hne]
  rw [extract, if_neg hsize, hdecode]
  simp only [hrest]

/-- Whatever a packet holds, the consumed count is a 32-bit number. -/
theorem decode_index {o : Bool} {α : Type} {t : Ty o α} {prior val : α} {options : ArchiveOptions}
    {beyond : ℕ → UInt8} {packet : Packet} {ar : BinaryFromArchive}
    (h : decode fl t prior options beyond packet = .ok val ar) : ar.getConsumed < 2 ^ 32 := by
  have hkeep := load_related fl (binary_index packet.buffer_) t prior
    (BinaryFromArchive.open_ packet.buffer_ options beyond) ⟨rfl, Nat.two_pow_pos 32⟩
  rw [decode] at h
  rw [h] at hkeep
  exact hkeep.2

/-- An `ArchiveError` is only thrown by packets whose size an `unsigned int` can hold. -/
theorem decode_archiveError {o : Bool} {α : Type} {t : Ty o α} {prior : α}
    {options : ArchiveOptions} {beyond : ℕ → UInt8} {packet : Packet} {what : String}
    {ar : BinaryFromArchive}
    (h : decode fl t prior options beyond packet = .error (.archiveError what) ar) :
    packet.buffer_.length < 2 ^ 32 := by
  have hkeep := load_related fl (binary_index packet.buffer_) t prior
    (BinaryFromArchive.open_ packet.buffer_ options beyond) ⟨rfl, Nat.two_pow_pos 32⟩
  rw [decode] at h
  rw [h] at hkeep
  exact hkeep what rfl

end dp

end CpsCore

import Mathlib
import CpsCore.DataPresentation.RoundTrip

/-!
# What a target held before

`archive >> t` overwrites most of `t`, but not all of it: a vector is pushed onto, an optional is
assigned only if its flag is set, a time point only if its unit is known.  Pairs, parameter sets
and custom structs are read in place, so this reaches their fields; the elements of containers
are read into objects of their own.

* `Agree` — two objects hold the same where a load may leave something.
* `forgets_prior_iff` — decoding makes no difference between two objects exactly if they agree:
  one packet, `probe`, tells any others apart.
-/

namespace CpsCore.dp

open StateExcept

variable (fl : FloatCast)

/-- The vectors, optionals and time points of two objects that are read in place are equal. -/
def Agree : {o : Bool} → {α : Type} → Ty o α → α → α → Prop
  | _, _, .vector _, x, y => x = y
  | _, _, .optional _, x, y => x = y
  | _, _, .pair s t, x, y => Agree s x.1 y.1 ∧ Agree t x.2 y.2
  | _, _, .param _ t rest, x, y => Agree t x.1 y.1 ∧ Agree rest x.2 y.2
  | _, _, .custom fields t, x, y => Agree t (fields x) (fields y)
  | _, _, .timePoint, x, y => x = y
  | _, _, _, _, _ => True

/-- Decoding any packet into `x` and into `y` has the same outcome: the value, what was consumed,
or the exception. -/
def SameDecoding {o : Bool} {α : Type} (t : Ty o α) (x y : α) : Prop :=
  ∀ (options : ArchiveOptions) (beyond : ℕ → UInt8) (packet : Packet),
    decode fl t x options beyond packet = decode fl t y options beyond packet

/-- **Objects that agree are loaded alike**, from any archive. -/
theorem load_eq_of_agree {σ : Type} (A : FromArchive σ) : ∀ {o : Bool} {α : Type} (t : Ty o α)
    {x y : α}, Agree t x y → load fl A t x = load fl A t y
  | _, _, .pod _, _, _, _ => rfl
  | _, _, .enum _, _, _, _ => rfl
  | _, _, .double, _, _, _ => rfl
  | _, _, .string, _, _, _ => rfl
  | _, _, .vector _, _, _, h => by rw [show _ = _ from h]
  | _, _, .optional _, _, _, h => by rw [show _ = _ from h]
  | _, _, .array _ _, _, _, _ => rfl
  | _, _, @Ty.map _ _ _ _ _ _, _, _, _ => rfl
  | _, _, .pair s t, x, y, h => by
      rw [load, load, load_eq_of_agree A s h.1, load_eq_of_agree A t h.2]
  | _, _, .noParams, _, _, _ => rfl
  | _, _, .param _ t rest, x, y, h => by
      rw [load, load, load_eq_of_agree A t h.1, load_eq_of_agree A rest h.2]
  | _, _, .eigen _ _ _ _, _, _, _ => rfl
  | _, _, .custom fields t, x, y, h => by
      rw [load, load, load_eq_of_agree A t h]
  | _, _, .timePoint, _, _, h => by rw [show _ = _ from h]
  | _, _, .configuration _, _, _, _ => rfl

/-! ## A packet that leaves everything it can -/

/-- A block that decodes without an error, pushes onto no vector, sets no optional and has no
known unit for a time point. -/
def probe (c : Bool) : {o : Bool} → {α : Type} → Ty o α → Bytes
  | _, _, .pod p => p.toBytes p.default
  | _, _, .enum _ => encCount .w8 0
  | _, _, .double => encDouble fl c 0
  | _, _, .string => encString []
  | _, _, .vector _ => encCount .w16 0
  | _, _, .optional _ => Pod.bool.toBytes false
  | _, _, .array n t => (List.Vector.replicate (n + 1) ()).toList.flatMap fun _ => probe c t
  | _, _, @Ty.map _ _ _ _ _ _ => encCount .w8 0
  | _, _, .pair s t => probe c s ++ probe c t
  | _, _, .noParams => []
  | _, _, .param _ t rest => probe c t ++ probe c rest
  | _, _, .eigen rows cols s h =>
      encExtent rows rows.initial ++ (encExtent cols cols.initial ++
        encCoefficients fl c s (EigenMatrix.default rows cols s h).data)
  | _, _, .custom _ t => probe c t
  | _, _, .timePoint => encCount .w8 6
  | _, _, .configuration _ => encString []

/-- What the probe makes of an object. -/
def probed (c : Bool) : {o : Bool} → {α : Type} → Ty o α → α → α
  | _, _, .pod p, _ => p.default
  | _, _, .enum w, _ => BitVec.ofNat w.bits 0
  | _, _, .double, _ => backDouble fl c 0
  | _, _, .string, _ => []
  | _, _, .vector _, x => x
  | _, _, .optional _, x => x
  | _, _, .array n t, _ => (List.Vector.replicate (n + 1) ()).map fun _ => probed c t t.default
  | _, _, @Ty.map _ _ _ _ _ _, _ => OrderedMap.empty
  | _, _, .pair s t, x => (probed c s x.1, probed c t x.2)
  | _, _, .noParams, _ => ()
  | _, _, .param _ t rest, x => (probed c t x.1, probed c rest x.2)
  | _, _, .eigen rows cols s h, _ =>
      { EigenMatrix.default rows cols s h with
        data := backCoefficients fl c s (EigenMatrix.default rows cols s h).data }
  | _, _, .custom fields t, x => fields.symm (probed c t (fields x))
  | _, _, .timePoint, x => x
  | _, _, .configuration lib, _ => lib.null

/-- Objects that look alike after the probe agree. -/
lemma agree_of_probed {c : Bool} : ∀ {o : Bool} {α : Type} (t : Ty o α) {x y : α},
    probed fl c t x = probed fl c t y → Agree t x y
  | _, _, .pod _, _, _, _ => trivial
  | _, _, .enum _, _, _, _ => trivial
  | _, _, .double, _, _, _ => trivial
  | _, _, .string, _, _, _ => trivial
  | _, _, .vector _, _, _, h => h
  | _, _, .optional _, _, _, h => h
  | _, _, .array _ _, _, _, _ => trivial
  | _, _, @Ty.map _ _ _ _ _ _, _, _, _ => trivial
  | _, _, .pair s t, _, _, h =>
      ⟨agree_of_probed s (Prod.mk.inj h).1, agree_of_probed t (Prod.mk.inj h).2⟩
  | _, _, .noParams, _, _, _ => trivial
  | _, _, .param _ t rest, _, _, h =>
      ⟨agree_of_probed t (Prod.mk.inj h).1, agree_of_probed rest (Prod.mk.inj h).2⟩
  | _, _, .eigen _ _ _ _, _, _, _ => trivial
  | _, _, .custom fields t, _, _, h => agree_of_probed t (fields.symm.injective h)
  | _, _, .timePoint, _, _, h => h
  | _, _, .configuration _, _, _, _ => trivial

theorem reads_probe {c : Bool} : ∀ {o : Bool} {α : Type} (t : Ty o α) (x : α),
    Reads c (probe fl c t) (probed fl c t x) (load fl Checked.archive t x)
  | _, _, .pod p, _ => reads_pod p p.default
  | _, _, .enum _, _ => (reads_count .w8 0).map rfl
  | _, _, .double, _ => reads_double fl 0
  | _, _, .string, _ => reads_string (by decide)
  | _, _, .vector _, _ => (reads_count .w16 0).map rfl
  | _, _, .optional _, _ => (reads_pod Pod.bool false).map rfl
  | _, _, .array n t, _ =>
      Reads.collect (List.Vector.replicate (n + 1) ()) fun _ _ => reads_probe t t.default
  | _, _, @Ty.map _ _ _ _ _ _, _ => (reads_count .w8 0).map rfl
  | _, _, .pair s t, x => (reads_probe s x.1).bind ((reads_probe t x.2).map rfl)
  | _, _, .noParams, _ => Reads.pure ()
  | _, _, .param _ t rest, x => (reads_probe t x.1).bind ((reads_probe rest x.2).map rfl)
  | _, _, .eigen rows cols s h, _ => reads_eigen fl (EigenMatrix.default rows cols s h)
  | _, _, .custom fields t, x => (reads_probe t (fields x)).map rfl
  | _, _, .timePoint, _ => (reads_count .w8 6).map rfl
  | _, _, .configuration _, _ => (reads_string (by decide)).map rfl

section Main

variable {fl} {o : Bool} {α : Type} {t : Ty o α} {x y : α}

lemma decode_probe {options : ArchiveOptions} (beyond : ℕ → UInt8)
    (hsize : (probe fl options.compressDouble t).length < 2 ^ 32) (x : α) :
    ∃ ar, decode fl t x options beyond ⟨probe fl options.compressDouble t⟩ =
      .ok (probed fl options.compressDouble t x) ar := by
  have hopen := follows_open (probe fl options.compressDouble t ++ []) options beyond
  obtain ⟨ar, hrun, -⟩ := follows_of_reads (reads_probe fl t x) hopen (by rwa [Nat.zero_add])
  rw [List.append_nil] at hrun
  exact ⟨ar, hrun⟩

theorem sameDecoding_of_agree (h : Agree t x y) : SameDecoding fl t x y := by
  intro options beyond packet
  rw [decode, decode, load_eq_of_agree fl BinaryFromArchive.archive t h]

theorem agree_of_sameDecoding (hsize : (probe fl true t).length < 2 ^ 32)
    (h : SameDecoding fl t x y) : Agree t x y := by
  obtain ⟨ar, hx⟩ := @decode_probe fl _ _ t {} (fun _ => 0) hsize x
  obtain ⟨ar', hy⟩ := @decode_probe fl _ _ t {} (fun _ => 0) hsize y
  have hsame := h {} (fun _ => 0) ⟨probe fl true t⟩
  rw [show decode fl t x {} _ _ = _ from hx, show decode fl t y {} _ _ = _ from hy] at hsame
  simp only [EStateM.Result.ok.injEq] at hsame
  exact agree_of_probed fl t hsame.1

/-- The encoding of `v`, decoded into a default-constructed object. -/
theorem default_comes_back_iff {options : ArchiveOptions} (hopts : options.compressDouble = false)
    {v : α} (hfits : Fits t v)
    (hlen : (serialize fl t v options).buffer_.length < 2 ^ 32) (beyond : ℕ → UInt8) :
    (∃ ar, decode fl t t.default options beyond (serialize fl t v options) = .ok v ar) ↔
      Settles t t.default v := by
  rw [serialize_eq] at hlen
  obtain ⟨ar, hdecode, -⟩ := @decode_enc fl _ _ t t.default v hfits options hlen beyond
    (serialize fl t v options) [] (by rw [serialize_eq, List.append_nil])
  rw [← readBack_eq_iff fl t t.default v hfits, ← hopts, hdecode]
  simp

end Main

/-- **When decoding forgets what the target held.**  Objects that agree are decoded alike from
every packet; objects that do not are told apart by one, unless even the shortest value of the
type is too long for the index of the archive.  A value comes back in a default-constructed
object exactly if it settles in it. -/
theorem forgets_prior_iff (fl : FloatCast) {o : Bool} {α : Type} (t : Ty o α) (x y : α) :
    (Agree t x y → SameDecoding fl t x y) ∧
    ((probe fl true t).length < 2 ^ 32 → SameDecoding fl t x y → Agree t x y) ∧
    ∀ (options : ArchiveOptions) (beyond : ℕ → UInt8) (v : α), options.compressDouble = false →
      Fits t v → (serialize fl t v options).buffer_.length < 2 ^ 32 →
        ((∃ ar, decode fl t t.default options beyond (serialize fl t v options) = .ok v ar) ↔
          Settles t t.default v) :=
  ⟨sameDecoding_of_agree, agree_of_sameDecoding, fun _ beyond _ hopts hfits hlen =>
    default_comes_back_iff hopts hfits hlen beyond⟩

/-- Two parameter sets that differ in a vector and in an optional, and a default value that gets
in front of the value decoded. -/
theorem prior_values_leak :
    ¬SameDecoding default messageTy ([1#8], none, ()) ([], none, ()) ∧
    ¬SameDecoding default messageTy ([], some [65], ()) ([], none, ()) ∧
    ¬∃ ar, decode default presetTy presetTy.default ⟨false⟩ (fun _ => 0)
      (serialize default presetTy ([5#8], ()) ⟨false⟩) = .ok ([5#8], ()) ar := by
  refine ⟨fun h => ?_, fun h => ?_, fun h => ?_⟩
  · have hagree := agree_of_sameDecoding (by decide) h
    exact List.cons_ne_nil _ _ hagree.1
  · have hagree := agree_of_sameDecoding (by decide) h
    exact Option.some_ne_none _ hagree.2.1
  · have hsettles := (default_comes_back_iff rfl (by simp [presetTy, Fits]) (by decide)
      (fun _ => 0)).mp h
    simp [presetTy, Settles, Ty.default] at hsettles

end CpsCore.dp

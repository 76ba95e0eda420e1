import Mathlib
import CpsCore.DataPresentation.IndexRange

/-!
# Encoding undoes decoding

For integers, strings, vectors, arrays and pairs every byte read becomes part of the value, so
storing a decoded value writes the bytes it was read from.

* `Consumes` — what is needed of an archive: a relation between its states and the bytes taken
  in between, which its two primitives respect.
* `Canonical.spelled` — from one state to the next `load` takes the encoding of what it returns.
* `reencode_iff` — for the binary archive these are the consumed bytes of the string, as long as
  `idx_` can count them; `spells_injective` and `spells_prefix_free` follow.
-/

namespace CpsCore.dp

open StateExcept BinaryFromArchive

variable (fl : FloatCast)

/-! ## Types that are read byte by byte -/

/-- Built from fixed-width integers, strings, vectors, arrays and pairs. -/
inductive Canonical : {o : Bool} → {α : Type} → Ty o α → Prop
  | uint (w : IntWidth) : Canonical (.pod (.raw w))
  | string : Canonical .string
  | vector {o : Bool} {α : Type} {t : Ty o α} : Canonical t → Canonical (.vector t)
  | array {o : Bool} {α : Type} {t : Ty o α} (n : ℕ) : Canonical t → Canonical (.array n t)
  | pair {o₁ o₂ : Bool} {α β : Type} {s : Ty o₁ α} {t : Ty o₂ β} :
      Canonical s → Canonical t → Canonical (.pair s t)

lemma Canonical.fresh_default {o : Bool} {α : Type} {t : Ty o α} (h : Canonical t) :
    Fresh t t.default := by
  induction h with
  | uint w => trivial
  | string => trivial
  | vector _ _ => rfl
  | array n _ ih =>
      intro it hit
      rw [List.eq_of_mem_replicate hit]
      exact ih
  | pair _ _ ihs iht => exact ⟨ihs, iht⟩

/-! ## What an archive takes -/

/-- `Step s b s'` — between `s` and `s'` the bytes `b` were taken.  The primitives of the archive
take what they return. -/
structure Consumes {σ : Type} (A : FromArchive σ) (Step : σ → Bytes → σ → Prop) : Prop where
  nil : ∀ s, Step s [] s
  append : ∀ {s s' s'' b b'}, Step s b s' → Step s' b' s'' → Step s (b ++ b') s''
  load : ∀ {n s b s'}, (A.load n).run s = .ok b s' → b.length = n ∧ Step s b s'
  read : ∀ {n s b s'}, (A.read n).run s = .ok b s' → b.length = n ∧ Step s b s'

section Consumes

variable {fl} {σ α β : Type} {A : FromArchive σ} {Step : σ → Bytes → σ → Prop}

lemma Consumes.count (hA : Consumes A Step) {w : IntWidth} {s s' : σ} {size : BitVec w.bits}
    (h : (loadPod A (.raw w)).run s = .ok size s') : Step s (w.toBytes size) s' := by
  obtain ⟨bytes, s₁, hload, hpure⟩ := run_bind_eq_ok h
  obtain ⟨hlen, hstep⟩ := hA.load hload
  obtain ⟨rfl, rfl⟩ : w.ofBytes bytes = size ∧ s₁ = s' := by simpa [Pod.ofBytes] using hpure
  rwa [IntWidth.toBytes_ofBytes hlen]

/-- Elements pushed one after the other behind `acc`. -/
lemma Consumes.iterate (hA : Consumes A Step) {g : β → Bytes} {m : EStateM Exn σ β}
    (hm : ∀ {s a s'}, m.run s = .ok a s' → Step s (g a) s') : ∀ (n : ℕ) (acc : List β) {s s' : σ}
    {val : List β}, (iterate n (fun acc => do
        let tmp ← m
        pure (acc ++ [tmp])) acc).run s = .ok val s' →
      ∃ items, val = acc ++ items ∧ items.length = n ∧ Step s (items.flatMap g) s'
  | 0, acc, s, s', val, h => by
      obtain ⟨rfl, rfl⟩ : acc = val ∧ s = s' := by simpa [StateExcept.iterate] using h
      exact ⟨[], (List.append_nil _).symm, rfl, hA.nil s⟩
  | n + 1, acc, s, s', val, h => by
      obtain ⟨acc', s₁, hpush, hrest⟩ := run_bind_eq_ok h
      obtain ⟨tmp, s₂, hload, hpure⟩ := run_bind_eq_ok hpush
      obtain ⟨rfl, rfl⟩ : acc ++ [tmp] = acc' ∧ s₂ = s₁ := by simpa using hpure
      obtain ⟨items, rfl, hlen, hstep⟩ := Consumes.iterate hA hm n (acc ++ [tmp]) hrest
      refine ⟨tmp :: items, by rw [List.append_assoc, List.singleton_append], ?_, ?_⟩
      · rw [List.length_cons, hlen]
      · exact hA.append (hm hload) hstep

lemma Consumes.collect (hA : Consumes A Step) {g : β → Bytes} {m : EStateM Exn σ β}
    (hm : ∀ {s a s'}, m.run s = .ok a s' → Step s (g a) s') : ∀ (n : ℕ) {s s' : σ}
    {v : List.Vector β n}, (collect m n).run s = .ok v s' → Step s (v.toList.flatMap g) s'
  | 0, s, s', v, h => by
      obtain ⟨rfl, rfl⟩ : List.Vector.nil = v ∧ s = s' := by simpa [StateExcept.collect] using h
      exact hA.nil s
  | n + 1, s, s', v, h => by
      obtain ⟨a, s₁, hload, hrest⟩ := run_bind_eq_ok h
      obtain ⟨v', s₂, hcollect, hpure⟩ := run_bind_eq_ok hrest
      obtain ⟨rfl, rfl⟩ : a ::ᵥ v' = v ∧ s₂ = s' := by simpa using hpure
      rw [List.Vector.toList_cons, List.flatMap_cons]
      exact hA.append (hm hload) (Consumes.collect hA hm n hcollect)

/-- **What is taken is the encoding of what is returned.**  Induction on the type. -/
theorem Canonical.spelled (hA : Consumes A Step) (c : Bool) {o : Bool} {t : Ty o α}
    (ht : Canonical t) : ∀ {prior : α}, Fresh t prior → ∀ {s s' : σ} {val : α},
      (load fl A t prior).run s = .ok val s' → Step s (enc fl c t val) s' := by
  induction ht with
  | uint w =>
      intro _ _ s s' val h
      exact hA.count h
  | string =>
      intro _ _ s s' val h
      obtain ⟨size, s₁, hcount, hread⟩ := run_bind_eq_ok h
      obtain ⟨hlen, hstep⟩ := hA.read hread
      have hsize : encCount .w16 val.length = IntWidth.w16.toBytes size := by
        rw [encCount, hlen, BitVec.ofNat_toNat, BitVec.setWidth_eq]
      rw [enc, encString, hsize]
      exact hA.append (hA.count hcount) hstep
  | vector ht ih =>
      intro prior hprior s s' val h
      obtain rfl : prior = [] := hprior
      obtain ⟨size, s₁, hcount, hloop⟩ := run_bind_eq_ok h
      obtain ⟨items, hval, hlen, hstep⟩ := hA.iterate (ih ht.fresh_default) _ _ hloop
      obtain rfl : val = items := hval
      have hsize : encCount .w16 val.length = IntWidth.w16.toBytes size := by
        rw [encCount, hlen, BitVec.ofNat_toNat, BitVec.setWidth_eq]
      rw [enc, hsize]
      exact hA.append (hA.count hcount) hstep
  | array n ht ih =>
      intro _ _ s s' val h
      exact hA.collect (ih ht.fresh_default) _ h
  | pair hs ht ihs iht =>
      intro prior hprior s s' val h
      obtain ⟨first, s₁, hfirst, hrest⟩ := run_bind_eq_ok h
      obtain ⟨second, s₂, hsecond, hpure⟩ := run_bind_eq_ok hrest
      obtain ⟨rfl, rfl⟩ : (first, second) = val ∧ s₂ = s' := by simpa using hpure
      exact hA.append (ihs hprior.1 hfirst) (iht hprior.2 hsecond)

end Consumes

/-! ## The binary archive -/

/-- The number of bytes copied so far. -/
def copied (ar : BinaryFromArchive) : ℕ := (ar.blocks.map Prod.snd).sum

/-- Between two states of a binary archive the bytes `b` were copied.  They are the bytes of the
string at `idx_`, if no block sticks out of it and `idx_` does not wrap around. -/
structure Copies (ar : BinaryFromArchive) (b : Bytes) (ar' : BinaryFromArchive) : Prop where
  string : ar'.string_ = ar.string_
  keeps : ∃ blocks, ar'.blocks = ar.blocks ++ blocks
  copied : copied ar' = copied ar + b.length
  idx : ar.idx_ < 2 ^ 32 → ar'.idx_ = (ar.idx_ + b.length) % 2 ^ 32
  slice : (∀ blk ∈ ar'.blocks, blk.1 + blk.2 ≤ ar.string_.length) →
    ar.idx_ + b.length < 2 ^ 32 → b = (ar.string_.drop ar.idx_).take b.length

lemma copies_read {n : ℕ} {ar ar' : BinaryFromArchive} {b : Bytes}
    (h : (BinaryFromArchive.read n).run ar = .ok b ar') : b.length = n ∧ Copies ar b ar' := by
  rw [run_read] at h
  obtain ⟨rfl, rfl⟩ : ar.block n = b ∧ ar.advance n = ar' := by simpa using h
  have hlen : (ar.block n).length = n := by simp [block]
  refine ⟨hlen, rfl, ⟨_, rfl⟩, ?_, fun _ => ?_, fun hinside _ => ?_⟩
  · rw [hlen]
    simp [dp.copied, BinaryFromArchive.advance]
  · rw [hlen]
    rfl
  · have hfit := hinside (ar.idx_, n) (List.mem_append_right _ (List.mem_singleton_self _))
    rw [hlen]
    exact block_eq_slice hfit

lemma copies_load {n : ℕ} {ar ar' : BinaryFromArchive} {b : Bytes}
    (h : (BinaryFromArchive.load n).run ar = .ok b ar') : b.length = n ∧ Copies ar b ar' := by
  rcases Nat.lt_or_ge ar.idx_ ar.string_.length with hlt | hge
  · rw [run_load_of_lt hlt] at h
    exact copies_read h
  · rw [run_load_of_le hge] at h
    cases h

theorem binary_consumes : Consumes BinaryFromArchive.archive Copies where
  nil ar :=
    { string := rfl
      keeps := ⟨[], (List.append_nil _).symm⟩
      copied := rfl
      idx := fun hlt => (Nat.mod_eq_of_lt hlt).symm
      slice := fun _ _ => rfl }
  append := by
    intro ar ar₁ ar₂ b b' h h'
    obtain ⟨blocks, hblocks⟩ := h.keeps
    obtain ⟨blocks', hblocks'⟩ := h'.keeps
    refine ⟨h'.string.trans h.string, ⟨blocks ++ blocks', ?_⟩, ?_, fun hlt => ?_, ?_⟩
    · rw [hblocks', hblocks, List.append_assoc]
    · rw [h'.copied, h.copied, List.length_append, Nat.add_assoc]
    · rw [h'.idx (by rw [h.idx hlt]; exact Nat.mod_lt _ (by decide)), h.idx hlt,
        Nat.mod_add_mod, List.length_append, Nat.add_assoc]
    · intro hinside hcount
      rw [List.length_append] at hcount ⊢
      have hidx : ar₁.idx_ = ar.idx_ + b.length := by
        rw [h.idx (by omega)]
        exact Nat.mod_eq_of_lt (by omega)
      have hb := h.slice (fun blk hblk => hinside blk (by
        rw [hblocks']
        exact List.mem_append_left _ hblk)) (by omega)
      have hb' := h'.slice (by rwa [h.string]) (by omega)
      rw [h.string, hidx, ← List.drop_drop] at hb'
      rw [List.take_add, ← hb, ← hb']
  load := copies_load
  read := copies_read

/-! ## Decoding and encoding again -/

section Binary

variable {fl} {o : Bool} {α : Type} {t : Ty o α} {opts : ArchiveOptions} {beyond : ℕ → UInt8}
  {packet : Packet} {val : α} {ar : BinaryFromArchive}

lemma Canonical.copies (ht : Canonical t)
    (hok : decode fl t t.default opts beyond packet = .ok val ar) :
    Copies (open_ packet.buffer_ opts beyond) (serialize fl t val opts).buffer_ ar := by
  rw [serialize_eq]
  exact ht.spelled binary_consumes opts.compressDouble ht.fresh_default hok

/-- **Encoding again**, what was decoded from within the packet: these are the bytes consumed as
long as there are fewer than `2 ^ 32` of them. -/
theorem reencode_iff (ht : Canonical t)
    (hok : decode fl t t.default opts beyond packet = .ok val ar)
    (hinside : ∀ blk ∈ ar.blocks, blk.1 + blk.2 ≤ packet.buffer_.length) :
    (serialize fl t val opts).buffer_ = packet.buffer_.take ar.getConsumed ↔
      copied ar < 2 ^ 32 := by
  have hcopies := ht.copies hok
  have hcopied : copied ar = (serialize fl t val opts).buffer_.length :=
    hcopies.copied.trans (Nat.zero_add _)
  have hidx : ar.getConsumed = (serialize fl t val opts).buffer_.length % 2 ^ 32 :=
    (hcopies.idx (Nat.two_pow_pos 32)).trans (by rw [show (open_ _ _ _).idx_ = 0 from rfl, Nat.zero_add])
  rw [hcopied]
  constructor
  · intro heq
    have hlen := congrArg List.length heq
    have hlt : ar.getConsumed < 2 ^ 32 := by
      rw [hidx]
      exact Nat.mod_lt _ (by decide)
    rw [List.length_take] at hlen
    omega
  · intro hlt
    rw [hidx, Nat.mod_eq_of_lt hlt]
    exact hcopies.slice hinside (by rwa [show (open_ _ _ _).idx_ = 0 from rfl, Nat.zero_add])

/-- What a short packet decodes to within its bounds, the checked archive decodes it to. -/
lemma checked_of_inside (hok : decode fl t t.default opts beyond packet = .ok val ar)
    (hinside : ∀ blk ∈ ar.blocks, blk.1 + blk.2 ≤ packet.buffer_.length)
    (hlen : packet.buffer_.length < 2 ^ 32) :
    ∃ ch, (load fl Checked.archive t t.default).run ⟨opts, packet.buffer_, 0⟩ = .ok val ch ∧
      Follows packet.buffer_ ar ch := by
  cases hch : (load fl Checked.archive t t.default).run ⟨opts, packet.buffer_, 0⟩ with
  | ok val' ch =>
      obtain ⟨ar', hdecode, hfollows⟩ := decode_of_checked_ok hch beyond
      rw [hok] at hdecode
      obtain ⟨rfl, rfl⟩ : val = val' ∧ ar = ar' := by simpa using hdecode
      exact ⟨ch, rfl, hfollows⟩
  | error e ch =>
      have hend := (end_of_checked_error hch hlen (by rw [hok]; exact hinside)).2
      rw [hok] at hend
      cases hend

lemma copied_lt (hok : decode fl t t.default opts beyond packet = .ok val ar)
    (hinside : ∀ blk ∈ ar.blocks, blk.1 + blk.2 ≤ packet.buffer_.length)
    (hlen : packet.buffer_.length < 2 ^ 32) : copied ar < 2 ^ 32 := by
  obtain ⟨ch, -, -, hin, -⟩ := checked_of_inside hok hinside hlen
  rw [copied, hin.total]
  exact hin.idx_lt

end Binary

/-- `b` is the byte string of a value: all of it is read, from inside it, and `v` is decoded. -/
def Spells {o : Bool} {α : Type} (t : Ty o α) (opts : ArchiveOptions) (beyond : ℕ → UInt8)
    (b : Bytes) (v : α) : Prop :=
  b.length < 2 ^ 32 ∧ ∃ ar, decode fl t t.default opts beyond ⟨b⟩ = .ok v ar ∧
    (∀ blk ∈ ar.blocks, blk.1 + blk.2 ≤ b.length) ∧ ar.getConsumed = b.length

section Spells

variable {fl} {o : Bool} {α : Type} {t : Ty o α} {opts : ArchiveOptions} {beyond : ℕ → UInt8}
  {b b' : Bytes} {v v' : α}

lemma Spells.eq_serialize (ht : Canonical t) (h : Spells fl t opts beyond b v) :
    b = (serialize fl t v opts).buffer_ := by
  obtain ⟨hlen, ar, hok, hinside, hall⟩ := h
  have hbytes := (reencode_iff ht hok hinside).mpr (copied_lt hok hinside hlen)
  rw [hbytes, hall, List.take_length]

/-- **No two byte strings stand for one value.** -/
theorem spells_injective (ht : Canonical t) (h : Spells fl t opts beyond b v)
    (h' : Spells fl t opts beyond b' v) : b = b' := by
  rw [h.eq_serialize ht, h'.eq_serialize ht]

/-- **None is a proper prefix of another.**  The checked archive reads the shorter one off the
longer, and stops there. -/
theorem spells_prefix_free (h : Spells fl t opts beyond b v) (h' : Spells fl t opts beyond b' v')
    (hpre : b <+: b') : b = b' := by
  obtain ⟨r, rfl⟩ := hpre
  obtain ⟨hlen, ar, hok, hinside, hall⟩ := h
  obtain ⟨ch, hch, hfollows⟩ := checked_of_inside hok hinside hlen
  obtain ⟨used, r₀, hbuf, hlocal⟩ : ∃ used r₀, b = used ++ r₀ ∧ ∀ r',
      (load fl Checked.archive t t.default).run ⟨opts, used ++ r', 0⟩ =
        .ok v ⟨opts, r', 0 + used.length⟩ :=
    load_related fl checked_local t t.default _ _ _ _ _ hch
  -- the first string is used up
  have hend : ch = ⟨opts, r₀, 0 + used.length⟩ := by
    have hsame := hlocal r₀
    rw [← hbuf] at hsame
    simpa using hch.symm.trans hsame
  have hused : used.length = b.length := by
    rw [← hall, hfollows.getConsumed, hend, Nat.zero_add]
  obtain rfl : r₀ = [] := by
    have hsum := congrArg List.length hbuf
    rw [List.length_append] at hsum
    exact List.eq_nil_of_length_eq_zero (by omega)
  rw [List.append_nil] at hbuf
  subst hbuf
  -- and so is as much of the second
  obtain ⟨ar₂, hok₂, hfollows₂⟩ := @decode_of_checked_ok fl _ _ t opts ⟨b ++ r⟩ _ v _ (hlocal r) beyond
  obtain ⟨-, ar', hok', -, hall'⟩ := h'
  rw [hok'] at hok₂
  obtain ⟨-, rfl⟩ : v' = v ∧ ar' = ar₂ := by simpa using hok₂
  have hnone : b.length = b.length + r.length := by
    rw [← List.length_append, ← hall', hfollows₂.getConsumed, Nat.zero_add]
  obtain rfl : r = [] := List.eq_nil_of_length_eq_zero (by omega)
  exact (List.append_nil b).symm

end Spells

/-- **Encoding undoes decoding, and when.**  For a type of integers, strings, vectors, arrays and
pairs, and a packet from inside which a value is decoded into an empty target: encoding the value
gives the bytes consumed exactly if fewer than `2 ^ 32` were read, as they are from any packet
that is shorter.  The byte strings of the type stand for different values, and none is a proper
prefix of another. -/
theorem encoding_undoes_decoding (fl : FloatCast) {o : Bool} {α : Type} {t : Ty o α}
    (ht : Canonical t) (opts : ArchiveOptions) (beyond : ℕ → UInt8) :
    (∀ packet val ar, decode fl t t.default opts beyond packet = .ok val ar →
      (∀ blk ∈ ar.blocks, blk.1 + blk.2 ≤ packet.buffer_.length) →
        ((serialize fl t val opts).buffer_ = packet.buffer_.take ar.getConsumed ↔
          copied ar < 2 ^ 32) ∧
        (packet.buffer_.length < 2 ^ 32 → copied ar < 2 ^ 32)) ∧
    (∀ b b' v, Spells fl t opts beyond b v → Spells fl t opts beyond b' v → b = b') ∧
    (∀ b b' v v', Spells fl t opts beyond b v → Spells fl t opts beyond b' v' → b <+: b' →
      b = b') := by
  refine ⟨fun packet val ar hok hinside => ⟨reencode_iff ht hok hinside, copied_lt hok hinside⟩,
    fun b b' v h h' => spells_injective ht h h', fun b b' v v' => spells_prefix_free⟩

/-- A vector of bytes, and a string. -/
theorem encoding_undoes_decoding_bytes :
    Spells default (.pair (.vector (.pod (.raw .w8))) .string) ⟨true⟩ (fun _ => 0)
        [1, 0, 5, 1, 0, 65] ([5#8], [65]) ∧
      ∀ b, Spells default (.pair (.vector (.pod (.raw .w8))) .string) ⟨true⟩ (fun _ => 0) b
        ([5#8], [65]) → b = [1, 0, 5, 1, 0, 65] := by
  have hspells : Spells default (.pair (.vector (.pod (.raw .w8))) .string) ⟨true⟩ (fun _ => 0)
      [1, 0, 5, 1, 0, 65] ([5#8], [65]) := ⟨by decide, _, rfl, by decide, rfl⟩
  have h := encoding_undoes_decoding default (.pair (.vector (.uint .w8)) .string) ⟨true⟩
    (fun _ => 0)
  exact ⟨hspells, fun b hb => h.2.1 b _ _ hb hspells⟩

/-- Four gigabytes: the strings `giant`, and an empty one.  The value is read from within the
packet, and all of it, but `idx_` is back at 0. -/
theorem encoding_undoes_decoding_fails :
    ∃ ar, decode default (.pair (.vector .string) .string) ([], []) ⟨true⟩ (fun _ => 0)
        (serialize default (.pair (.vector .string) .string) (giant, []) ⟨true⟩) =
          .ok (giant, []) ar ∧
      (∀ blk ∈ ar.blocks, blk.1 + blk.2 ≤
        (serialize default (.pair (.vector .string) .string) (giant, []) ⟨true⟩).buffer_.length) ∧
      (serialize default (.pair (.vector .string) .string) (giant, []) ⟨true⟩).buffer_ ≠
        (serialize default (.pair (.vector .string) .string) (giant, []) ⟨true⟩).buffer_.take
          ar.getConsumed := by
  obtain ⟨ar₁, ar₂, hrun₁, hrun₂, hidx, -, hstr, hinside⟩ := @run_wrap default ⟨true⟩ (fun _ => 0) []
  have hbytes : (serialize default (.pair (.vector .string) .string) (giant, []) ⟨true⟩).buffer_ =
      enc default true (.vector .string) giant ++ ([0, 0] ++ []) := by
    rw [serialize_eq]
    rfl
  refine ⟨ar₂, ?_, ?_, ?_⟩
  · rw [decode, hbytes, load, run_bind_ok hrun₁, run_bind_ok hrun₂]
    rfl
  · rw [hbytes, ← hstr]
    exact hinside
  · rw [show ar₂.getConsumed = 0 from hidx, List.take_zero, hbytes]
    exact List.append_ne_nil_of_right_ne_nil _ (by simp)

end CpsCore.dp

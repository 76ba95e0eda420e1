import Mathlib
import CpsCore.IDC.SerialHandler
import CpsCore.Lib.Framing

/-!
# The deframer of `SerialHandler::receive`

`receive` looks for the end of a frame when the last byte of the delimiter has come in, and
compares `substr(size - delimSize, size - 1)` with the delimiter.  The count is one short when
the buffer holds nothing but a delimiter, so a frame with an empty body goes unnoticed.

* `packetString_eq_scan` — one line of input is the strict scanner of `Framing`, run over it.
* `link_frames` — after any run of the link the frames are those of the scanner.
* `deframer_refines_split_iff` — they are the plain split of the stream exactly when the split
  has no empty body.
-/

namespace CpsCore.SerialHandler

open Framing Transition StateExcept

variable {fl : FloatCast} {h : SerialHandler} {crc : Bytes → BitVec 16}

/-! ## One line -/

/-- The buffers at which the code ends a frame. -/
def Emits (h : SerialHandler) (buf : Bytes) : Prop :=
  h.delimString_ <:+ buf ∧
    (h.delimString_.length = 1 ∨ h.delimString_.length < buf.length)

instance (h : SerialHandler) : DecidablePred h.Emits :=
  fun _ => inferInstanceAs (Decidable (_ ∧ _))

lemma delim_singleton (hone : h.delimString_.length = 1) : h.delimString_ = [h.delim_] := by
  obtain ⟨d, hd⟩ := List.length_eq_one_iff.mp hone
  simp [delim_, hd]

lemma delim_of_suffix {buf : Bytes} {x : UInt8} (hsuf : h.delimString_ <:+ buf ++ [x]) :
    x = h.delim_ := by
  rw [delim_, hsuf.getLast h.delim_ne, List.getLast_concat]

lemma not_emits_of_ne {x : UInt8} (hx : x ≠ h.delim_) (buf : Bytes) : ¬h.Emits (buf ++ [x]) :=
  fun hemit => hx (delim_of_suffix hemit.1)

/-- **The comparison of the code.**  Its count cuts the last byte off a buffer that is exactly as
long as the delimiter. -/
lemma substr_eq_iff {buf : Bytes} (hlen : h.delimString_.length ≤ buf.length) :
    substr buf (buf.length - h.delimString_.length) (buf.length - 1) = h.delimString_ ↔
      Strict h.delimString_ buf := by
  have hpos : 0 < h.delimString_.length := List.length_pos_iff.mpr h.delim_ne
  have hdrop : (buf.drop (buf.length - h.delimString_.length)).length =
      h.delimString_.length := by
    rw [List.length_drop]
    omega
  rcases Nat.lt_or_ge h.delimString_.length buf.length with hlt | hge
  · rw [substr, List.take_of_length_le (by omega)]
    constructor
    · intro heq
      exact ⟨heq ▸ List.drop_suffix _ _, hlt⟩
    · rintro ⟨hsuf, -⟩
      exact (List.suffix_iff_eq_drop.mp hsuf).symm
  · refine iff_of_false (fun heq => ?_) fun hstrict => absurd hstrict.2 (by omega)
    have hshort := congrArg List.length heq
    rw [substr, List.length_take, hdrop] at hshort
    omega

lemma erase_eq_take {buf : Bytes} (hlt : h.delimString_.length < buf.length) :
    erase buf (buf.length - h.delimString_.length) (buf.length - 1) =
      buf.take (buf.length - h.delimString_.length) := by
  rw [erase, List.drop_eq_nil_of_le (by omega), List.append_nil]

/-- **A line is scanned like its bytes.** -/
theorem packetString_eq_scan {line buf : Bytes} (hline : h.delim_ ∉ line)
    (hbuf : h.delimString_.length = 1 → buf = []) (bodies : List Bytes) :
    scan h.Emits h.delimString_.length (bodies, buf) (line ++ [h.delim_]) =
      (bodies ++ (h.packetString line buf).1.toList, (h.packetString line buf).2) := by
  have hquiet : ∀ x ∈ line, ∀ b, ¬h.Emits (b ++ [x]) := by
    intro x hx b
    refine not_emits_of_ne ?_ b
    rintro rfl
    exact hline hx
  rw [scan_snoc, scan_quiet bodies hquiet, push, packetString]
  by_cases hone : h.delimString_.length = 1
  · obtain rfl := hbuf hone
    have hemit : h.Emits ([] ++ line ++ [h.delim_]) := by
      refine ⟨?_, Or.inl hone⟩
      rw [delim_singleton hone]
      exact List.suffix_append _ _
    rw [if_pos hemit, if_pos hone, hone]
    simp
  · rw [if_neg hone]
    have hcond : (h.delimString_.length ≤ (buf ++ line ++ [h.delim_]).length ∧
        substr (buf ++ line ++ [h.delim_])
          ((buf ++ line ++ [h.delim_]).length - h.delimString_.length)
          ((buf ++ line ++ [h.delim_]).length - 1) = h.delimString_) ↔
        h.Emits (buf ++ line ++ [h.delim_]) := by
      constructor
      · rintro ⟨hlen, heq⟩
        have hstrict := (substr_eq_iff hlen).mp heq
        exact ⟨hstrict.1, Or.inr hstrict.2⟩
      · rintro ⟨hsuf, hlen⟩
        have hstrict : Strict h.delimString_ _ := ⟨hsuf, hlen.resolve_left hone⟩
        exact ⟨hstrict.2.le, (substr_eq_iff hstrict.2.le).mpr hstrict⟩
    by_cases hemit : h.Emits (buf ++ line ++ [h.delim_])
    · have hlt := hemit.2.resolve_left hone
      rw [if_pos hemit, if_pos (hcond.mpr hemit), erase_eq_take hlt]
      rfl
    · rw [if_neg hemit, if_neg (mt hcond.mp hemit)]
      simp

/-! ## One frame -/

/-- What becomes of a frame: the packet `onPacket_` is fired with, or nothing. -/
def verdict (fl : FloatCast) (h : SerialHandler) (crc : Bytes → BitVec 16) (beyond : ℕ → UInt8)
    (frame : Bytes) : Option Packet :=
  if h.useCRC_ then
    match dp.extract fl NetworkHeader.ty {} beyond (h.decoded frame) with
    | .error _ _ => none
    | .ok header packet => if header.crc = packet.getCRC16 crc then some packet else none
  else some (h.decoded frame)

/-- The state after a frame with that verdict. -/
def account (frame : Bytes) (s : SerialState) : Option Packet → SerialState
  | some packet => { s with
      frames := s.frames ++ [frame]
      stats_ := { s.stats_ with
        dataReceived := s.stats_.dataReceived + (frame.length : BitVec 64)
        packetsReceived := s.stats_.packetsReceived + 1 }
      onPacket_ := s.onPacket_ ++ [packet] }
  | none => { s with
      frames := s.frames ++ [frame]
      stats_ := { s.stats_ with
        dataReceived := s.stats_.dataReceived + (frame.length : BitVec 64)
        packetsReceived := s.stats_.packetsReceived + 1
        dataCorrupted := s.stats_.dataCorrupted + (frame.length : BitVec 64)
        packetsCorrupted := s.stats_.packetsCorrupted + 1 } }

/-- Reading a header throws nothing but an `ArchiveError`, which `extract` catches. -/
lemma extract_header (fl : FloatCast) (beyond : ℕ → UInt8) (packet : Packet) :
    ∃ header packet', dp.extract fl NetworkHeader.ty {} beyond packet = .ok header packet' := by
  by_cases hsize : packet.getSize = 0
  · exact ⟨_, _, if_pos hsize⟩
  · have hlt : (BinaryFromArchive.open_ packet.buffer_ {} beyond).idx_ <
        (BinaryFromArchive.open_ packet.buffer_ {} beyond).string_.length :=
      Nat.pos_of_ne_zero hsize
    have hload := BinaryFromArchive.run_load_of_lt hlt IntWidth.w16.bytes
    obtain ⟨crc, hpod⟩ : ∃ crc, (dp.loadPod BinaryFromArchive.archive (.raw .w16)).run
        (BinaryFromArchive.open_ packet.buffer_ {} beyond) = .ok crc
          ((BinaryFromArchive.open_ packet.buffer_ {} beyond).advance IntWidth.w16.bytes) :=
      ⟨_, run_bind_ok hload _⟩
    have hdecode : dp.decode fl NetworkHeader.ty NetworkHeader.ty.default {} beyond packet =
        .ok ⟨crc⟩ ((BinaryFromArchive.open_ packet.buffer_ {} beyond).advance IntWidth.w16.bytes) :=
      run_bind_ok hpod _
    exact ⟨_, _, by rw [dp.extract, if_neg hsize, hdecode]⟩

/-- **Delivering a frame never fails.** -/
theorem run_deliver (beyond : ℕ → UInt8) (frame : Bytes) (s : SerialState) :
    (h.deliver fl crc beyond frame).run s =
      .ok () (account frame s (h.verdict fl crc beyond frame)) := by
  obtain ⟨header, packet, hext⟩ := extract_header fl beyond (h.decoded frame)
  rw [deliver, verdict]
  by_cases hcrc : h.useCRC_ = true
  · rw [if_pos hcrc, if_pos hcrc, hext]
    by_cases hsame : header.crc = packet.getCRC16 crc
    · simp only [hsame, ne_eq, not_true_eq_false, if_false, if_true]
      rfl
    · simp only [hsame, ne_eq, not_false_eq_true, if_false, if_true]
      rfl
  · rw [if_neg hcrc, if_neg hcrc]
    rfl

/-- The state after a line was handed over, `rest` being what follows it in `inBuffer_`. -/
def afterLine (fl : FloatCast) (h : SerialHandler) (crc : Bytes → BitVec 16) (beyond : ℕ → UInt8)
    (line rest : Bytes) (s : SerialState) : SerialState :=
  let next := h.packetString line s.packetBuffer_
  let s := { s with inBuffer_ := rest, packetBuffer_ := next.2 }
  match next.1 with
  | some frame => account frame s (h.verdict fl crc beyond frame)
  | none => s

/-- `receive` past its checks never fails. -/
lemma run_receiveLine (beyond : ℕ → UInt8) (s : SerialState) :
    (h.receiveLine fl crc beyond).run s =
      .ok () (afterLine fl h crc beyond (s.inBuffer_.takeWhile (· ≠ h.delim_))
        (s.inBuffer_.drop ((s.inBuffer_.takeWhile (· ≠ h.delim_)).length + 1)) s) := by
  have hbody : ∀ line, line = s.inBuffer_.takeWhile (· ≠ h.delim_) →
      (h.receiveLine fl crc beyond).run s =
        (match (h.packetString line s.packetBuffer_).1 with
          | some packetString => h.deliver fl crc beyond packetString
          | none => pure ()).run { s with
            inBuffer_ := s.inBuffer_.drop (line.length + 1)
            packetBuffer_ := (h.packetString line s.packetBuffer_).2 } := by
    rintro line rfl
    rfl
  rw [hbody _ rfl, afterLine]
  generalize h.packetString (s.inBuffer_.takeWhile (· ≠ h.delim_)) s.packetBuffer_ = next
  obtain ⟨_ | frame, buf⟩ := next
  · rfl
  · exact run_deliver beyond frame _

/-- The check is passed. -/
lemma run_receive_active (beyond : ℕ → UInt8) {s : SerialState}
    (hactive : s.handlerCanceled_ = false) :
    (h.receive fl crc false beyond).run s = (h.receiveLine fl crc beyond).run s := by
  show (if s.handlerCanceled_ || false then _ else _ : EStateM Exn SerialState Unit).run s = _
  rw [hactive]
  rfl

/-- **One call of `receive`.** -/
theorem run_receive (beyond : ℕ → UInt8) {s : SerialState} (hactive : s.handlerCanceled_ = false)
    {line rest : Bytes} (hline : h.delim_ ∉ line) (hin : s.inBuffer_ = line ++ h.delim_ :: rest) :
    (h.receive fl crc false beyond).run s = .ok () (afterLine fl h crc beyond line rest s) := by
  have htake : s.inBuffer_.takeWhile (· ≠ h.delim_) = line := by
    rw [hin, List.takeWhile_append_of_pos]
    · simp
    · intro x hx
      have hne : x ≠ h.delim_ := fun heq => hline (heq ▸ hx)
      simpa using hne
  have hdrop : s.inBuffer_.drop (line.length + 1) = rest := by
    rw [hin]
    simp
  have hrun := @run_receiveLine fl h crc beyond s
  rw [htake, hdrop] at hrun
  rw [run_receive_active beyond hactive]
  exact hrun

section AfterLine

variable (beyond : ℕ → UInt8) (line rest : Bytes) (s : SerialState)

@[simp] lemma account_frames (frame : Bytes) (s : SerialState) (v : Option Packet) :
    (account frame s v).frames = s.frames ++ [frame] := by cases v <;> rfl

@[simp] lemma account_packetBuffer (frame : Bytes) (s : SerialState) (v : Option Packet) :
    (account frame s v).packetBuffer_ = s.packetBuffer_ := by cases v <;> rfl

@[simp] lemma account_inBuffer (frame : Bytes) (s : SerialState) (v : Option Packet) :
    (account frame s v).inBuffer_ = s.inBuffer_ := by cases v <;> rfl

@[simp] lemma account_canceled (frame : Bytes) (s : SerialState) (v : Option Packet) :
    (account frame s v).handlerCanceled_ = s.handlerCanceled_ := by cases v <;> rfl

@[simp] lemma afterLine_inBuffer : (afterLine fl h crc beyond line rest s).inBuffer_ = rest := by
  rw [afterLine]
  cases (h.packetString line s.packetBuffer_).1 <;> simp

@[simp] lemma afterLine_packetBuffer : (afterLine fl h crc beyond line rest s).packetBuffer_ =
    (h.packetString line s.packetBuffer_).2 := by
  rw [afterLine]
  cases (h.packetString line s.packetBuffer_).1 <;> simp

@[simp] lemma afterLine_frames : (afterLine fl h crc beyond line rest s).frames =
    s.frames ++ (h.packetString line s.packetBuffer_).1.toList := by
  rw [afterLine]
  cases (h.packetString line s.packetBuffer_).1 <;> simp

@[simp] lemma afterLine_canceled : (afterLine fl h crc beyond line rest s).handlerCanceled_ =
    s.handlerCanceled_ := by
  rw [afterLine]
  cases (h.packetString line s.packetBuffer_).1 <;> simp

end AfterLine

/-! ## Runs of the link -/

lemma arrived_append : ∀ es es' : List LinkEvent, arrived (es ++ es') = arrived es ++ arrived es'
  | [], es' => rfl
  | .arrive chunk :: es, es' => by
      rw [List.cons_append, arrived, arrived, arrived_append es es', List.append_assoc]
  | .receive _ :: es, es' => by rw [List.cons_append, arrived, arrived, arrived_append es es']

/-- A buffer that holds the last delimiter byte starts with a line. -/
lemma exists_line {d : UInt8} : ∀ {buf : Bytes}, d ∈ buf → ∃ line rest, d ∉ line ∧
    buf = line ++ d :: rest
  | x :: buf, hd => by
      by_cases hx : x = d
      · exact ⟨[], buf, by simp, by simp [hx]⟩
      · obtain ⟨line, rest, hline, rfl⟩ := exists_line
          ((List.mem_cons.mp hd).resolve_left fun heq => hx heq.symm)
        refine ⟨x :: line, rest, ?_, rfl⟩
        rintro (_ | ⟨_, hmem⟩)
        · exact hx rfl
        · exact hline hmem

/-- **What a step of the link can do.** -/
theorem link_cases {s s' : SerialState} {e : LinkEvent} (hstep : h.link fl crc s e s')
    (hactive : s.handlerCanceled_ = false) :
    (∃ chunk, e = .arrive chunk ∧ s' = { s with inBuffer_ := s.inBuffer_ ++ chunk }) ∨
    (∃ beyond line rest, e = .receive beyond ∧ h.delim_ ∉ line ∧
      s.inBuffer_ = line ++ h.delim_ :: rest ∧ s' = afterLine fl h crc beyond line rest s) := by
  cases e with
  | arrive chunk => exact Or.inl ⟨chunk, rfl, hstep⟩
  | receive beyond =>
      obtain ⟨hd, hrun⟩ := hstep
      obtain ⟨line, rest, hline, hin⟩ := exists_line hd
      rw [run_receive beyond hactive hline hin] at hrun
      refine Or.inr ⟨beyond, line, rest, rfl, hline, hin, ?_⟩
      simpa using hrun.symm

/-- A handler that is about to receive the first byte of a frame. -/
structure Listening (s : SerialState) : Prop where
  packetBuffer : s.packetBuffer_ = []
  inBuffer : s.inBuffer_ = []
  active : s.handlerCanceled_ = false

/-- Between two steps: of the bytes that have arrived, those before `inBuffer_` were scanned. -/
structure Scanned (h : SerialHandler) (s₀ : SerialState) (es : List LinkEvent)
    (s : SerialState) (handed : Bytes) (bodies : List Bytes) : Prop where
  arrived : arrived es = handed ++ s.inBuffer_
  scanned : scan h.Emits h.delimString_.length ([], []) handed = (bodies, s.packetBuffer_)
  frames : s.frames = s₀.frames ++ bodies
  single : h.delimString_.length = 1 → s.packetBuffer_ = []
  active : s.handlerCanceled_ = false

theorem link_scanned {s₀ s : SerialState} {es : List LinkEvent} (hs₀ : Listening s₀)
    (hrun : Run (h.link fl crc) s₀ es s) : ∃ handed bodies, Scanned h s₀ es s handed bodies := by
  refine hrun.induct (P := fun es s => ∃ handed bodies, Scanned h s₀ es s handed bodies) ?_ ?_
  · refine ⟨[], [], ?_, ?_, (List.append_nil _).symm, fun _ => hs₀.packetBuffer, hs₀.active⟩
    · rw [hs₀.inBuffer]
      rfl
    · rw [hs₀.packetBuffer, scan_nil]
  · rintro es s e s' ⟨handed, bodies, hinv⟩ hstep
    rcases link_cases hstep hinv.active with ⟨chunk, rfl, rfl⟩ |
      ⟨beyond, line, rest, rfl, hline, hin, rfl⟩
    · refine ⟨handed, bodies, ?_, hinv.scanned, hinv.frames, hinv.single, hinv.active⟩
      rw [arrived_append, hinv.arrived, List.append_assoc]
      simp [SerialHandler.arrived]
    · refine ⟨handed ++ (line ++ [h.delim_]),
        bodies ++ (h.packetString line s.packetBuffer_).1.toList, ?_, ?_, ?_, ?_, ?_⟩
      · rw [arrived_append, hinv.arrived, hin, afterLine_inBuffer]
        simp [SerialHandler.arrived]
      · rw [scan_append, hinv.scanned, packetString_eq_scan hline hinv.single, afterLine_packetBuffer]
      · rw [afterLine_frames, hinv.frames, List.append_assoc]
      · intro hone
        rw [afterLine_packetBuffer, packetString, if_pos hone]
        exact hinv.single hone
      · rw [afterLine_canceled]
        exact hinv.active

/-- **The frames of a run**, once no complete line is waiting. -/
theorem link_frames {s₀ s : SerialState} {es : List LinkEvent} (hs₀ : Listening s₀)
    (hrun : Run (h.link fl crc) s₀ es s) (hidle : h.delim_ ∉ s.inBuffer_) :
    ∃ bodies, s.frames = s₀.frames ++ bodies ∧
      scan h.Emits h.delimString_.length ([], []) (arrived es) =
        (bodies, s.packetBuffer_ ++ s.inBuffer_) := by
  obtain ⟨handed, bodies, hinv⟩ := link_scanned hs₀ hrun
  refine ⟨bodies, hinv.frames, ?_⟩
  rw [hinv.arrived, scan_append, hinv.scanned]
  refine scan_quiet bodies (fun x hx buf => not_emits_of_ne ?_ buf) _
  rintro rfl
  exact hidle hx

/-- **The receive loop comes to rest.**  Each call takes at least one byte out of `inBuffer_`. -/
theorem link_drains (beyond : ℕ → UInt8) : ∀ (n : ℕ) (s : SerialState),
    s.inBuffer_.length = n → s.handlerCanceled_ = false →
      ∃ es s', Run (h.link fl crc) s es s' ∧ arrived es = [] ∧ h.delim_ ∉ s'.inBuffer_ := by
  intro n
  induction n using Nat.strong_induction_on with
  | _ n ih =>
      intro s hn hactive
      by_cases hd : h.delim_ ∈ s.inBuffer_
      · obtain ⟨line, rest, hline, hin⟩ := exists_line hd
        have hstep : h.link fl crc s (.receive beyond) (afterLine fl h crc beyond line rest s) :=
          ⟨hd, run_receive beyond hactive hline hin⟩
        have hlen : rest.length < n := by
          rw [← hn, hin, List.length_append, List.length_cons]
          omega
        obtain ⟨es, s', hrun, harr, hidle⟩ := ih rest.length hlen
          (afterLine fl h crc beyond line rest s) (by simp) (by simpa using hactive)
        exact ⟨.receive beyond :: es, s', (Run.single hstep).trans hrun, harr, hidle⟩
      · exact ⟨[], s, Run.nil, rfl, hd⟩

/-! ## The plain split -/

lemma scan_emits_eq_strict (htwo : 2 ≤ h.delimString_.length) (s : Bytes) :
    scan h.Emits h.delimString_.length ([], []) s =
      scan (Strict h.delimString_) h.delimString_.length ([], []) s := by
  refine scan_congr (fun buf => and_congr_right fun _ => ?_) _ s
  exact or_iff_right (by omega)

/-- Where no body is empty, or the delimiter is one byte, the code finds every frame. -/
lemma scan_emits_of_split {s : Bytes} {bodies : List Bytes} {rest : Bytes}
    (hsplit : IsSplit h.delimString_ s bodies rest)
    (hbodies : h.delimString_.length ≠ 1 → [] ∉ bodies) :
    scan h.Emits h.delimString_.length ([], []) s = (bodies, rest) := by
  have hplain := isSplit_scan h.delim_ne s
  obtain ⟨hb, hr⟩ := hplain.unique hsplit
  have heq : scan h.Emits h.delimString_.length ([], []) s =
      scan (h.delimString_ <:+ ·) h.delimString_.length ([], []) s := by
    by_cases hone : h.delimString_.length = 1
    · exact scan_congr (fun buf => and_iff_left (Or.inl hone)) _ s
    · have hpos : 0 < h.delimString_.length := List.length_pos_iff.mpr h.delim_ne
      rw [scan_emits_eq_strict (by omega), scan_eq_of_nonempty]
      rw [hb]
      exact hbodies hone
  rw [heq, ← hb, ← hr]

/-- **When the deframer refines the plain split.**  For a delimiter of two or more bytes, over
every run in which all bytes were handed over: exactly when no body of the split is empty. -/
theorem deframer_refines_split_iff (fl : FloatCast) (h : SerialHandler)
    (crc : Bytes → BitVec 16) (htwo : 2 ≤ h.delimString_.length) {s₀ s : SerialState}
    {es : List LinkEvent} (hs₀ : Listening s₀) (hrun : Run (h.link fl crc) s₀ es s)
    (hidle : h.delim_ ∉ s.inBuffer_) :
    (∃ bodies, s.frames = s₀.frames ++ bodies ∧
        IsSplit h.delimString_ (arrived es) bodies (s.packetBuffer_ ++ s.inBuffer_)) ↔
      ∀ bodies rest, IsSplit h.delimString_ (arrived es) bodies rest → [] ∉ bodies := by
  obtain ⟨bodies, hframes, hscan⟩ := link_frames hs₀ hrun hidle
  rw [scan_emits_eq_strict htwo] at hscan
  rw [← isSplit_scan_strict_iff h.delim_ne, hscan]
  constructor
  · rintro ⟨bodies', hframes', hsplit⟩
    obtain rfl : bodies = bodies' := List.append_cancel_left (hframes.symm.trans hframes')
    exact hsplit
  · intro hsplit
    exact ⟨bodies, hframes, hsplit⟩

/-- The stream `"*-*"` holds one frame, with an empty body.  The code leaves it in its buffer. -/
theorem deframer_misses_empty_frame :
    ¬∀ es s, Run (({} : SerialHandler).link default fun _ => 0) {} es s →
      ({} : SerialHandler).delim_ ∉ s.inBuffer_ →
        IsSplit defaultDelimiter (arrived es) s.frames (s.packetBuffer_ ++ s.inBuffer_) := by
  intro hall
  have hrun : Run (({} : SerialHandler).link default fun _ => 0) {}
      [.arrive defaultDelimiter, .receive fun _ => 0, .receive fun _ => 0]
      { packetBuffer_ := defaultDelimiter } :=
    ((Run.single rfl).snoc ⟨by decide, rfl⟩).snoc ⟨by decide, rfl⟩
  have hsplit := hall _ _ hrun (by decide)
  exact hsplit.done (List.infix_refl _)

/-- The stream `"a*-*"`, in two chunks. -/
theorem deframer_refines_split_letter :
    ∃ bodies, [[97]] = [] ++ bodies ∧ IsSplit defaultDelimiter [97, 42, 45, 42] bodies [] := by
  have hrun : Run (({} : SerialHandler).link default fun _ => 0) {}
      [.arrive [97, 42], .receive fun _ => 0, .arrive [45, 42], .receive fun _ => 0]
      (afterLine default {} (fun _ => 0) (fun _ => 0) [45] [] { packetBuffer_ := [97, 42] }) :=
    (((Run.single rfl).snoc ⟨by decide, rfl⟩).snoc rfl).snoc ⟨by decide, rfl⟩
  refine (deframer_refines_split_iff default {} (fun _ => 0) (by decide) ⟨rfl, rfl, rfl⟩ hrun
    (by decide)).mpr fun bodies rest hsplit => ?_
  have hplain := isSplit_scan (D := defaultDelimiter) (by decide) [97, 42, 45, 42]
  obtain rfl : _ = bodies := (hplain.unique hsplit).1
  decide

end CpsCore.SerialHandler

import Mathlib
import CpsCore.IDC.SerialHandler

/-!
# Non-blocking sends

`sendPacket` appends its message to `outBuffer_` and hands the whole buffer to `async_write`,
which consumes it on completion.  A second call before that finds the first message still in the
buffer, and hands it over once more.

* `Sequential` — every call of `sendPacket` finds all earlier writes completed.
* `SentSoFar` — what every run keeps: while it is sequential, the wire and the one outstanding
  write are the messages in order; afterwards too much has been handed over.
* `async_sends_iff` — all messages are sent once and in order exactly in sequential runs.
-/

namespace CpsCore.SerialHandler

open Transition

variable {fl : FloatCast} {h : SerialHandler} {crc : Bytes → BitVec 16}

/-- The messages of the calls, in call order. -/
def messages (fl : FloatCast) (h : SerialHandler) (crc : Bytes → BitVec 16) :
    List SendEvent → List Bytes
  | [] => []
  | .sendPacket packet :: es => h.message fl crc packet :: messages fl h crc es
  | .complete _ :: es => messages fl h crc es

/-- The number of writes that have completed. -/
def completions : List SendEvent → ℕ
  | [] => 0
  | .sendPacket _ :: es => completions es
  | .complete _ :: es => completions es + 1

def calls : List SendEvent → ℕ
  | [] => 0
  | .sendPacket _ :: es => calls es + 1
  | .complete _ :: es => calls es

/-- No call of `sendPacket` while an earlier write is outstanding. -/
def Sequential (es : List SendEvent) : Prop :=
  ∀ before packet after, es = before ++ .sendPacket packet :: after →
    calls before = completions before

lemma messages_append : ∀ es es' : List SendEvent,
    messages fl h crc (es ++ es') = messages fl h crc es ++ messages fl h crc es'
  | [], es' => rfl
  | .sendPacket packet :: es, es' => by
      rw [List.cons_append, messages, messages, messages_append es es', List.cons_append]
  | .complete _ :: es, es' => by rw [List.cons_append, messages, messages, messages_append es es']

lemma completions_append : ∀ es es' : List SendEvent,
    completions (es ++ es') = completions es + completions es'
  | [], es' => (Nat.zero_add _).symm
  | .sendPacket _ :: es, es' => completions_append es es'
  | .complete _ :: es, es' => by
      rw [List.cons_append, completions, completions, completions_append es es']
      omega

lemma calls_append : ∀ es es' : List SendEvent, calls (es ++ es') = calls es + calls es'
  | [], es' => (Nat.zero_add _).symm
  | .sendPacket _ :: es, es' => by
      rw [List.cons_append, calls, calls, calls_append es es']
      omega
  | .complete _ :: es, es' => calls_append es es'

lemma sequential_nil : Sequential [] := by
  rintro before packet after h
  simp at h

/-- The last event of a sequential run. -/
lemma sequential_snoc (es : List SendEvent) (e : SendEvent) :
    Sequential (es ++ [e]) ↔
      Sequential es ∧ ∀ packet, e = .sendPacket packet → calls es = completions es := by
  constructor
  · intro hseq
    refine ⟨fun before packet after heq => ?_, fun packet heq => ?_⟩
    · exact hseq before packet (after ++ [e]) (by rw [heq, List.append_assoc, List.cons_append])
    · exact hseq es packet [] (by rw [heq])
  · rintro ⟨hseq, hlast⟩ before packet after heq
    rcases List.eq_nil_or_concat' after with rfl | ⟨after, e', rfl⟩
    · obtain ⟨rfl, hsame⟩ := List.append_inj' heq rfl
      exact hlast packet (List.singleton_inj.mp hsame)
    · have hinit : es ++ [e] = (before ++ .sendPacket packet :: after) ++ [e'] := by
        rw [heq, List.append_assoc, List.cons_append]
      exact hseq before packet after (List.append_inj' hinit rfl).1

lemma message_ne_nil (packet : Packet) : h.message fl crc packet ≠ [] := by
  rw [message]
  exact fun hnil => h.delim_ne (List.append_eq_nil_iff.mp hnil).2

lemma sum_lengths_eraseIdx {l : List Bytes} {i : ℕ} {content : Bytes}
    (hi : l[i]? = some content) :
    (l.map List.length).sum = content.length + ((l.eraseIdx i).map List.length).sum := by
  obtain ⟨hlt, rfl⟩ := List.getElem?_eq_some_iff.mp hi
  have hperm := (List.getElem_cons_eraseIdx_perm hlt).map List.length
  rw [← hperm.sum_eq, List.map_cons, List.sum_cons]

/-- What a run keeps.  `s₀` is the state it started from. -/
structure SentSoFar (fl : FloatCast) (h : SerialHandler) (crc : Bytes → BitVec 16)
    (s₀ : SerialState) (es : List SendEvent) (s : SerialState) : Prop where
  outstanding : s.writes.length + completions es = calls es
  /-- Sequential so far: at most one write is outstanding, and it holds the last message. -/
  inOrder : Sequential es →
    (s.writes = [] ∧ s.outBuffer_ = [] ∧ s.wire = s₀.wire ++ (messages fl h crc es).flatten) ∨
    (∃ content, s.writes = [content] ∧ s.outBuffer_ = content ∧ content ≠ [] ∧
      s.wire ++ content = s₀.wire ++ (messages fl h crc es).flatten)
  /-- Not sequential: more was handed over than the messages hold. -/
  tooMuch : ¬Sequential es →
    s₀.wire.length + (messages fl h crc es).flatten.length <
      s.wire.length + (s.writes.map List.length).sum

lemma sending_send (hdir : h.direction_ ≠ .receive) (hasync : h.sendBlocking_ = false)
    {s s' : SerialState} {packet : Packet} (hstep : h.sending fl crc s (.sendPacket packet) s') :
    s'.outBuffer_ = s.outBuffer_ ++ h.message fl crc packet ∧
      s'.writes = s.writes ++ [s.outBuffer_ ++ h.message fl crc packet] ∧ s'.wire = s.wire := by
  rw [sending, sendPacket, if_neg hdir] at hstep
  rw [hstep]
  simp [hasync]

lemma messages_snoc_send (es : List SendEvent) (packet : Packet) :
    (messages fl h crc (es ++ [.sendPacket packet])).flatten =
      (messages fl h crc es).flatten ++ h.message fl crc packet := by
  rw [messages_append]
  simp [messages]

lemma messages_snoc_complete (es : List SendEvent) (i : ℕ) :
    messages fl h crc (es ++ [.complete i]) = messages fl h crc es := by
  rw [messages_append]
  simp [messages]

/-- **A call.**  With nothing outstanding the write holds just its message; otherwise it holds
what earlier writes have not consumed as well. -/
lemma SentSoFar.send (hdir : h.direction_ ≠ .receive) (hasync : h.sendBlocking_ = false)
    {s₀ s s' : SerialState} {es : List SendEvent} {packet : Packet}
    (hinv : SentSoFar fl h crc s₀ es s) (hstep : h.sending fl crc s (.sendPacket packet) s') :
    SentSoFar fl h crc s₀ (es ++ [.sendPacket packet]) s' := by
  obtain ⟨hout, hwrites, hwire⟩ := sending_send hdir hasync hstep
  have hcount := hinv.outstanding
  refine ⟨?_, ?_, ?_⟩
  · rw [completions_append, calls_append, hwrites, List.length_append, List.length_singleton]
    simp only [completions, calls]
    omega
  · intro hseq
    obtain ⟨hseq, hlast⟩ := (sequential_snoc _ _).mp hseq
    have hnone := hlast packet rfl
    rcases hinv.inOrder hseq with ⟨hw, ho, hbytes⟩ | ⟨content, hw, -⟩
    · refine Or.inr ⟨h.message fl crc packet, ?_, ?_, message_ne_nil packet, ?_⟩
      · rw [hwrites, hw, ho]
        rfl
      · rw [hout, ho, List.nil_append]
      · rw [hwire, hbytes, messages_snoc_send, List.append_assoc]
    · rw [hw, List.length_singleton] at hcount
      omega
  · intro hnot
    rw [hwrites, hwire, messages_snoc_send]
    simp only [List.map_append, List.map_cons, List.map_nil, List.sum_append, List.sum_singleton,
      List.length_append]
    by_cases hseq : Sequential es
    · rcases hinv.inOrder hseq with ⟨hw, -⟩ | ⟨content, hw, ho, hne, hbytes⟩
      · rw [hw, List.length_nil] at hcount
        exact absurd ((sequential_snoc _ _).mpr ⟨hseq, fun _ _ => by omega⟩) hnot
      · have hlen := congrArg List.length hbytes
        have hpos := List.length_pos_iff.mpr hne
        simp only [List.length_append] at hlen
        rw [hw, ho, List.map_singleton, List.sum_singleton]
        omega
    · have hmore := hinv.tooMuch hseq
      omega

/-- **A completion.** -/
lemma SentSoFar.complete {s₀ s s' : SerialState} {es : List SendEvent} {i : ℕ}
    (hinv : SentSoFar fl h crc s₀ es s) (hstep : h.sending fl crc s (.complete i) s') :
    SentSoFar fl h crc s₀ (es ++ [.complete i]) s' := by
  obtain ⟨content, hi, rfl⟩ := hstep
  have hcount := hinv.outstanding
  have hseq : Sequential (es ++ [.complete i]) ↔ Sequential es := by
    rw [sequential_snoc]
    exact and_iff_left fun packet heq => by cases heq
  refine ⟨?_, ?_, ?_⟩
  · obtain ⟨hlt, -⟩ := List.getElem?_eq_some_iff.mp hi
    rw [completions_append, calls_append, List.length_eraseIdx_of_lt hlt]
    simp only [completions, calls]
    omega
  · rw [hseq, messages_snoc_complete]
    intro hs
    rcases hinv.inOrder hs with ⟨hw, -⟩ | ⟨last, hw, ho, -, hbytes⟩
    · rw [hw] at hi
      cases hi
    · obtain ⟨rfl, rfl⟩ : i = 0 ∧ last = content := by
        rw [hw] at hi
        cases i with
        | zero => exact ⟨rfl, Option.some.inj hi⟩
        | succ i => cases hi
      refine Or.inl ⟨?_, ?_, hbytes⟩
      · simp [hw]
      · simp [ho]
  · rw [hseq, messages_snoc_complete]
    intro hs
    have hmore := hinv.tooMuch hs
    have hsum := sum_lengths_eraseIdx hi
    simp only [List.length_append]
    omega

/-- **When non-blocking sends are exact.**  In a run that has completed all its writes, what was
transmitted is the concatenation of the messages in call order, with an empty buffer, if and only
if no call found an earlier write outstanding. -/
theorem async_sends_iff (fl : FloatCast) (h : SerialHandler) (crc : Bytes → BitVec 16)
    (hdir : h.direction_ ≠ .receive) (hasync : h.sendBlocking_ = false) {s₀ s : SerialState}
    (hout : s₀.outBuffer_ = []) (hwrites : s₀.writes = []) {es : List SendEvent}
    (hrun : Run (h.sending fl crc) s₀ es s) (hdone : s.writes = []) :
    (s.wire = s₀.wire ++ (messages fl h crc es).flatten ∧ s.outBuffer_ = []) ↔ Sequential es := by
  have hinv : SentSoFar fl h crc s₀ es s := by
    refine hrun.induct (P := fun es s => SentSoFar fl h crc s₀ es s) ?_ ?_
    · refine ⟨by rw [hwrites]; rfl, fun _ => Or.inl ⟨hwrites, hout, (List.append_nil _).symm⟩, ?_⟩
      exact fun hnot => absurd sequential_nil hnot
    · intro es s e s' hinv hstep
      cases e with
      | sendPacket packet => exact hinv.send hdir hasync hstep
      | complete i => exact hinv.complete hstep
  constructor
  · rintro ⟨hwire, -⟩
    by_contra hnot
    have hmore := hinv.tooMuch hnot
    have hlen := congrArg List.length hwire
    rw [hdone] at hmore
    simp only [List.map_nil, List.sum_nil, List.length_append] at hmore hlen
    omega
  · intro hseq
    rcases hinv.inOrder hseq with ⟨-, hbuffer, hwire⟩ | ⟨content, hw, -⟩
    · exact ⟨hwire, hbuffer⟩
    · rw [hdone] at hw
      cases hw

theorem async_sends_two_in_turn :
    ∃ s, Run (({} : SerialHandler).sending default fun _ => 0) {}
        [.sendPacket ⟨[1]⟩, .complete 0, .sendPacket ⟨[2]⟩, .complete 0] s ∧
      s.wire = [0, 0, 1, 42, 45, 42, 0, 0, 2, 42, 45, 42] ∧ s.outBuffer_ = [] := by
  have hrun : Run (({} : SerialHandler).sending default fun _ => 0) {}
      [.sendPacket ⟨[1]⟩, .complete 0, .sendPacket ⟨[2]⟩, .complete 0] _ :=
    (((Run.single rfl).snoc ⟨_, rfl, rfl⟩).snoc rfl).snoc ⟨_, rfl, rfl⟩
  have hseq : Sequential [.sendPacket ⟨[1]⟩, .complete 0, .sendPacket ⟨[2]⟩, .complete 0] := by
    have hone := (sequential_snoc [] (.sendPacket ⟨[1]⟩)).mpr ⟨sequential_nil, fun _ _ => rfl⟩
    have htwo := (sequential_snoc _ (.complete 0)).mpr ⟨hone, fun _ heq => by cases heq⟩
    have hthree := (sequential_snoc _ (.sendPacket ⟨[2]⟩)).mpr ⟨htwo, fun _ _ => rfl⟩
    exact (sequential_snoc _ (.complete 0)).mpr ⟨hthree, fun _ heq => by cases heq⟩
  obtain ⟨hwire, hbuffer⟩ := (async_sends_iff default {} (fun _ => 0) (by decide) rfl rfl rfl hrun
    (by decide)).mpr hseq
  exact ⟨_, hrun, hwire, hbuffer⟩

/-- Two calls before the first completion put the first message on the wire twice. -/
theorem async_sends_repeat :
    ¬∀ es s, Run (({} : SerialHandler).sending default fun _ => 0) {} es s → s.writes = [] →
      s.wire = (messages default {} (fun _ => 0) es).flatten ∧ s.outBuffer_ = [] := by
  intro hall
  have hrun : Run (({} : SerialHandler).sending default fun _ => 0) {}
      [.sendPacket ⟨[1]⟩, .sendPacket ⟨[2]⟩, .complete 0, .complete 0] _ :=
    (((Run.single rfl).snoc rfl).snoc ⟨_, rfl, rfl⟩).snoc ⟨_, rfl, rfl⟩
  have hwire := (hall _ _ hrun (by decide)).1
  exact absurd hwire (by decide)

end CpsCore.SerialHandler

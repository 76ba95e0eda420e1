import Mathlib
import CpsCore.IDC.SerialLink

/-!
# The serial link after noise

The deframer has no state but its buffer, and a delimiter empties it.  So bytes that nobody sent
cost at most the message they run into.

* `link_outcomes` — what a run of the link delivers, frame by frame.
* `scan_behind_noise` — the frames behind a message that is not shorter than the delimiter.
* `link_resynchronizes` — after any noise, every message but the first is delivered.
-/

namespace CpsCore.SerialHandler

open Framing Transition

variable {fl : FloatCast} {h : SerialHandler} {crc : Bytes → BitVec 16}

/-! ## Frames and what they deliver -/

/-- What a run has delivered: the frames, each with the packet it was opened to. -/
structure Opened (fl : FloatCast) (h : SerialHandler) (crc : Bytes → BitVec 16)
    (s₀ s : SerialState) (outcomes : List (Bytes × Option Packet)) : Prop where
  frames : s.frames = s₀.frames ++ outcomes.map Prod.fst
  delivered : s.onPacket_ = s₀.onPacket_ ++ outcomes.filterMap Prod.snd
  verdict : ∀ o ∈ outcomes, ∃ beyond, o.2 = h.verdict fl crc beyond o.1
  active : s.handlerCanceled_ = false

lemma account_onPacket (frame : Bytes) (s : SerialState) (v : Option Packet) :
    (account frame s v).onPacket_ = s.onPacket_ ++ v.toList := by
  cases v with
  | none => exact (List.append_nil _).symm
  | some packet => rfl

theorem link_outcomes {s₀ s : SerialState} {es : List LinkEvent}
    (hactive : s₀.handlerCanceled_ = false) (hrun : Run (h.link fl crc) s₀ es s) :
    ∃ outcomes, Opened fl h crc s₀ s outcomes := by
  refine hrun.invariant (I := fun s => ∃ outcomes, Opened fl h crc s₀ s outcomes) ?_ ?_
  · exact ⟨[], by simp, by simp, by simp, hactive⟩
  · rintro s e s' ⟨outcomes, hinv⟩ hstep
    rcases link_cases hstep hinv.active with ⟨chunk, rfl, rfl⟩ | ⟨beyond, line, rest, rfl, -, -, rfl⟩
    · exact ⟨outcomes, hinv.frames, hinv.delivered, hinv.verdict, hinv.active⟩
    · rw [afterLine]
      cases (h.packetString line s.packetBuffer_).1 with
      | none => exact ⟨outcomes, hinv.frames, hinv.delivered, hinv.verdict, hinv.active⟩
      | some frame =>
          refine ⟨outcomes ++ [(frame, h.verdict fl crc beyond frame)], ?_, ?_, ?_, ?_⟩
          · simp [hinv.frames]
          · have hlast : [(frame, h.verdict fl crc beyond frame)].filterMap Prod.snd =
                (h.verdict fl crc beyond frame).toList := by
              cases h.verdict fl crc beyond frame <;> rfl
            rw [List.filterMap_append, ← List.append_assoc, ← hinv.delivered, hlast]
            exact account_onPacket frame _ _
          · intro o ho
            rcases List.mem_append.mp ho with ho | ho
            · exact hinv.verdict o ho
            · obtain rfl := List.mem_singleton.mp ho
              exact ⟨beyond, rfl⟩
          · rw [account_canceled]
            exact hinv.active

/-- The frames of packets deliver these packets. -/
lemma filterMap_bodies : ∀ {outcomes : List (Bytes × Option Packet)} {packets : List Packet},
    (∀ o ∈ outcomes, ∃ beyond, o.2 = h.verdict fl crc beyond o.1) →
    outcomes.map Prod.fst = packets.map (h.body fl crc) → outcomes.filterMap Prod.snd = packets
  | [], [], _, _ => rfl
  | o :: outcomes, p :: packets, hverdict, hmap => by
      rw [List.map_cons, List.map_cons, List.cons.injEq] at hmap
      obtain ⟨beyond, ho⟩ := hverdict o (by simp)
      rw [hmap.1, verdict_body] at ho
      rw [List.filterMap_cons_some ho, filterMap_bodies
        (fun o ho => hverdict o (List.mem_cons_of_mem _ ho)) hmap.2]

/-! ## Noise in front of messages -/

/-- **Whatever the buffer holds**, the frames behind the first message are those of the others. -/
lemma scan_behind_noise {first : Packet} {packets : List Packet}
    (hsafe : ∀ p ∈ first :: packets, OnlyAtEnd h.delimString_ (h.message fl crc p))
    (hne : h.delimString_.length ≠ 1 → ∀ p ∈ packets, h.body fl crc p ≠ [])
    (hlong : h.delimString_.length ≤ (h.body fl crc first).length) (buf : Bytes) :
    ∃ junk, scan h.Emits h.delimString_.length ([], buf)
        ((first :: packets).flatMap (h.message fl crc)) =
      (junk ++ packets.map (h.body fl crc), []) := by
  have hfirst : (scan h.Emits h.delimString_.length ([], buf) (h.message fl crc first)).2 = [] :=
    scan_resync h.delim_ne (fun b hb => hb.1) (fun b hsuf hlt => ⟨hsuf, Or.inr hlt⟩)
      (hsafe first (by simp)) hlong buf
  have hrest : scan h.Emits h.delimString_.length ([], []) (packets.flatMap (h.message fl crc)) =
      (packets.map (h.body fl crc), []) := by
    refine scan_emits_of_split
      (isSplit_messages fun p hp => hsafe p (List.mem_cons_of_mem _ hp)) ?_
    intro htwo hmem
    obtain ⟨p, hp, hnil⟩ := List.mem_map.mp hmem
    exact hne htwo p hp hnil
  refine ⟨(scan h.Emits h.delimString_.length ([], buf) (h.message fl crc first)).1, ?_⟩
  rw [List.flatMap_cons, scan_append]
  generalize scan h.Emits h.delimString_.length ([], buf) (h.message fl crc first) = st at hfirst ⊢
  obtain ⟨bodies, rest⟩ := st
  obtain rfl : rest = [] := hfirst
  rw [scan_bodies, hrest]

/-- **The link finds back into step.**  Noise comes in, whatever its bytes, and behind it the
messages of packets that contain the delimiter at their end only.  Once all lines were handed
over, every packet but the first was delivered, in order and behind everything that was made of
the noise; the buffer is empty.  The first message must not be shorter than its delimiter: with a
checksum and the delimiter `"*-*"` it is not, unless the packet is empty. -/
theorem link_resynchronizes (fl : FloatCast) (h : SerialHandler) (crc : Bytes → BitVec 16)
    {s₀ s : SerialState} {es : List LinkEvent} (hs₀ : Listening s₀)
    (hrun : Run (h.link fl crc) s₀ es s) (hidle : h.delim_ ∉ s.inBuffer_) {noise : Bytes}
    {first : Packet} {packets : List Packet}
    (hsent : arrived es = noise ++ (first :: packets).flatMap (h.message fl crc))
    (hsafe : ∀ p ∈ first :: packets, OnlyAtEnd h.delimString_ (h.message fl crc p))
    (hne : h.delimString_.length ≠ 1 → ∀ p ∈ packets, h.body fl crc p ≠ [])
    (hlong : h.delimString_.length ≤ (h.body fl crc first).length) :
    ∃ junk stray, s.frames = s₀.frames ++ (junk ++ packets.map (h.body fl crc)) ∧
      s.onPacket_ = s₀.onPacket_ ++ (stray ++ packets) ∧ stray.length ≤ junk.length ∧
      s.packetBuffer_ = [] := by
  obtain ⟨bodies, hframes, hscan⟩ := link_frames hs₀ hrun hidle
  obtain ⟨outcomes, hopened⟩ := link_outcomes hs₀.active hrun
  -- the frames are those made of the noise and the first message, and those of the others
  obtain ⟨junk, hjunk⟩ : ∃ junk, bodies = junk ++ packets.map (h.body fl crc) ∧
      s.packetBuffer_ = [] := by
    rw [hsent, scan_append] at hscan
    generalize scan h.Emits h.delimString_.length ([], []) noise = st at hscan
    obtain ⟨before, buf⟩ := st
    obtain ⟨junk, hbehind⟩ := scan_behind_noise hsafe hne hlong buf
    rw [scan_bodies, hbehind, Prod.mk.injEq] at hscan
    exact ⟨before ++ junk, by rw [← hscan.1, List.append_assoc],
      (List.append_eq_nil_iff.mp hscan.2.symm).1⟩
  rw [hjunk.1] at hframes
  have hmap : outcomes.map Prod.fst = junk ++ packets.map (h.body fl crc) :=
    List.append_cancel_left (hopened.frames.symm.trans hframes)
  obtain ⟨before, behind, rfl, hbefore, hbehind⟩ := List.map_eq_append_iff.mp hmap
  have hpackets := filterMap_bodies
    (fun o ho => hopened.verdict o (List.mem_append_right _ ho)) hbehind
  refine ⟨junk, before.filterMap Prod.snd, hframes, ?_, ?_, hjunk.2⟩
  · rw [hopened.delivered, List.filterMap_append, hpackets]
  · have hlen : before.length = junk.length := by rw [← hbefore, List.length_map]
    rw [← hlen]
    exact List.length_filterMap_le _ _

/-- Two bytes of noise, the second the begin of a delimiter, and two packets. -/
theorem link_resynchronizes_pair : ∃ es s,
    Run (({} : SerialHandler).link default fun _ => 0) {} es s ∧
      ∃ stray, s.onPacket_ = [] ++ (stray ++ [⟨[8]⟩]) := by
  have harrive : ({} : SerialHandler).link default (fun _ => 0) {}
      (.arrive [1, 42, 0, 0, 7, 42, 45, 42, 0, 0, 8, 42, 45, 42])
      { inBuffer_ := [1, 42, 0, 0, 7, 42, 45, 42, 0, 0, 8, 42, 45, 42] } := rfl
  have hreceive : ∀ (line rest : Bytes) (s : SerialState), s.handlerCanceled_ = false →
      ({} : SerialHandler).delim_ ∉ line →
      s.inBuffer_ = line ++ ({} : SerialHandler).delim_ :: rest →
      ({} : SerialHandler).link default (fun _ => 0) s (.receive fun _ => 0)
        (afterLine default {} (fun _ => 0) (fun _ => 0) line rest s) :=
    fun line rest s hactive hline hin =>
      ⟨by rw [hin]; simp, run_receive _ hactive hline hin⟩
  have hrun := (((((Run.single harrive).snoc
    (hreceive [1] [0, 0, 7, 42, 45, 42, 0, 0, 8, 42, 45, 42] _ rfl (by decide) rfl)).snoc
    (hreceive [0, 0, 7] [45, 42, 0, 0, 8, 42, 45, 42] _ (by simp) (by decide)
      (afterLine_inBuffer _ _ _ _))).snoc
    (hreceive [45] [0, 0, 8, 42, 45, 42] _ (by simp) (by decide)
      (afterLine_inBuffer _ _ _ _))).snoc
    (hreceive [0, 0, 8] [45, 42] _ (by simp) (by decide) (afterLine_inBuffer _ _ _ _))).snoc
    (hreceive [45] [] _ (by simp) (by decide) (afterLine_inBuffer _ _ _ _))
  have hsafe : ∀ p ∈ [(⟨[7]⟩ : Packet), ⟨[8]⟩],
      OnlyAtEnd defaultDelimiter (({} : SerialHandler).message default (fun _ => 0) p) := by
    intro p hp
    refine (onlyAtEnd_aba_iff (by decide) _).mpr ?_
    rcases List.mem_pair.mp hp with rfl | rfl
    · exact ⟨by decide +kernel, by decide +kernel⟩
    · exact ⟨by decide +kernel, by decide +kernel⟩
  obtain ⟨_, stray, -, hpackets, -⟩ := link_resynchronizes default {} (fun _ => 0) ⟨rfl, rfl, rfl⟩
    hrun (by simp) (show _ = [1, 42] ++ _ by decide +kernel) hsafe (by decide +kernel)
    (by decide +kernel)
  exact ⟨_, _, hrun, stray, hpackets⟩

end CpsCore.SerialHandler

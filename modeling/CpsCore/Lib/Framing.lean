import Mathlib

/-!
# Delimited frames

A stream is cut at the leftmost non-overlapping occurrences of a delimiter `D`.

* `IsSplit D s bodies rest` — the cut itself: the bodies, and what is left after the last
  delimiter.  There is exactly one (`IsSplit.unique`, `isSplit_scan`).
* `scan emit n` — a machine that takes one symbol after the other, keeps a buffer and ends a
  frame whenever `emit` accepts the buffer; the last `n` symbols are the delimiter.
* `scan_eq_of_nonempty` — a machine that misses the frames with an empty body cuts correctly
  exactly as long as there are none.
* `scan_resync` — whatever a machine holds in its buffer, a frame that is longer than the
  delimiter brings it back into step.
-/

namespace Framing

universe u
variable {α : Type u}

/-- `D` occurs in `w` at its end at most. -/
def OnlyAtEnd (D w : List α) : Prop := ∀ p q, w = p ++ (D ++ q) → q = []

/-- `s` cut at the leftmost non-overlapping occurrences of `D`. -/
structure IsSplit (D s : List α) (bodies : List (List α)) (rest : List α) : Prop where
  concat : s = bodies.flatMap (· ++ D) ++ rest
  leftmost : ∀ b ∈ bodies, OnlyAtEnd D (b ++ D)
  done : ¬D <:+: rest

/-! ## Uniqueness -/

lemma OnlyAtEnd.length_le {D b x y z : List α} (h : OnlyAtEnd D (b ++ D))
    (heq : b ++ (D ++ x) = y ++ (D ++ z)) : b.length ≤ y.length := by
  by_contra hlt
  push Not at hlt
  -- the delimiter behind `y` ends inside `b ++ D`
  obtain ⟨t, ht⟩ : ∃ t, b ++ D = y ++ D ++ t := by
    have hy : y ++ D <+: b ++ (D ++ x) := heq ▸ ⟨z, by simp⟩
    have hb : b ++ D <+: b ++ (D ++ x) := ⟨x, by simp⟩
    have hlen : (y ++ D).length ≤ (b ++ D).length := by
      simp only [List.length_append]
      omega
    obtain ⟨t, ht⟩ := List.prefix_of_prefix_length_le hy hb hlen
    exact ⟨t, ht.symm⟩
  have htnil := h y t (by rw [ht, List.append_assoc])
  have hlen := congrArg List.length ht
  simp only [htnil, List.append_nil, List.length_append] at hlen
  omega

/-- **A stream is cut in one way only.** -/
theorem IsSplit.unique {D : List α} : ∀ {bodies bodies' : List (List α)} {s rest rest' : List α},
    IsSplit D s bodies rest → IsSplit D s bodies' rest' → bodies = bodies' ∧ rest = rest'
  | [], [], s, rest, rest', h, h' => ⟨rfl, h.concat.symm.trans h'.concat⟩
  | [], b' :: bodies', s, rest, rest', h, h' => by
      have hrest : rest = b' ++ (D ++ (bodies'.flatMap (· ++ D) ++ rest')) := by
        have hs := h.concat.symm.trans h'.concat
        simpa using hs
      exact absurd ⟨b', _, by rw [hrest, List.append_assoc]⟩ h.done
  | b :: bodies, [], s, rest, rest', h, h' => by
      have hrest : rest' = b ++ (D ++ (bodies.flatMap (· ++ D) ++ rest)) := by
        have hs := h'.concat.symm.trans h.concat
        simpa using hs
      exact absurd ⟨b, _, by rw [hrest, List.append_assoc]⟩ h'.done
  | b :: bodies, b' :: bodies', s, rest, rest', h, h' => by
      have heq : b ++ (D ++ (bodies.flatMap (· ++ D) ++ rest)) =
          b' ++ (D ++ (bodies'.flatMap (· ++ D) ++ rest')) := by
        have hs := h.concat.symm.trans h'.concat
        simpa using hs
      have hle := (h.leftmost b (by simp)).length_le heq
      have hge := (h'.leftmost b' (by simp)).length_le heq.symm
      obtain ⟨rfl, htail⟩ := List.append_inj heq (Nat.le_antisymm hle hge)
      have hrest := List.append_cancel_left htail
      obtain ⟨rfl, rfl⟩ := IsSplit.unique
        (⟨rfl, fun x hx => h.leftmost x (List.mem_cons_of_mem _ hx), h.done⟩ :
          IsSplit D _ bodies rest)
        ⟨hrest, fun x hx => h'.leftmost x (List.mem_cons_of_mem _ hx), h'.done⟩
      exact ⟨rfl, rfl⟩

/-- A stream of complete frames is cut into these. -/
lemma isSplit_frames {D : List α} (hD : D ≠ []) {bodies : List (List α)}
    (h : ∀ b ∈ bodies, OnlyAtEnd D (b ++ D)) :
    IsSplit D (bodies.flatMap (· ++ D)) bodies [] :=
  ⟨(List.append_nil _).symm, h, by simpa using hD⟩

/-- A delimiter `a b a`: the body must not contain it, and must not end with its first two
symbols, which the first symbol of the delimiter would complete. -/
theorem onlyAtEnd_aba_iff {a b : α} (hab : a ≠ b) (m : List α) :
    OnlyAtEnd [a, b, a] (m ++ [a, b, a]) ↔ ¬[a, b, a] <:+: m ∧ ¬[a, b] <:+ m := by
  constructor
  · intro h
    refine ⟨?_, ?_⟩
    · rintro ⟨p, q, rfl⟩
      have hnil := h p (q ++ [a, b, a]) (by simp)
      simp at hnil
    · rintro ⟨p, rfl⟩
      have hnil := h p [b, a] (by simp)
      simp at hnil
  · rintro ⟨hinner, hsuffix⟩ p q hpq
    -- the cases are how far the second occurrence reaches into the delimiter
    rcases List.eq_nil_or_concat' q with rfl | ⟨q, z, rfl⟩
    · rfl
    rcases List.eq_nil_or_concat' q with rfl | ⟨q, y, rfl⟩
    · have htail : m ++ [a, b, a] = (p ++ [a]) ++ [b, a, z] := by simpa using hpq
      have heq := (List.append_inj' htail rfl).2
      exact absurd (List.cons.inj heq).1 hab
    rcases List.eq_nil_or_concat' q with rfl | ⟨q, x, rfl⟩
    · have htail : m ++ [a, b, a] = (p ++ [a, b]) ++ [a, y, z] := by simpa using hpq
      exact absurd ⟨p, (List.append_inj' htail rfl).1.symm⟩ hsuffix
    · have htail : m ++ [a, b, a] = (p ++ [a, b, a] ++ q) ++ [x, y, z] := by simpa using hpq
      exact absurd ⟨p, q, (List.append_inj' htail rfl).1.symm⟩ hinner

/-! ## Scanning -/

section Scan

variable (emit : List α → Prop) [DecidablePred emit] (n : ℕ)

/-- One more symbol: the bodies so far, and the buffer. -/
def push (st : List (List α) × List α) (x : α) : List (List α) × List α :=
  if emit (st.2 ++ [x]) then
    (st.1 ++ [(st.2 ++ [x]).take ((st.2 ++ [x]).length - n)], [])
  else (st.1, st.2 ++ [x])

def scan (st : List (List α) × List α) (s : List α) : List (List α) × List α :=
  s.foldl (push emit n) st

variable {emit n}

@[simp] lemma scan_nil (st : List (List α) × List α) : scan emit n st [] = st := rfl

lemma scan_append (st : List (List α) × List α) (s t : List α) :
    scan emit n st (s ++ t) = scan emit n (scan emit n st s) t := List.foldl_append

lemma scan_snoc (st : List (List α) × List α) (s : List α) (x : α) :
    scan emit n st (s ++ [x]) = push emit n (scan emit n st s) x := by
  rw [scan_append]
  rfl

lemma scan_congr {emit' : List α → Prop} [DecidablePred emit'] (h : ∀ buf, emit buf ↔ emit' buf)
    (st : List (List α) × List α) (s : List α) : scan emit n st s = scan emit' n st s := by
  have hpush : push emit n = push emit' n := by
    funext st x
    exact if_congr (h _) rfl rfl
  rw [scan, scan, hpush]

/-- Symbols that never end a frame go to the buffer. -/
lemma scan_quiet (bodies : List (List α)) {s : List α}
    (h : ∀ x ∈ s, ∀ buf, ¬emit (buf ++ [x])) :
    ∀ buf, scan emit n (bodies, buf) s = (bodies, buf ++ s) := by
  induction s with
  | nil => intro buf; simp
  | cons x s ih =>
      intro buf
      have hx : push emit n (bodies, buf) x = (bodies, buf ++ [x]) := if_neg (h x (by simp) buf)
      have hs := ih (fun y hy => h y (List.mem_cons_of_mem _ hy)) (buf ++ [x])
      calc scan emit n (bodies, buf) (x :: s)
          = scan emit n (push emit n (bodies, buf) x) s := rfl
        _ = (bodies, buf ++ (x :: s)) := by rw [hx, hs]; simp

end Scan

section Plain

variable {D : List α}

lemma not_infix_snoc {buf : List α} {x : α} (h : ¬D <:+: buf) (hx : ¬D <:+ buf ++ [x]) :
    ¬D <:+: buf ++ [x] := by
  rintro ⟨p, q, hpq⟩
  rcases List.eq_nil_or_concat' q with rfl | ⟨q, y, rfl⟩
  · exact hx ⟨p, by simpa using hpq⟩
  · have hlast : (p ++ D ++ q) ++ [y] = buf ++ [x] := by simpa using hpq
    exact h ⟨p, q, (List.append_inj' hlast rfl).1⟩

lemma onlyAtEnd_snoc {buf : List α} {x : α} (h : ¬D <:+: buf) : OnlyAtEnd D (buf ++ [x]) := by
  intro p q hpq
  rcases List.eq_nil_or_concat' q with rfl | ⟨q, y, rfl⟩
  · rfl
  · have hlast : buf ++ [x] = (p ++ (D ++ q)) ++ [y] := by simpa using hpq
    have hinit := (List.append_inj' hlast rfl).1
    exact absurd ⟨p, q, by rw [hinit, List.append_assoc]⟩ h

variable [DecidableEq α]

/-- **Scanning for the delimiter cuts the stream.**  Induction on the symbols read: the buffer
never contains the delimiter. -/
theorem isSplit_scan (hD : D ≠ []) (s : List α) :
    IsSplit D s (scan (D <:+ ·) D.length ([], []) s).1 (scan (D <:+ ·) D.length ([], []) s).2 := by
  induction s using List.reverseRecOn with
  | nil => exact ⟨rfl, by simp, by simpa using hD⟩
  | append_singleton s x ih =>
      rw [scan_snoc]
      obtain ⟨hconcat, hleft, hdone⟩ := ih
      generalize scan (D <:+ ·) D.length ([], []) s = st at hconcat hleft hdone ⊢
      obtain ⟨bodies, buf⟩ := st
      rw [push]
      split_ifs with hemit
      · obtain ⟨body, hbody⟩ := hemit
        have htake : (buf ++ [x]).take ((buf ++ [x]).length - D.length) = body := by
          rw [← hbody, List.length_append, Nat.add_sub_cancel, List.take_left]
        refine ⟨?_, ?_, by simpa using hD⟩
        · rw [hconcat, htake, List.append_assoc, ← hbody]
          simp
        · intro b hb
          rcases List.mem_append.mp hb with hb | hb
          · exact hleft b hb
          · obtain rfl := List.mem_singleton.mp hb
            rw [htake, hbody]
            exact onlyAtEnd_snoc hdone
      · refine ⟨?_, hleft, not_infix_snoc hdone hemit⟩
        rw [hconcat, List.append_assoc]

/-- A machine that ends a frame at a delimiter behind at least one symbol. -/
abbrev Strict (D buf : List α) : Prop := D <:+ buf ∧ D.length < buf.length

lemma nil_not_mem_scan_strict (s : List α) :
    [] ∉ (scan (Strict D) D.length ([], []) s).1 := by
  induction s using List.reverseRecOn with
  | nil => simp
  | append_singleton s x ih =>
      rw [scan_snoc, push]
      split_ifs with hemit
      · intro hmem
        rcases List.mem_append.mp hmem with hmem | hmem
        · exact ih hmem
        · have hnil := List.mem_singleton.mp hmem
          have hlen := congrArg List.length hnil
          have hstrict := hemit.2
          simp only [List.length_nil, List.length_take] at hlen
          omega
      · exact ih

/-- Without empty bodies the strict machine does the same. -/
theorem scan_eq_of_nonempty {s : List α} (h : [] ∉ (scan (D <:+ ·) D.length ([], []) s).1) :
    scan (Strict D) D.length ([], []) s = scan (D <:+ ·) D.length ([], []) s := by
  induction s using List.reverseRecOn with
  | nil => rfl
  | append_singleton s x ih =>
      rw [scan_snoc] at h ⊢
      have hprev : [] ∉ (scan (D <:+ ·) D.length ([], []) s).1 := by
        intro hmem
        refine h ?_
        rw [push]
        split_ifs
        · exact List.mem_append_left _ hmem
        · exact hmem
      rw [scan_snoc, ih hprev]
      generalize scan (D <:+ ·) D.length ([], []) s = st at h
      by_cases hemit : D <:+ st.2 ++ [x]
      · have hlong : D.length < (st.2 ++ [x]).length := by
          by_contra hshort
          refine h ?_
          rw [push, if_pos hemit]
          have hzero : (st.2 ++ [x]).length - D.length = 0 := by omega
          rw [hzero]
          simp
        rw [push, push, if_pos hemit, if_pos ⟨hemit, hlong⟩]
      · rw [push, push, if_neg hemit, if_neg fun hs => hemit hs.1]

/-- **The strict machine cuts correctly exactly the streams without empty bodies.** -/
theorem isSplit_scan_strict_iff (hD : D ≠ []) (s : List α) :
    IsSplit D s (scan (Strict D) D.length ([], []) s).1 (scan (Strict D) D.length ([], []) s).2 ↔
      ∀ bodies rest, IsSplit D s bodies rest → [] ∉ bodies := by
  constructor
  · intro h bodies rest hsplit
    rw [(hsplit.unique h).1]
    exact nil_not_mem_scan_strict s
  · intro h
    have hplain := isSplit_scan hD s
    rw [scan_eq_of_nonempty (h _ _ hplain)]
    exact hplain

end Plain

section Resync

variable {D : List α} {emit : List α → Prop} [DecidablePred emit]

/-- Bodies are appended to those that are there. -/
lemma scan_bodies {n : ℕ} (bodies : List (List α)) (buf s : List α) :
    scan emit n (bodies, buf) s =
      (bodies ++ (scan emit n ([], buf) s).1, (scan emit n ([], buf) s).2) := by
  induction s using List.reverseRecOn with
  | nil => simp
  | append_singleton s x ih =>
      rw [scan_snoc, scan_snoc, ih]
      generalize scan emit n ([], buf) s = st
      rw [push, push]
      split_ifs
      · rw [List.append_assoc]
      · rfl

/-- What is in the buffer after the symbols `w`: all of them behind the old content, or those
behind the last delimiter. -/
lemma scan_buffer (hsub : ∀ b, emit b → D <:+ b) (buf w : List α) :
    (scan emit D.length ([], buf) w).2 = buf ++ w ∨
      ∃ w', w = w' ++ (scan emit D.length ([], buf) w).2 ∧ D <:+ buf ++ w' := by
  induction w using List.reverseRecOn with
  | nil => exact Or.inl (List.append_nil _).symm
  | append_singleton w x ih =>
      have hback : (scan emit D.length ([], buf) w).2 <:+ buf ++ w := by
        rcases ih with heq | ⟨w', heq, -⟩
        · rw [heq]
        · exact ⟨buf ++ w', by rw [List.append_assoc, ← heq]⟩
      rw [scan_snoc, push]
      split_ifs with hemit
      · refine Or.inr ⟨w ++ [x], (List.append_nil _).symm, ?_⟩
        refine (hsub _ hemit).trans ?_
        obtain ⟨t, ht⟩ := hback
        exact ⟨t, by rw [← List.append_assoc, ht, List.append_assoc]⟩
      · rcases ih with heq | ⟨w', heq, hw'⟩
        · exact Or.inl (by rw [heq, List.append_assoc])
        · exact Or.inr ⟨w', by rw [← List.append_assoc, ← heq], hw'⟩

/-- **Back in step.**  The machine ends frames at delimiters only, and at every one behind which
its buffer is longer. -/
theorem scan_resync (hD : D ≠ []) (hsub : ∀ b, emit b → D <:+ b)
    (hsup : ∀ b, D <:+ b → D.length < b.length → emit b) {m : List α}
    (honly : OnlyAtEnd D (m ++ D)) (hlong : D.length ≤ m.length) (buf : List α) :
    (scan emit D.length ([], buf) (m ++ D)).2 = [] := by
  obtain ⟨D', x, hDx⟩ : ∃ D' x, D = D' ++ [x] :=
    ⟨D.dropLast, D.getLast hD, (List.dropLast_append_getLast hD).symm⟩
  have hlen : D.length = D'.length + 1 := by rw [hDx, List.length_append, List.length_singleton]
  have hsplit : m ++ D = (m ++ D') ++ [x] := by rw [hDx, List.append_assoc]
  have hcases := scan_buffer hsub buf (m ++ D')
  rw [hsplit, scan_snoc, push]
  generalize (scan emit D.length ([], buf) (m ++ D')).2 = c at hcases
  -- the buffer is a long enough part of what was read
  have hlast : D.length ≤ c.length ∧ c <:+ buf ++ (m ++ D') := by
    rcases hcases with rfl | ⟨w', hw', hsuf⟩
    · refine ⟨?_, List.suffix_rfl⟩
      simp only [List.length_append]
      omega
    · refine ⟨?_, ⟨buf ++ w', by rw [List.append_assoc, ← hw']⟩⟩
      by_contra hshort
      have hsize := congrArg List.length hw'
      simp only [List.length_append] at hsize
      -- the last delimiter is inside the message, and not at its end
      have hin : D <:+ w' := List.suffix_of_suffix_length_le hsuf (List.suffix_append _ _) (by omega)
      obtain ⟨p, rfl⟩ := hin
      have hnil := honly p (c ++ [x]) (by
        rw [hsplit, hw']
        simp)
      exact absurd hnil (by simp)
  have hD_suffix : D <:+ c ++ [x] := by
    have hall : D <:+ buf ++ (m ++ D') ++ [x] := ⟨buf ++ m, by rw [hDx]; simp⟩
    have hc : c ++ [x] <:+ buf ++ (m ++ D') ++ [x] := by
      obtain ⟨t, ht⟩ := hlast.2
      exact ⟨t, by rw [← List.append_assoc, ht]⟩
    refine List.suffix_of_suffix_length_le hall hc ?_
    rw [List.length_append]
    exact hlast.1.trans (Nat.le_add_right _ _)
  rw [if_pos (hsup _ hD_suffix (by rw [List.length_append, List.length_singleton]; omega))]

end Resync

end Framing

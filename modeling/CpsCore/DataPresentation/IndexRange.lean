import Mathlib
import CpsCore.DataPresentation.Extract

/-!
# Past the range of the index

`BinaryFromArchive::idx_` is an `unsigned int`, and strings can be longer than it counts.  This
is what happens to a reader that gets there: `strings n len last` is a vector of strings whose
encoding has any length one likes, and `run_wrap` reads one of `2 ^ 32 - 2` bytes and an empty
string behind it.  Every block read is where it belongs, and the archive is back at its start.
-/

namespace CpsCore.dp

open StateExcept BinaryFromArchive

variable {fl : FloatCast}

/-- `n` strings of `len` zeros and one of `last` zeros. -/
def strings (n len last : ℕ) : List Bytes :=
  List.replicate n (List.replicate len 0) ++ [List.replicate last 0]

lemma forall_mem_strings {n len last : ℕ} {P : Bytes → Prop} (hlen : P (List.replicate len 0))
    (hlast : P (List.replicate last 0)) : ∀ str ∈ strings n len last, P str := by
  intro str hstr
  rcases List.mem_append.mp hstr with hstr | hstr
  · rw [List.eq_of_mem_replicate hstr]
    exact hlen
  · rw [List.mem_singleton.mp hstr]
    exact hlast

lemma length_encString (str : Bytes) : (encString str).length = 2 + str.length := by
  rw [encString, List.length_append]
  exact congrArg (· + _) (IntWidth.w16.length_toBytes _)

lemma length_enc_strings (c : Bool) (n len last : ℕ) :
    (enc fl c (.vector .string) (strings n len last)).length =
      2 + (n * (2 + len) + (2 + last)) := by
  have hcount : ∀ k, (encCount .w16 k).length = 2 := fun k => IntWidth.w16.length_toBytes _
  have hmap : (strings n len last).map (fun str => (enc fl c .string str).length) =
      List.replicate n (2 + len) ++ [2 + last] := by
    rw [strings, List.map_append, List.map_replicate, List.map_singleton]
    simp only [enc, length_encString, List.length_replicate]
  rw [enc, List.length_append, hcount, List.length_flatMap, hmap, List.sum_append,
    List.sum_replicate, List.sum_singleton, smul_eq_mul]

lemma strings_fits {n len last : ℕ} (hn : n + 1 < 2 ^ 16) (hlen : len < 2 ^ 16)
    (hlast : last < 2 ^ 16) : Fits (.vector .string) (strings n len last) := by
  constructor
  · rwa [strings, List.length_append, List.length_replicate]
  · refine forall_mem_strings ?_ ?_
    · rwa [Fits, List.length_replicate]
    · rwa [Fits, List.length_replicate]

/-- A vector of strings that is written as `2 ^ 32 - 2` bytes. -/
def giant : List Bytes := strings 65534 65535 65532

lemma length_enc_giant (c : Bool) : (enc fl c (.vector .string) giant).length = 2 ^ 32 - 2 :=
  length_enc_strings c _ _ _

lemma giant_fits : Fits (.vector .string) giant := by
  rw [giant]
  exact strings_fits (by omega) (by omega) (by omega)

/-- The first byte is one of the count. -/
lemma enc_giant_head (c : Bool) : ∃ rest, enc fl c (.vector .string) giant = 255 :: rest := by
  have hlen : giant.length = 65535 := by
    rw [giant, strings, List.length_append, List.length_replicate]
    rfl
  have hcount : encCount .w16 65535 = [255, 255] := by decide
  rw [enc, hlen, hcount]
  exact ⟨_, rfl⟩

lemma readBack_strings (c : Bool) (l : List Bytes) :
    readBack fl c (.vector .string) [] l = l := List.map_id' _

/-- **The index wraps around.** -/
theorem run_wrap (opts : ArchiveOptions) (beyond : ℕ → UInt8) (rest : Bytes) :
    ∃ ar₁ ar₂, (load fl archive (.vector .string) []).run
        (open_ (enc fl opts.compressDouble (.vector .string) giant ++ ([0, 0] ++ rest)) opts
          beyond) = .ok giant ar₁ ∧
      (load fl archive .string []).run ar₁ = .ok [] ar₂ ∧ ar₂.idx_ = 0 ∧
      ar₂.options_ = opts ∧
      ar₂.string_ = enc fl opts.compressDouble (.vector .string) giant ++ ([0, 0] ++ rest) ∧
      (∀ b ∈ ar₂.blocks, b.1 + b.2 ≤ ar₂.string_.length) := by
  have hlen := @length_enc_giant fl opts.compressDouble
  have hopen := follows_open (enc fl opts.compressDouble (.vector .string) giant ++ ([0, 0] ++ rest))
    opts beyond
  obtain ⟨ar₁, hrun, hstr, hin, hstate⟩ := load_enc_follows (.vector .string) [] giant_fits hopen
    (by rw [hlen]; decide)
  rw [readBack_strings] at hrun
  have hidx : ar₁.idx_ = 2 ^ 32 - 2 := by
    have hcons := congrArg Checked.consumed hstate
    rw [← hlen, ← Nat.zero_add (enc fl opts.compressDouble (.vector .string) giant).length]
    exact hcons.symm
  have hfit : ar₁.idx_ + 2 ≤ ar₁.string_.length := by
    rw [hidx, hstr, List.length_append, List.length_append, hlen]
    exact Nat.add_le_add_left (Nat.le_add_right 2 _) _
  -- the count of the empty string, and its content
  have hblock : ar₁.block 2 = [0, 0] := by
    have hrest : [0, 0] ++ rest = List.drop ar₁.idx_ _ := congrArg Checked.rest hstate
    rw [block_eq_slice hfit, hstr, ← hrest]
    rfl
  have hload := run_load_of_lt (show ar₁.idx_ < ar₁.string_.length by omega) 2
  have hsize : (loadPod archive (.raw .w16)).run ar₁ =
      .ok (0 : BitVec 16) (ar₁.advance 2) := by
    rw [loadPod]
    refine (run_bind_ok hload _).trans ?_
    rw [hblock]
    rfl
  refine ⟨ar₁, (ar₁.advance 2).advance 0, hrun, ?_, ?_, ?_, hstr, ?_⟩
  · exact run_bind_ok hsize _
  · show ((ar₁.idx_ + 2) % 2 ^ 32 + 0) % 2 ^ 32 = 0
    rw [hidx]
    rfl
  · exact congrArg Checked.options_ hstate.symm
  · intro b hb
    rcases List.mem_append.mp hb with hb | hb
    · rcases List.mem_append.mp hb with hb | hb
      · exact hin.inside b hb
      · rw [List.mem_singleton.mp hb]
        exact hfit
    · rw [List.mem_singleton.mp hb]
      show (ar₁.idx_ + 2) % 2 ^ 32 + 0 ≤ _
      rw [hidx]
      exact Nat.zero_le _

end CpsCore.dp

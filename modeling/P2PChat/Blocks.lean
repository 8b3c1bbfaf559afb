import Mathlib.Data.List.Basic

namespace Blocks

variable {α σ : Type} {b : Nat}

/-- The whole blocks of this size of a list; what is left at its end is in none. -/
def blocks (b : Nat) (bytes : List α) : List (List α) :=
  (List.range (bytes.length / b)).map fun i => (bytes.drop (b * i)).take b

/-- What a function for one block makes of a list of bytes. -/
def absorb (b : Nat) (process : σ → List α → σ) (s : σ) (bytes : List α) : σ := (blocks b bytes).foldl process s

theorem blocks_append (hb : 0 < b) {first : List α} (h : b ∣ first.length) (rest : List α) :
    blocks b (first ++ rest) = blocks b first ++ blocks b rest := by
  obtain ⟨q, hq⟩ := h
  have hsum : (first ++ rest).length / b = q + rest.length / b := by
    rw [List.length_append, hq, Nat.mul_add_div hb]
  have hfirst : first.length / b = q := by rw [hq, Nat.mul_div_cancel_left _ hb]
  rw [blocks, blocks, blocks, hsum, hfirst, List.range_add, List.map_append, List.map_map]
  congr 1
  · refine List.map_congr_left fun i hi => ?_
    -- such a block ends within the first list
    have hlt : b * i + b ≤ first.length := by
      rw [hq, ← Nat.mul_succ]
      exact Nat.mul_le_mul_left b (List.mem_range.mp hi)
    rw [List.drop_append_of_le_length (by omega), List.take_append_of_le_length (by rw [List.length_drop]; omega)]
  · refine List.map_congr_left fun i _ => ?_
    rw [Function.comp_apply, Nat.mul_add, ← hq, ← List.drop_drop, List.drop_left]

theorem length_of_mem_blocks {bytes block : List α} (h : block ∈ blocks b bytes) : block.length = b := by
  obtain ⟨i, hi, rfl⟩ := List.mem_map.mp h
  rw [List.mem_range] at hi
  have hlt : b * i + b ≤ bytes.length := by
    rw [← Nat.mul_succ]
    exact Nat.le_trans (Nat.mul_le_mul_left b hi) (Nat.mul_div_le bytes.length b)
  rw [List.length_take, List.length_drop]
  omega

theorem blocks_short {bytes : List α} (h : bytes.length < b) : blocks b bytes = [] := by
  rw [blocks, Nat.div_eq_of_lt h, List.range_zero, List.map_nil]

theorem blocks_single (hb : 0 < b) {bytes : List α} (h : bytes.length = b) : blocks b bytes = [bytes] := by
  rw [blocks, h, Nat.div_self hb, List.range_one, List.map_singleton, Nat.mul_zero, List.drop_zero,
    List.take_of_length_le (Nat.le_of_eq h)]

variable {process : σ → List α → σ} {s : σ}

/-- Bytes can be absorbed in parts, where each but the last has whole blocks. -/
theorem absorb_append (hb : 0 < b) {first : List α} (h : b ∣ first.length) (rest : List α) :
    absorb b process s (first ++ rest) = absorb b process (absorb b process s first) rest := by
  rw [absorb, absorb, absorb, blocks_append hb h, List.foldl_append]

theorem absorb_short {bytes : List α} (h : bytes.length < b) : absorb b process s bytes = s := by
  rw [absorb, blocks_short h, List.foldl_nil]

theorem absorb_single (hb : 0 < b) {bytes : List α} (h : bytes.length = b) :
    absorb b process s bytes = process s bytes := by
  rw [absorb, blocks_single hb h, List.foldl_cons, List.foldl_nil]

/-- An incomplete block at the end is not absorbed. -/
theorem absorb_left (hb : 0 < b) {first rest : List α} (h : b ∣ first.length) (hrest : rest.length < b) :
    absorb b process s (first ++ rest) = absorb b process s first := by
  rw [absorb_append hb h, absorb_short hrest]

end Blocks

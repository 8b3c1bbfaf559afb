import Mathlib.Data.Nat.Log
import Mathlib.Data.List.Basic
import Mathlib.Algebra.Group.Nat.Defs

namespace Leb128

/-- Seven bits a byte, lowest first, all bytes but the last with the top bit set. -/
def encode (n : Nat) : List UInt8 :=
  if n < 128 then [UInt8.ofNat n] else UInt8.ofNat (n % 128 + 128) :: encode (n / 128)
termination_by n
decreasing_by omega

def isLast (b : UInt8) : Bool := b &&& 0x80 == 0

/-- The number of bytes up to and including the first that ends a number. -/
def firstLength (bytes : List UInt8) : Option Nat := (bytes.findIdx? isLast).map (· + 1)

def value : List UInt8 → Nat
  | [] => 0
  | b :: bytes => b.toNat % 128 + 128 * value bytes

theorem isLast_iff (b : UInt8) : isLast b = true ↔ b.toNat < 128 := by
  have h : ∀ i : Fin 256, (UInt8.ofNat i.val &&& 0x80 == 0) = decide (i.val < 128) := by
    decide +kernel
  have hb := h ⟨b.toNat, b.toNat_lt⟩
  simp only [UInt8.ofNat_toNat] at hb
  simp only [isLast, hb, decide_eq_true_eq]

theorem encode_length (n : Nat) : (encode n).length = Nat.log 128 n + 1 := by
  induction n using Nat.strongRecOn with
  | ind n ih =>
    rw [encode]
    split
    next h => simp [Nat.log_of_lt h]
    next h =>
      have hlog := Nat.log_of_one_lt_of_le (b := 128) (by omega) (Nat.le_of_not_lt h)
      rw [List.length_cons, ih (n / 128) (by omega), hlog]

theorem encode_length_pos (n : Nat) : 0 < (encode n).length := by
  rw [encode_length]; omega

theorem encode_length_mono {m n : Nat} (h : m ≤ n) : (encode m).length ≤ (encode n).length := by
  have hlog := Nat.log_mono_right (b := 128) h
  rw [encode_length, encode_length]
  omega

theorem encode_length_le {n k : Nat} (hk : 0 < k) (h : n < 128 ^ k) : (encode n).length ≤ k := by
  have hlog := Nat.log_lt_of_lt_pow' (b := 128) (by omega) h
  rw [encode_length]
  omega

theorem encode_length_le_succ (n : Nat) : (encode n).length ≤ n + 1 := by
  rw [encode_length]
  exact Nat.succ_le_succ (Nat.log_le_self 128 n)

/-- A group, put together with its top bit. -/
theorem group_toNat (n : Nat) : (n % 128 ||| (if 127 < n then 128 else 0)) % 256 =
    (if n < 128 then UInt8.ofNat n else UInt8.ofNat (n % 128 + 128)).toNat := by
  by_cases hn : n < 128
  · rw [if_pos hn, if_neg (by omega), Nat.or_zero, UInt8.toNat_ofNat']
    omega
  · have hbit : n % 128 ||| 128 = 2 ^ 7 * 1 + n % 128 :=
      (Nat.or_comm _ _).trans (Nat.two_pow_add_eq_or_of_lt (i := 7) (by omega) 1).symm
    rw [if_neg hn, if_pos (by omega), UInt8.toNat_ofNat', hbit]
    omega

/-- A loop that writes a group in each round, up to the last group or the last round. -/
theorem loop_encode {α : Type*} (loop : Nat → α → List UInt8) (toNat : α → Nat) (group : α → UInt8) (rest : α → α)
    (hgroup : ∀ v, group v = if toNat v < 128 then UInt8.ofNat (toNat v) else UInt8.ofNat (toNat v % 128 + 128))
    (hrest : ∀ v, toNat (rest v) = toNat v / 128) (hnone : ∀ v, loop 0 v = [])
    (hround : ∀ rounds v, loop (rounds + 1) v =
      if 0 < toNat (rest v) then group v :: loop rounds (rest v) else [group v]) (rounds : Nat) (v : α) :
    loop rounds v = (encode (toNat v)).take rounds := by
  induction rounds generalizing v with
  | zero => rw [hnone, List.take_zero]
  | succ rounds ih =>
    rw [hround, hgroup, ih, hrest]
    conv_rhs => rw [encode]
    by_cases hv : toNat v < 128
    · rw [if_pos hv, if_pos hv, if_neg (by omega), List.take_succ_cons, List.take_nil]
    · rw [if_neg hv, if_neg hv, if_pos (by omega), List.take_succ_cons]

theorem value_encode (n : Nat) : value (encode n) = n := by
  induction n using Nat.strongRecOn with
  | ind n ih =>
    rw [encode]
    split
    next h =>
      rw [value, value, UInt8.toNat_ofNat']
      omega
    next h =>
      rw [value, ih (n / 128) (by omega), UInt8.toNat_ofNat']
      omega

/-- Each group of a number that fits starts within the width. -/
theorem encode_shift {n s i width : Nat} (hs : s < width) (hn : n * 2 ^ s < 2 ^ width) (hi : i < (encode n).length) :
    s + 7 * i < width := by
  rcases Nat.eq_zero_or_pos i with rfl | hpos
  · exact hs
  · rw [encode_length] at hi
    have hn0 : n ≠ 0 := by
      rintro rfl
      rw [Nat.log_zero_right] at hi
      omega
    have hpow : 128 ^ i ≤ n := Nat.pow_le_of_le_log hn0 (by omega)
    have hbits : 2 ^ (s + 7 * i) ≤ n * 2 ^ s := by
      rw [Nat.pow_add, Nat.pow_mul, Nat.mul_comm]
      exact Nat.mul_le_mul_right _ hpow
    exact (Nat.pow_lt_pow_iff_right (by omega)).mp (Nat.lt_of_le_of_lt hbits hn)

theorem findIdx?_encode (n : Nat) (rest : List UInt8) :
    (encode n ++ rest).findIdx? isLast = some ((encode n).length - 1) := by
  induction n using Nat.strongRecOn with
  | ind n ih =>
    rw [encode]
    split
    next h =>
      have hlast : isLast (UInt8.ofNat n) = true := by
        rw [isLast_iff, UInt8.toNat_ofNat']; omega
      simp [List.findIdx?_cons, hlast]
    next h =>
      have hmore : isLast (UInt8.ofNat (n % 128 + 128)) = false := by
        rw [Bool.eq_false_iff, ne_eq, isLast_iff, UInt8.toNat_ofNat']; omega
      have hpos := encode_length_pos (n / 128)
      simp only [List.cons_append, List.findIdx?_cons, hmore, Bool.false_eq_true, if_false,
        ih (n / 128) (by omega), Option.map_some, List.length_cons]
      congr 1
      omega

theorem firstLength_encode (n : Nat) (rest : List UInt8) :
    firstLength (encode n ++ rest) = some (encode n).length := by
  have hpos := encode_length_pos n
  rw [firstLength, findIdx?_encode, Option.map_some]
  congr 1
  omega

/-- A number cut short is not yet a number. -/
theorem firstLength_take_encode {n k : Nat} (hk : k < (encode n).length) :
    firstLength ((encode n).take k) = none := by
  have hfind := findIdx?_encode n []
  rw [List.append_nil, List.findIdx?_eq_some_iff_getElem] at hfind
  obtain ⟨hlt, _, hbefore⟩ := hfind
  rw [firstLength, Option.map_eq_none_iff, List.findIdx?_eq_none_iff]
  intro b hb
  obtain ⟨i, hi, he⟩ := List.mem_iff_getElem.mp hb
  simp only [List.length_take] at hi
  rw [List.getElem_take] at he
  rw [← he, Bool.eq_false_iff, ne_eq]
  exact hbefore i (by omega)

theorem firstLength_cons (b : UInt8) (bytes : List UInt8) :
    firstLength (b :: bytes) = if isLast b then some 1 else (firstLength bytes).map (· + 1) := by
  rw [firstLength, List.findIdx?_cons]
  split
  next => rfl
  next => rw [firstLength, Option.map_map]

theorem firstLength_le {bytes : List UInt8} {k : Nat} (h : firstLength bytes = some k) :
    0 < k ∧ k ≤ bytes.length := by
  obtain ⟨i, hi, hk⟩ := Option.map_eq_some_iff.mp h
  obtain ⟨hlt, _⟩ := List.findIdx?_eq_some_iff_getElem.mp hi
  omega

theorem firstLength_extend {u : List UInt8} {k : Nat} (h : firstLength u = some k) (v : List UInt8) :
    firstLength (u ++ v) = some k := by
  unfold firstLength at h ⊢
  obtain ⟨i, hi, hk⟩ := Option.map_eq_some_iff.mp h
  rw [List.findIdx?_append, hi]
  exact congrArg some hk

theorem firstLength_restrict {u v : List UInt8} {k : Nat} (h : firstLength (u ++ v) = some k)
    (hk : k ≤ u.length) : firstLength u = some k := by
  unfold firstLength at h ⊢
  rw [List.findIdx?_append] at h
  rcases hu : u.findIdx? isLast with _ | i
  · rw [hu, Option.none_or] at h
    obtain ⟨j, hj, hkj⟩ := Option.map_eq_some_iff.mp h
    obtain ⟨i, _, hji⟩ := Option.map_eq_some_iff.mp hj
    omega
  · rw [hu] at h
    exact h

end Leb128

import Mathlib.Data.List.Basic
import Mathlib.Algebra.Group.Nat.Defs

namespace LittleEndian

/-- The number `n` in `width` bytes, lowest first. -/
def bytes : Nat → Nat → List UInt8
  | 0, _ => []
  | width + 1, n => UInt8.ofNat n :: bytes width (n / 256)

def value : List UInt8 → Nat
  | [] => 0
  | b :: bs => b.toNat + 256 * value bs

/-- The number whose bytes are those of `n` in the other order. -/
def reversed (width n : Nat) : Nat := value (bytes width n).reverse

@[simp] theorem bytes_length (width n : Nat) : (bytes width n).length = width := by
  induction width generalizing n with
  | zero => rfl
  | succ width ih => simp [bytes, ih]

theorem value_lt (bs : List UInt8) : value bs < 256 ^ bs.length := by
  induction bs with
  | nil => simp [value]
  | cons b bs ih =>
    have hb := b.toNat_lt
    rw [value, List.length_cons, Nat.pow_succ]
    omega

theorem bytes_value (bs : List UInt8) : bytes bs.length (value bs) = bs := by
  induction bs with
  | nil => rfl
  | cons b bs ih =>
    have hb := b.toNat_lt
    have hdiv : (b.toNat + 256 * value bs) / 256 = value bs := by omega
    have hlow : UInt8.ofNat (b.toNat + 256 * value bs) = b := by
      apply UInt8.toNat_inj.mp
      rw [UInt8.toNat_ofNat']
      omega
    simp only [value, List.length_cons, bytes, hdiv, hlow, ih]

theorem value_bytes {width n : Nat} (h : n < 256 ^ width) : value (bytes width n) = n := by
  induction width generalizing n with
  | zero =>
    have hn : n = 0 := by simpa using h
    simp [bytes, value, hn]
  | succ width ih =>
    have hdiv : n / 256 < 256 ^ width := by
      rw [Nat.pow_succ] at h
      omega
    rw [bytes, value, ih hdiv, UInt8.toNat_ofNat']
    omega

theorem value_append (as bs : List UInt8) : value (as ++ bs) = value as + 256 ^ as.length * value bs := by
  induction as with
  | nil => simp [value]
  | cons a as ih =>
    rw [List.cons_append, value, ih, value, List.length_cons, Nat.pow_succ', Nat.mul_add, Nat.mul_assoc]
    omega

theorem bytes_add (v w n : Nat) : bytes (v + w) n = bytes v n ++ bytes w (n / 256 ^ v) := by
  induction v generalizing n with
  | zero => simp [bytes]
  | succ v ih =>
    have hdiv : n / 256 / 256 ^ v = n / 256 ^ (v + 1) := by
      rw [Nat.div_div_eq_div_mul, Nat.pow_succ']
    rw [show v + 1 + w = v + w + 1 by omega, bytes, ih, hdiv, bytes, List.cons_append]

theorem bytes_mod (v n : Nat) : bytes v (n % 256 ^ v) = bytes v n := by
  induction v generalizing n with
  | zero => rfl
  | succ v ih =>
    have hmod : n % 256 ^ (v + 1) / 256 = n / 256 % 256 ^ v := by
      rw [Nat.pow_succ', Nat.mod_mul_right_div_self]
    have hlow : UInt8.ofNat (n % 256 ^ (v + 1)) = UInt8.ofNat n := by
      apply UInt8.toNat_inj.mp
      rw [UInt8.toNat_ofNat', UInt8.toNat_ofNat', Nat.pow_succ', Nat.mod_mul_right_mod]
    rw [bytes, hlow, hmod, ih, bytes]

theorem reversed_lt (width n : Nat) : reversed width n < 256 ^ width := by
  have h := value_lt (bytes width n).reverse
  simpa [reversed] using h

theorem bytes_reversed (width n : Nat) : bytes width (reversed width n) = (bytes width n).reverse := by
  have h := bytes_value (bytes width n).reverse
  simpa [reversed] using h

theorem reversed_reversed {width n : Nat} (h : n < 256 ^ width) : reversed width (reversed width n) = n := by
  rw [reversed, bytes_reversed, List.reverse_reverse, value_bytes h]

/-- The halves change places, and each is reversed. -/
theorem reversed_add (v w n : Nat) :
    reversed (v + w) n = reversed w (n / 256 ^ v) + 256 ^ w * reversed v (n % 256 ^ v) := by
  rw [reversed, bytes_add, List.reverse_append, value_append, List.length_reverse, bytes_length]
  simp only [reversed, bytes_mod]

end LittleEndian

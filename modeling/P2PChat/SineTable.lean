import Mathlib.Analysis.Complex.Trigonometric
import Mathlib.Tactic.NormNum.BigOperators

namespace SineTable

section Series

/-- The first terms of the series of the sine of 1. -/
noncomputable def sinSum (n : Nat) : ℝ := ∑ j ∈ Finset.range n, (-1) ^ j / ((2 * j + 1).factorial : ℝ)

noncomputable def cosSum (n : Nat) : ℝ := ∑ j ∈ Finset.range n, (-1) ^ j / ((2 * j).factorial : ℝ)

theorem exp_I_sum (n : Nat) : ∑ m ∈ Finset.range (2 * n), Complex.I ^ m / (m.factorial : ℂ) =
    cosSum n + sinSum n * Complex.I := by
  induction n with
  | zero => simp [cosSum, sinSum]
  | succ n ih =>
    have heven : Complex.I ^ (2 * n) = (-1) ^ n := by rw [pow_mul, Complex.I_sq]
    rw [Nat.mul_succ, Finset.sum_range_succ, Finset.sum_range_succ, ih, cosSum, cosSum, sinSum, sinSum,
      Finset.sum_range_succ, Finset.sum_range_succ, pow_succ, heven]
    push_cast
    ring

theorem exp_I_bound {n : Nat} (hn : 0 < n) :
    ‖Complex.exp (1 * Complex.I) - (cosSum n + sinSum n * Complex.I)‖ ≤
      (2 * n + 1) * ((2 * n).factorial * (2 * n) : ℝ)⁻¹ := by
  have hbound := Complex.exp_bound (x := Complex.I) (by rw [Complex.norm_I]) (Nat.mul_pos Nat.two_pos hn)
  rw [exp_I_sum, Complex.norm_I, one_pow, one_mul] at hbound
  rw [one_mul]
  convert! hbound using 3 <;> push_cast <;> ring

theorem sin_one_near {n : Nat} (hn : 0 < n) :
    |Real.sin 1 - sinSum n| ≤ (2 * n + 1) * ((2 * n).factorial * (2 * n) : ℝ)⁻¹ := by
  refine le_trans ?_ (exp_I_bound hn)
  refine le_trans (le_of_eq ?_) (Complex.abs_im_le_norm _)
  rw [Complex.sub_im, show (1 : ℂ) = ((1 : ℝ) : ℂ) by simp, Complex.exp_ofReal_mul_I_im]
  simp

theorem cos_one_near {n : Nat} (hn : 0 < n) :
    |Real.cos 1 - cosSum n| ≤ (2 * n + 1) * ((2 * n).factorial * (2 * n) : ℝ)⁻¹ := by
  refine le_trans ?_ (exp_I_bound hn)
  refine le_trans (le_of_eq ?_) (Complex.abs_re_le_norm _)
  rw [Complex.sub_re, show (1 : ℂ) = ((1 : ℝ) : ℂ) by simp, Complex.exp_ofReal_mul_I_re]
  simp

end Series

section Rotation

/-- The sine of 1, times 2^128. -/
def sinOne : Int := 286337738405724074564845076175058320435

def cosOne : Int := 183855347493651442427684920285310598442

theorem sinSum_near : |2 ^ 128 * sinSum 18 - sinOne| ≤ 1 / 2 := by
  rw [sinSum, sinOne, abs_le]
  constructor <;> norm_num [Finset.sum_range_succ, Nat.factorial]

theorem cosSum_near : |2 ^ 128 * cosSum 18 - cosOne| ≤ 1 / 2 := by
  rw [cosSum, cosOne, abs_le]
  constructor <;> norm_num [Finset.sum_range_succ, Nat.factorial]

/-- A bound for a sum that is close enough is one for its limit. -/
theorem scaled_near {x sum : ℝ} {X : Int} (hsum : |2 ^ 128 * sum - X| ≤ 1 / 2)
    (hx : |x - sum| ≤ (2 * 18 + 1) * ((2 * 18).factorial * (2 * 18) : ℝ)⁻¹) : |2 ^ 128 * x - X| ≤ 1 := by
  have hsmall : ((2 * 18 + 1) * ((2 * 18).factorial * (2 * 18) : ℝ)⁻¹ : ℝ) ≤ 1 / 2 / 2 ^ 128 := by
    norm_num [Nat.factorial]
  have hscaled : |2 ^ 128 * (x - sum)| ≤ 1 / 2 := by
    rw [abs_mul, abs_of_pos (by positivity : (0 : ℝ) < 2 ^ 128), ← le_div_iff₀' (by positivity)]
    exact hx.trans hsmall
  calc |2 ^ 128 * x - X| = |2 ^ 128 * (x - sum) + (2 ^ 128 * sum - X)| := by ring_nf
    _ ≤ |2 ^ 128 * (x - sum)| + |2 ^ 128 * sum - X| := abs_add_le _ _
    _ ≤ 1 / 2 + 1 / 2 := add_le_add hscaled hsum
    _ = 1 := by norm_num

theorem sinOne_near : |2 ^ 128 * Real.sin 1 - sinOne| ≤ 1 :=
  scaled_near sinSum_near (sin_one_near (n := 18) (by decide))

theorem cosOne_near : |2 ^ 128 * Real.cos 1 - cosOne| ≤ 1 :=
  scaled_near cosSum_near (cos_one_near (n := 18) (by decide))

/-- The sine and the cosine of a natural number, times 2^128, by the addition theorems. -/
def rotated : Nat → Int × Int
  | 0 => (0, 2 ^ 128)
  | k + 1 =>
    let (s, c) := rotated k
    ((s * cosOne + c * sinOne) / 2 ^ 128, (c * cosOne + -s * sinOne) / 2 ^ 128)

/-- How far the numbers may be off. -/
def slack : Nat → Nat
  | 0 => 0
  | k + 1 => 2 * slack k + 4

/-- The division rounds down. -/
theorem floor_near (N : Int) : |(N : ℝ) / 2 ^ 128 - (N / 2 ^ 128 : Int)| ≤ 1 := by
  have hdiv := Int.emod_add_mul_ediv N (2 ^ 128)
  have hlow := Int.emod_nonneg N (by norm_num : (2 ^ 128 : Int) ≠ 0)
  have hhigh := Int.emod_lt_of_pos N (by norm_num : (0 : Int) < 2 ^ 128)
  have hreal : (N : ℝ) = (N % 2 ^ 128 : Int) + 2 ^ 128 * (N / 2 ^ 128 : Int) := by
    exact_mod_cast hdiv.symm
  have hlow' : (0 : ℝ) ≤ (N % 2 ^ 128 : Int) := by exact_mod_cast hlow
  have hhigh' : ((N % 2 ^ 128 : Int) : ℝ) ≤ 2 ^ 128 := by exact_mod_cast hhigh.le
  rw [hreal, add_div, mul_div_cancel_left₀ _ (by norm_num), add_sub_cancel_right,
    abs_of_nonneg (by positivity), div_le_one (by positivity)]
  exact hhigh'

theorem product_near {a b : ℝ} {A B : Int} {e : ℝ} (ha : |2 ^ 128 * a - A| ≤ e) (hb : |2 ^ 128 * b - B| ≤ 1)
    (ha1 : |a| ≤ 1) (hB : |(B : ℝ)| ≤ 2 ^ 128) : |2 ^ 128 * (a * b) - (A * B : ℝ) / 2 ^ 128| ≤ e + 1 := by
  have hsplit : 2 ^ 128 * (a * b) - (A * B : ℝ) / 2 ^ 128 =
      (2 ^ 128 * a - A) * (B / 2 ^ 128) + a * (2 ^ 128 * b - B) := by
    field_simp
    ring
  have hB1 : |(B : ℝ) / 2 ^ 128| ≤ 1 := by
    rw [abs_div, abs_of_pos (by positivity : (0 : ℝ) < 2 ^ 128), div_le_one (by positivity)]
    exact hB
  rw [hsplit]
  refine (abs_add_le _ _).trans (add_le_add ?_ ?_)
  · rw [abs_mul]
    exact (mul_le_of_le_one_right (abs_nonneg _) hB1).trans ha
  · rw [abs_mul]
    exact mul_le_one₀ ha1 (abs_nonneg _) hb

theorem turned_near {x y z w : ℝ} {X Y Z W : Int} {e : ℝ} (hx : |2 ^ 128 * x - X| ≤ e) (hz : |2 ^ 128 * z - Z| ≤ e)
    (hy : |2 ^ 128 * y - Y| ≤ 1) (hw : |2 ^ 128 * w - W| ≤ 1) (hx1 : |x| ≤ 1) (hz1 : |z| ≤ 1)
    (hY : |(Y : ℝ)| ≤ 2 ^ 128) (hW : |(W : ℝ)| ≤ 2 ^ 128) :
    |2 ^ 128 * (x * y + z * w) - ((X * Y + Z * W) / 2 ^ 128 : Int)| ≤ 2 * e + 4 := by
  have hround := floor_near (X * Y + Z * W)
  have hfirst := product_near hx hy hx1 hY
  have hsecond := product_near hz hw hz1 hW
  calc |2 ^ 128 * (x * y + z * w) - ((X * Y + Z * W) / 2 ^ 128 : Int)|
      = |(2 ^ 128 * (x * y) - (X * Y : ℝ) / 2 ^ 128) + (2 ^ 128 * (z * w) - (Z * W : ℝ) / 2 ^ 128) +
          (((X * Y + Z * W : Int) : ℝ) / 2 ^ 128 - ((X * Y + Z * W) / 2 ^ 128 : Int))| := by
        congr 1
        push_cast
        ring
    _ ≤ (e + 1) + (e + 1) + 1 :=
        (abs_add_le _ _).trans (add_le_add ((abs_add_le _ _).trans (add_le_add hfirst hsecond)) hround)
    _ ≤ 2 * e + 4 := by linarith

theorem rotated_near (k : Nat) : |2 ^ 128 * Real.sin k - (rotated k).1| ≤ (slack k : ℝ) ∧
    |2 ^ 128 * Real.cos k - (rotated k).2| ≤ (slack k : ℝ) := by
  induction k with
  | zero =>
    rw [rotated, slack]
    norm_num
  | succ k ih =>
    obtain ⟨hsin, hcos⟩ := ih
    have hsinle : |(sinOne : ℝ)| ≤ 2 ^ 128 := by norm_num [sinOne, abs_le]
    have hcosle : |(cosOne : ℝ)| ≤ 2 ^ 128 := by norm_num [cosOne, abs_le]
    have hneg : |2 ^ 128 * -Real.sin k - (-(rotated k).1 : Int)| ≤ (slack k : ℝ) := by
      rw [← abs_neg]
      convert! hsin using 2
      push_cast
      ring
    constructor
    · have hnext := turned_near hsin hcos cosOne_near sinOne_near (Real.abs_sin_le_one k) (Real.abs_cos_le_one k) hcosle
        hsinle
      rw [Nat.cast_succ, Real.sin_add]
      convert! hnext using 1
      push_cast [slack]
      ring
    · have hnext := turned_near hcos hneg cosOne_near sinOne_near (Real.abs_cos_le_one k)
        (by rw [abs_neg]; exact Real.abs_sin_le_one k) hcosle hsinle
      have hcosine : Real.cos (k + 1) = Real.cos k * Real.cos 1 + -Real.sin k * Real.sin 1 := by
        rw [Real.cos_add]
        ring
      rw [Nat.cast_succ, hcosine]
      convert! hnext using 1
      push_cast [slack]
      ring

/-- Which number is the integer part, where the rotated sine is far enough from the next ones. -/
theorem floor_sin {k t : Nat} (hlow : t * 2 ^ 96 + slack k ≤ (rotated k).1.natAbs)
    (hhigh : (rotated k).1.natAbs + slack k < (t + 1) * 2 ^ 96) : ⌊2 ^ 32 * |Real.sin k|⌋₊ = t := by
  have hnear := (abs_abs_sub_abs_le_abs_sub _ _).trans (rotated_near k).1
  rw [abs_mul, abs_of_pos (by positivity : (0 : ℝ) < 2 ^ 128), ← Int.cast_abs, Int.abs_eq_natAbs, Int.cast_natCast,
    abs_le] at hnear
  have hlow' : (t * 2 ^ 96 + slack k : ℝ) ≤ (rotated k).1.natAbs := by exact_mod_cast hlow
  have hhigh' : ((rotated k).1.natAbs + slack k : ℝ) < (t + 1) * 2 ^ 96 := by exact_mod_cast hhigh
  have hscale : (2 : ℝ) ^ 128 * |Real.sin k| = 2 ^ 96 * (2 ^ 32 * |Real.sin k|) := by ring
  rw [hscale] at hnear
  rw [Nat.floor_eq_iff (by positivity)]
  constructor <;> linarith

end Rotation

end SineTable

import Mathlib.Algebra.BigOperators.Group.Finset.Basic
import Mathlib.Algebra.BigOperators.Group.Finset.Piecewise
import Mathlib.Algebra.Order.BigOperators.Group.Finset
import Mathlib.Data.Fintype.Basic

/-! How many of finitely many indices have a value with some property, when one value changes. -/

namespace Tally

variable {ι α : Type} [Fintype ι]

def count (P : α → Bool) (f : ι → α) : Nat := Finset.univ.sum fun i => (P (f i)).toNat

variable {P : α → Bool} {f : ι → α}

theorem count_update [DecidableEq ι] (P : α → Bool) (f : ι → α) (i : ι) (a : α) :
    count P (Function.update f i a) + (P (f i)).toNat = count P f + (P a).toNat := by
  have hcomp : (fun j => (P (Function.update f i a j)).toNat) =
      Function.update (fun j => (P (f j)).toNat) i (P a).toNat := by
    funext j
    exact Function.apply_update (fun _ b => (P b).toNat) f i a j
  have hnew := Finset.sum_update_of_mem (Finset.mem_univ i) (fun j => (P (f j)).toNat) (P a).toNat
  have hold := Finset.sum_update_of_mem (Finset.mem_univ i) (fun j => (P (f j)).toNat) (P (f i)).toNat
  rw [Function.update_eq_self] at hold
  unfold count
  rw [hcomp, hnew, hold]
  omega

theorem count_eq_zero (h : ∀ i, P (f i) = false) : count P f = 0 :=
  Finset.sum_eq_zero fun i _ => by rw [h i]; rfl

theorem count_pos {i : ι} (h : P (f i) = true) : 0 < count P f := by
  have hle : (P (f i)).toNat ≤ count P f :=
    Finset.single_le_sum (f := fun j => (P (f j)).toNat) (fun _ _ => Nat.zero_le _) (Finset.mem_univ i)
  rw [h] at hle
  exact hle

end Tally

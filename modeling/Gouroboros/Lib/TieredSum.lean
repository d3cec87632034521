import Mathlib.Algebra.BigOperators.Ring.Finset
import Mathlib.Algebra.Order.BigOperators.Group.Finset
import Mathlib.Algebra.Order.Ring.Basic
import Mathlib.Tactic.Ring

/-!
# Prices by tiers

Units are sold in tiers of `stride` units, and the price of a unit is multiplied by `m` from one
tier to the next. `tiered stride m n` is what `n` units cost at a first price of one, unit by unit.
More units cost more, and where prices do not fall, buying in two lots is not dearer.
-/

namespace TieredSum

open Finset

section Sums
variable {R : Type} [CommSemiring R] {stride : Nat} {m : R} {n : Nat}

def tiered (stride : Nat) (m : R) (n : Nat) : R := ∑ i ∈ range n, m ^ (i / stride)

theorem tiered_of_le (h : n ≤ stride) : tiered stride m n = n := by
  have hone : ∀ i ∈ range n, m ^ (i / stride) = 1 := by
    intro i hi
    rw [Nat.div_eq_of_lt ((mem_range.mp hi).trans_le h), pow_zero]
  rw [tiered, sum_congr rfl hone]
  simp

theorem tiered_stride_add (hstride : 0 < stride) (n : Nat) :
    tiered stride m (stride + n) = stride + m * tiered stride m n := by
  have hfirst : tiered stride m stride = stride := tiered_of_le le_rfl
  rw [tiered, sum_range_add, ← tiered, hfirst, tiered, mul_sum]
  congr 1
  apply sum_congr rfl
  intro i _
  rw [Nat.add_div_left i hstride, pow_succ']

theorem tiered_eq (n : Nat) :
    tiered stride m n =
      stride * ∑ k ∈ range (n / stride), m ^ k + (n % stride : Nat) * m ^ (n / stride) := by
  rcases Nat.eq_zero_or_pos stride with rfl | hstride
  · simp [tiered]
  induction n using Nat.strong_induction_on with
  | _ n ih =>
    by_cases hsmall : n < stride
    · rw [tiered_of_le hsmall.le, Nat.div_eq_of_lt hsmall, Nat.mod_eq_of_lt hsmall]
      simp
    · obtain ⟨rest, rfl⟩ := Nat.exists_eq_add_of_le (Nat.le_of_not_lt hsmall)
      rw [tiered_stride_add hstride, ih rest (by omega), Nat.add_div_left rest hstride,
        Nat.add_mod_left, sum_range_succ']
      simp only [pow_succ, ← sum_mul]
      ring

end Sums

section Order
variable {R : Type} [CommSemiring R] [PartialOrder R] [IsOrderedRing R] {stride : Nat} {m : R}

theorem tiered_nonneg (hm : 0 ≤ m) (n : Nat) : 0 ≤ tiered stride m n :=
  sum_nonneg fun _ _ => pow_nonneg hm _

theorem tiered_mono (hm : 0 ≤ m) {a b : Nat} (h : a ≤ b) : tiered stride m a ≤ tiered stride m b :=
  sum_le_sum_of_subset_of_nonneg (range_mono h) fun _ _ _ => pow_nonneg hm _

theorem tiered_add_le (hm : 1 ≤ m) (a b : Nat) :
    tiered stride m a + tiered stride m b ≤ tiered stride m (a + b) := by
  unfold tiered
  rw [sum_range_add]
  gcongr with i _
  exact Nat.le_add_left i a

end Order

end TieredSum

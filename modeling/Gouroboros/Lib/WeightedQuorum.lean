import Mathlib.Algebra.Order.BigOperators.Group.Finset
import Mathlib.Algebra.Order.Ring.Nat

/-!
# Weighted quorums

Two sets of weighted voters have at least as much weight in common as their
weights together exceed the weight of all voters.
-/

namespace WeightedQuorum

open Finset

variable {ι : Type*} [DecidableEq ι]

theorem weight_add_le (weight : ι → ℕ) {all A B : Finset ι} (hA : A ⊆ all) (hB : B ⊆ all) :
    ∑ i ∈ A, weight i + ∑ i ∈ B, weight i ≤ ∑ i ∈ all, weight i + ∑ i ∈ A ∩ B, weight i := by
  rw [← Finset.sum_union_inter]
  exact Nat.add_le_add_right (sum_le_sum_of_subset (union_subset hA hB)) _

end WeightedQuorum

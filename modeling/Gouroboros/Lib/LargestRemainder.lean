import Mathlib.Algebra.Order.BigOperators.Group.List
import Mathlib.Data.Rat.Floor

/-!
# Largest-remainder rounding

Exact rational amounts that sum to a whole `total` are rounded down, and the
units left over are handed out one each, in the order of descending fractional
part. The units left over are the sum of the fractional parts
(`unitsLeft_eq_sum_fract`), so there are at most as many as recipients.
-/

namespace LargestRemainder

variable {K : Type} {exact : K → ℚ} {ids order : List K} {total : ℤ}

/-- The units that rounding down leaves over. -/
def unitsLeft (exact : K → ℚ) (ids : List K) (total : ℤ) : ℤ :=
  total - (ids.map fun k => ⌊exact k⌋).sum

theorem sum_floor_add_sum_fract (exact : K → ℚ) (ids : List K) :
    (((ids.map fun k => ⌊exact k⌋).sum : ℤ) : ℚ) + (ids.map fun k => Int.fract (exact k)).sum =
      (ids.map exact).sum := by
  induction ids with
  | nil => simp
  | cons k ids ih =>
    simp only [List.map_cons, List.sum_cons, Int.cast_add]
    have hk := Int.floor_add_fract (exact k)
    linarith

section

variable (hsum : (ids.map exact).sum = total)
include hsum

theorem unitsLeft_eq_sum_fract :
    (unitsLeft exact ids total : ℚ) = (ids.map fun k => Int.fract (exact k)).sum := by
  have h := sum_floor_add_sum_fract exact ids
  rw [unitsLeft, Int.cast_sub]
  linarith

theorem unitsLeft_nonneg : 0 ≤ unitsLeft exact ids total := by
  have h : (0 : ℚ) ≤ unitsLeft exact ids total := by
    rw [unitsLeft_eq_sum_fract hsum]
    apply List.sum_nonneg
    intro r hr
    obtain ⟨k, _, rfl⟩ := List.mem_map.mp hr
    exact Int.fract_nonneg _
  exact_mod_cast h

theorem unitsLeft_le_length : unitsLeft exact ids total ≤ ids.length := by
  have h : (unitsLeft exact ids total : ℚ) ≤ ids.length := by
    rw [unitsLeft_eq_sum_fract hsum]
    have hle := List.sum_le_card_nsmul (ids.map fun k => Int.fract (exact k)) 1 (by
      intro r hr
      obtain ⟨k, _, rfl⟩ := List.mem_map.mp hr
      exact (Int.fract_lt_one _).le)
    simpa using hle
  exact_mod_cast h

end

theorem floor_le_remaining (hnonneg : ∀ k ∈ ids, 0 ≤ exact k) (hsum : (ids.map exact).sum = total)
    {pre post : List K} {k : K} (hids : ids = pre ++ k :: post) :
    ⌊exact k⌋ ≤ total - (pre.map fun k => ⌊exact k⌋).sum := by
  have hleft := unitsLeft_nonneg hsum
  have hpost : 0 ≤ (post.map fun k => ⌊exact k⌋).sum := by
    apply List.sum_nonneg
    intro n hn
    obtain ⟨x, hx, rfl⟩ := List.mem_map.mp hn
    exact Int.floor_nonneg.mpr (hnonneg x (by simp [hids, hx]))
  rw [unitsLeft, hids, List.map_append, List.sum_append, List.map_cons, List.sum_cons] at hleft
  linarith

/-- In an order of descending fractional parts, whoever has a larger part than
one of the first `n` is among the first `n`. -/
theorem mem_take_of_fract_lt
    (hdesc : order.Pairwise fun a b => Int.fract (exact b) ≤ Int.fract (exact a)) {n : ℕ} {a b : K}
    (ha : a ∈ order) (hb : b ∈ order.take n) (hlt : Int.fract (exact b) < Int.fract (exact a)) :
    a ∈ order.take n := by
  rw [← List.take_append_drop n order] at ha hdesc
  rcases List.mem_append.mp ha with ha | ha
  · exact ha
  · obtain ⟨_, _, hcross⟩ := List.pairwise_append.mp hdesc
    exact absurd (hcross b hb a ha) (not_le.mpr hlt)

section Rounded

variable [DecidableEq K]

/-- An amount rounded down, with one more unit for those in `extra`. -/
def rounded (exact : K → ℚ) (extra : List K) (k : K) : ℤ := ⌊exact k⌋ + if k ∈ extra then 1 else 0

section

variable {extra : List K} (hids : ids.Nodup) (hextra : extra.Nodup) (hsub : ∀ k ∈ extra, k ∈ ids)
include hids hextra hsub

theorem sum_map_ite_mem {M : Type} [AddCommMonoid M] (c : M) :
    (ids.map fun k => if k ∈ extra then c else 0).sum = extra.length • c := by
  have hcount : ∀ l : List K, (l.map fun k => if k ∈ extra then c else 0).sum =
      (l.filter (· ∈ extra)).length • c := by
    intro l
    induction l with
    | nil => simp
    | cons k l ih =>
      rw [List.map_cons, List.sum_cons, ih]
      by_cases hk : k ∈ extra
      · simp [hk, succ_nsmul']
      · simp [hk]
  have hperm : (ids.filter (· ∈ extra)).Perm extra := by
    rw [List.perm_ext_iff_of_nodup (hids.filter _) hextra]
    intro k
    simp only [List.mem_filter, decide_eq_true_eq]
    exact ⟨And.right, fun hk => ⟨hsub k hk, hk⟩⟩
  rw [hcount, hperm.length_eq]

theorem sum_rounded_eq :
    (ids.map (rounded exact extra)).sum = (ids.map fun k => ⌊exact k⌋).sum + extra.length := by
  have hsplit : (ids.map (rounded exact extra)).sum = (ids.map fun k => ⌊exact k⌋).sum +
      (ids.map fun k => if k ∈ extra then (1 : ℤ) else 0).sum := by
    rw [← List.sum_map_add]
    rfl
  rw [hsplit, sum_map_ite_mem hids hextra hsub, nsmul_one]

end

theorem sum_rounded (hids : ids.Nodup) (horder : order.Perm ids)
    (hsum : (ids.map exact).sum = total) :
    (ids.map (rounded exact (order.take (unitsLeft exact ids total).toNat))).sum = total := by
  have hnodup : order.Nodup := horder.nodup_iff.mpr hids
  rw [sum_rounded_eq hids (hnodup.sublist (List.take_sublist _ _))
    (fun k hk => horder.mem_iff.mp (List.mem_of_mem_take hk)), List.length_take, horder.length_eq]
  have hnonneg := unitsLeft_nonneg hsum
  have hle := unitsLeft_le_length hsum
  rw [Nat.min_eq_left (by omega), Int.toNat_of_nonneg hnonneg, unitsLeft]
  omega

end Rounded

end LargestRemainder

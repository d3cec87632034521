import Mathlib.Algebra.BigOperators.Intervals
import Mathlib.Tactic.Positivity
import Mathlib.Tactic.Ring
import Mathlib.Tactic.Linarith
import Gouroboros.Consensus.E34

/-!
# The comparison with the exponential is monotone

`e34Compare q x` compares `q` with the Taylor series of the exponential at `x`, whose terms are
rounded down one after the other, and stops as soon as the rest of the series cannot change the
answer. With a larger `x` every term and every partial sum is larger, but the loop may stop in
another round. What carries the argument over is that a partial sum never falls, and that for `x`
up to 50 the terms have vanished before the rounds are used up.
-/

namespace Gouroboros.Consensus

theorem e34Scale_pos : 0 < e34Scale := by decide

theorem e34FloorQuotient_of_pos {numerator denominator : Int} (h : 0 < denominator) :
    e34FloorQuotient numerator denominator = .ok (numerator / denominator) := by
  have hne : ¬ denominator = 0 := by omega
  have hnonneg : ¬ denominator < 0 := by omega
  simp only [e34FloorQuotient, if_neg hne, if_neg hnonneg]
  split
  next hn => rw [Int.tdiv_eq_ediv_of_nonneg hn]
  next hn =>
    -- truncation is one too high, unless the division is exact
    have hsum := Int.mul_tdiv_add_tmod numerator denominator
    have hlow : -denominator < numerator.tmod denominator := Int.lt_tmod_of_pos numerator h
    split
    next hneg =>
      have hq := (@Int.ediv_emod_unique numerator denominator (numerator.tmod denominator + denominator)
        (numerator.tdiv denominator - 1) h).mpr ⟨by linarith, by omega, by omega⟩
      rw [hq.1]
    next hexact =>
      have hhigh : 0 ≤ -numerator.tmod denominator := by
        rw [← Int.neg_tmod]
        exact Int.tmod_nonneg denominator (by omega)
      have hq := (@Int.ediv_emod_unique numerator denominator 0 (numerator.tdiv denominator) h).mpr
        ⟨by linarith, by omega, by omega⟩
      rw [hq.1]

theorem e34Mul_eq (a b : Int) : e34Mul a b = a * b / e34Scale := by
  rw [e34Mul, e34FloorQuotient_of_pos e34Scale_pos]

theorem e34Div_of_pos {a b : Int} (h : 0 < b) : e34Div a b = .ok (a * e34Scale / b) :=
  e34FloorQuotient_of_pos h

/-! ## Terms and partial sums -/

def taylorTerm (x : Int) : Nat → Int
  | 0 => x
  | n + 1 => taylorTerm x n * x / e34Scale * e34Scale / ((n + 2 : Nat) * e34Scale)

def taylorSum (x : Int) : Nat → Int
  | 0 => e34Scale
  | n + 1 => taylorSum x n + taylorTerm x n

def ExceedsSeries (q x : Int) (n : Nat) : Prop := taylorSum x n + |taylorTerm x n * 3| ≤ q

def BelowSeries (q x : Int) (n : Nat) : Prop := q < taylorSum x n - |taylorTerm x n * 3|

instance (q x : Int) (n : Nat) : Decidable (ExceedsSeries q x n) :=
  inferInstanceAs (Decidable (_ ≤ _))

instance (q x : Int) (n : Nat) : Decidable (BelowSeries q x n) := inferInstanceAs (Decidable (_ < _))

theorem e34CompareLoop_succ (q x : Int) (rounds n : Nat) :
    e34CompareLoop q x (rounds + 1) (n + 1) (taylorSum x n) (taylorTerm x n)
        ((n + 1 : Nat) * e34Scale) =
      if ExceedsSeries q x (n + 1) then .ok (.above, taylorSum x (n + 1), n + 1)
      else if BelowSeries q x (n + 1) then .ok (.below, taylorSum x (n + 1), n + 1)
      else e34CompareLoop q x rounds (n + 2) (taylorSum x (n + 1)) (taylorTerm x (n + 1))
        ((n + 2 : Nat) * e34Scale) := by
  have hdivisor : ((n + 1 : Nat) : Int) * e34Scale + e34Scale = (n + 2 : Nat) * e34Scale := by
    push_cast
    ring
  have hpos : 0 < ((n + 2 : Nat) : Int) * e34Scale :=
    mul_pos (Int.natCast_pos.mpr (Nat.succ_pos _)) e34Scale_pos
  rw [e34CompareLoop]
  simp only [hdivisor, e34FloorQuotient_of_pos e34Scale_pos, e34FloorQuotient_of_pos hpos]
  rfl

theorem e34CompareLoop_decided {q x : Int} {rounds n : Nat}
    (h : ∃ k, n < k ∧ k ≤ n + rounds ∧ (ExceedsSeries q x k ∨ BelowSeries q x k)) :
    ∃ comparison k, n < k ∧ k ≤ n + rounds ∧
      e34CompareLoop q x rounds (n + 1) (taylorSum x n) (taylorTerm x n)
        ((n + 1 : Nat) * e34Scale) = .ok (comparison, taylorSum x k, k) ∧
      (comparison = .above ∧ ExceedsSeries q x k ∨ comparison = .below ∧ BelowSeries q x k) ∧
      ∀ j, n < j → j < k → ¬ ExceedsSeries q x j := by
  induction rounds generalizing n with
  | zero =>
    rcases h with ⟨k, hlt, hle, -⟩
    omega
  | succ rounds ih =>
    rw [e34CompareLoop_succ]
    by_cases habove : ExceedsSeries q x (n + 1)
    · rw [if_pos habove]
      exact ⟨_, n + 1, by omega, by omega, rfl, .inl ⟨rfl, habove⟩, by omega⟩
    rw [if_neg habove]
    by_cases hbelow : BelowSeries q x (n + 1)
    · rw [if_pos hbelow]
      exact ⟨_, n + 1, by omega, by omega, rfl, .inr ⟨rfl, hbelow⟩, by omega⟩
    rw [if_neg hbelow]
    -- this round does not decide, so the one that can comes later
    rcases h with ⟨k, hlt, hle, hk⟩
    have hne : k ≠ n + 1 := by
      rintro rfl
      exact hk.elim habove hbelow
    rcases @ih (n + 1) ⟨k, by omega, by omega, hk⟩ with
      ⟨comparison, i, hi, hi', hloop, hdecides, hnone⟩
    refine ⟨comparison, i, by omega, by omega, hloop, hdecides, ?_⟩
    intro j hj hji
    rcases Nat.lt_or_ge (n + 1) j with hafter | hhere
    · exact hnone j hafter hji
    · have hj : j = n + 1 := by omega
      rwa [hj]

/-! ## Larger arguments -/

variable {x : Int}

theorem taylorTerm_nonneg (hx : 0 ≤ x) (n : Nat) : 0 ≤ taylorTerm x n := by
  have hscale : 0 ≤ e34Scale := e34Scale_pos.le
  induction n with
  | zero => exact hx
  | succ n ih =>
    apply Int.ediv_nonneg
    · exact mul_nonneg (Int.ediv_nonneg (mul_nonneg ih hx) hscale) hscale
    · exact mul_nonneg (Int.natCast_nonneg _) hscale

theorem taylorTerm_mono {x₁ x₂ : Int} (hx : 0 ≤ x₁) (hle : x₁ ≤ x₂) (n : Nat) :
    taylorTerm x₁ n ≤ taylorTerm x₂ n := by
  have hscale : 0 ≤ e34Scale := e34Scale_pos.le
  induction n with
  | zero => exact hle
  | succ n ih =>
    have hprod : taylorTerm x₁ n * x₁ ≤ taylorTerm x₂ n * x₂ :=
      mul_le_mul ih hle hx ((taylorTerm_nonneg hx n).trans ih)
    apply Int.ediv_le_ediv
    · exact mul_pos (Int.natCast_pos.mpr (Nat.succ_pos _)) e34Scale_pos
    · exact mul_le_mul_of_nonneg_right (Int.ediv_le_ediv e34Scale_pos hprod) hscale

theorem taylorSum_mono {x₁ x₂ : Int} (hx : 0 ≤ x₁) (hle : x₁ ≤ x₂) (n : Nat) :
    taylorSum x₁ n ≤ taylorSum x₂ n := by
  induction n with
  | zero => exact le_refl _
  | succ n ih => exact add_le_add ih (taylorTerm_mono hx hle n)

theorem taylorSum_le_of_le (hx : 0 ≤ x) {m n : Nat} (hmn : m ≤ n) :
    taylorSum x m ≤ taylorSum x n := by
  induction hmn with
  | refl => exact le_refl _
  | step _ ih => exact ih.trans (le_add_of_nonneg_right (taylorTerm_nonneg hx _))

theorem taylorTerm_eq_zero_of_le {m n : Nat} (hm : taylorTerm x m = 0) (hmn : m ≤ n) :
    taylorTerm x n = 0 := by
  induction hmn with
  | refl => exact hm
  | step _ ih =>
    rw [taylorTerm, ih]
    simp

theorem taylorTerm_last (hx : 0 ≤ x) (hle : x ≤ 50 * e34Scale) : taylorTerm x 1000 = 0 := by
  have hvanish : taylorTerm (50 * e34Scale) 200 = 0 := by decide +kernel
  have hzero : taylorTerm (50 * e34Scale) 1000 = 0 := taylorTerm_eq_zero_of_le hvanish (by decide)
  exact le_antisymm ((taylorTerm_mono hx hle 1000).trans_eq hzero) (taylorTerm_nonneg hx 1000)

theorem e34Compare_decided {q x : Int} (hx : 0 ≤ x) (hle : x ≤ 50 * e34Scale) :
    ∃ comparison k, 0 < k ∧ k ≤ 1000 ∧ e34Compare q x = .ok (comparison, taylorSum x k, k) ∧
      (comparison = .above ∧ ExceedsSeries q x k ∨ comparison = .below ∧ BelowSeries q x k) ∧
      ∀ j, 0 < j → j < k → ¬ ExceedsSeries q x j := by
  have hlast : ExceedsSeries q x 1000 ∨ BelowSeries q x 1000 := by
    show taylorSum x 1000 + |taylorTerm x 1000 * 3| ≤ q ∨
      q < taylorSum x 1000 - |taylorTerm x 1000 * 3|
    rw [taylorTerm_last hx hle]
    simpa using le_or_gt _ q
  rcases @e34CompareLoop_decided q x 1000 0 ⟨1000, by decide, by decide, hlast⟩ with
    ⟨comparison, k, hpos, hk, hloop, hdecides, hnone⟩
  exact ⟨comparison, k, hpos, by omega, hloop, hdecides, hnone⟩

theorem e34Compare_below_mono {q₁ q₂ x₁ x₂ : Int} (hq : q₂ ≤ q₁) (hx : 0 ≤ x₁) (hle : x₁ ≤ x₂)
    (hx₂ : x₂ ≤ 50 * e34Scale) (h : ∃ acc i, e34Compare q₁ x₁ = .ok (.below, acc, i)) :
    ∃ acc i, e34Compare q₂ x₂ = .ok (.below, acc, i) := by
  have hx' : 0 ≤ x₂ := hx.trans hle
  rcases e34Compare_decided hx' hx₂ with ⟨_, j, hj, -, hrun₂, ⟨rfl, habove⟩ | ⟨rfl, -⟩, -⟩
  case inr => exact ⟨_, _, hrun₂⟩
  exfalso
  have habove : taylorSum x₂ j + |taylorTerm x₂ j * 3| ≤ q₂ := habove
  rcases e34Compare_decided hx (hle.trans hx₂) with ⟨_, k, -, -, hrun₁, hdecides, hnone⟩
  rcases h with ⟨acc, i, h⟩
  rw [h] at hrun₁
  cases hrun₁
  rcases hdecides with ⟨⟨⟩, -⟩ | ⟨-, hbelow⟩
  have hbelow : q₁ < taylorSum x₁ k - |taylorTerm x₁ k * 3| := hbelow
  rcases Nat.lt_or_ge j k with hbefore | hafter
  · -- the first run went past this round, whose bound is no smaller for the larger argument
    have hpast : ¬ taylorSum x₁ j + |taylorTerm x₁ j * 3| ≤ q₁ := hnone j hj hbefore
    have hmono := taylorSum_mono hx hle j
    have hterm := taylorTerm_mono hx hle j
    rw [abs_of_nonneg (mul_nonneg (taylorTerm_nonneg hx j) (by decide))] at hpast
    rw [abs_of_nonneg (mul_nonneg (taylorTerm_nonneg hx' j) (by decide))] at habove
    omega
  · -- from round `k` on the partial sums are above `q₂`
    have hmono := taylorSum_mono hx hle k
    have hlater := taylorSum_le_of_le hx' hafter
    have habs := abs_nonneg (taylorTerm x₁ k * 3)
    have habs' := abs_nonneg (taylorTerm x₂ j * 3)
    omega

/-! ## The whole series -/

theorem taylorTerm_succ_le (hx : 0 ≤ x) (hle : x ≤ e34Scale) (n : Nat) :
    2 * taylorTerm x (n + 1) ≤ taylorTerm x n := by
  have hterm := taylorTerm_nonneg hx n
  have hscaled : taylorTerm x n * x / e34Scale ≤ taylorTerm x n :=
    Int.ediv_le_of_le_mul e34Scale_pos (mul_le_mul_of_nonneg_left hle hterm)
  have hnonneg : 0 ≤ taylorTerm x n * x / e34Scale :=
    Int.ediv_nonneg (mul_nonneg hterm hx) e34Scale_pos.le
  rw [taylorTerm, Int.mul_ediv_mul_of_pos_left _ _ e34Scale_pos]
  have hquotient := Int.ediv_nonneg hnonneg (Int.natCast_nonneg (n + 2))
  calc 2 * (taylorTerm x n * x / e34Scale / (n + 2 : Nat))
      = taylorTerm x n * x / e34Scale / (n + 2 : Nat) * 2 := mul_comm _ _
    _ ≤ taylorTerm x n * x / e34Scale / (n + 2 : Nat) * (n + 2 : Nat) :=
      mul_le_mul_of_nonneg_left (by omega) hquotient
    _ ≤ taylorTerm x n * x / e34Scale := Int.ediv_mul_le _ (by omega)
    _ ≤ taylorTerm x n := hscaled

theorem taylorSum_tail (hx : 0 ≤ x) (hle : x ≤ e34Scale) {m n : Nat} (hmn : m ≤ n) :
    taylorSum x n + 2 * taylorTerm x n ≤ taylorSum x m + 2 * taylorTerm x m := by
  induction hmn with
  | refl => exact le_refl _
  | @step n _ ih =>
    have hhalf := taylorTerm_succ_le hx hle n
    show taylorSum x n + taylorTerm x n + 2 * taylorTerm x (n + 1) ≤ _
    omega

/-- Up to 50 the comparator decides within its rounds. Up to 1 it answers BELOW exactly when `q` is
less than the sum of all the rounded terms, at which the accumulator no longer changes. -/
theorem e34Compare_decides (q x : Int) (hx : 0 ≤ x) (hle : x ≤ 50 * e34Scale) :
    (∃ comparison acc i, e34Compare q x = .ok (comparison, acc, i) ∧ comparison ≠ .maxReached ∧
      i ≤ 1000) ∧
    (x ≤ e34Scale → ∃ total, (∀ n, 1000 ≤ n → taylorSum x n = total) ∧
      ((∃ acc i, e34Compare q x = .ok (.below, acc, i)) ↔ q < total)) := by
  rcases @e34Compare_decided q x hx hle with ⟨comparison, k, -, hk, hrun, hdecides, -⟩
  constructor
  · refine ⟨comparison, _, k, hrun, ?_, hk⟩
    rcases hdecides with ⟨rfl, -⟩ | ⟨rfl, -⟩ <;> decide
  intro hone
  have hzero {n : Nat} (hn : 1000 ≤ n) : taylorTerm x n = 0 :=
    taylorTerm_eq_zero_of_le (taylorTerm_last hx hle) hn
  refine ⟨taylorSum x 1000, ?_, ?_⟩
  · intro n hn
    have htail := taylorSum_tail hx hone hn
    rw [hzero hn, hzero (le_refl _)] at htail
    have hmono := taylorSum_le_of_le hx hn
    omega
  have htail := taylorSum_tail hx hone hk
  rw [hzero (le_refl _)] at htail
  have hterm := taylorTerm_nonneg hx k
  rcases hdecides with ⟨rfl, habove⟩ | ⟨rfl, hbelow⟩
  · have habove : taylorSum x k + |taylorTerm x k * 3| ≤ q := habove
    rw [abs_of_nonneg (by omega)] at habove
    constructor
    · rintro ⟨acc, i, h⟩
      rw [hrun] at h
      cases h
    · intro hlt
      omega
  · have hbelow : q < taylorSum x k - |taylorTerm x k * 3| := hbelow
    have habs := abs_nonneg (taylorTerm x k * 3)
    have hsum := taylorSum_le_of_le hx hk
    exact ⟨fun _ => by omega, fun _ => ⟨_, _, hrun⟩⟩

/-- At one half: 1.6 lies below the exponential. -/
theorem e34Compare_decides_half :
    (∃ comparison acc i, e34Compare (16 * 10 ^ 33) (5 * 10 ^ 33) = .ok (comparison, acc, i) ∧
      comparison ≠ .maxReached ∧ i ≤ 1000) ∧
    ∃ total, (∀ n, 1000 ≤ n → taylorSum (5 * 10 ^ 33) n = total) ∧
      ((∃ acc i, e34Compare (16 * 10 ^ 33) (5 * 10 ^ 33) = .ok (.below, acc, i)) ↔
        16 * 10 ^ 33 < total) :=
  have h := e34Compare_decides (16 * 10 ^ 33) (5 * 10 ^ 33) (by decide) (by decide)
  ⟨h.1, h.2 (by decide)⟩

end Gouroboros.Consensus

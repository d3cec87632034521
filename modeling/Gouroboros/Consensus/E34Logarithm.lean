import Gouroboros.Lib.ContinuedFraction
import Gouroboros.Consensus.E34Compare

/-!
# The logarithm between its brackets

`e34Ln v` finds the whole exponent `n` with `e^n ≤ v < e^(n+1)` and adds the continued fraction of
the logarithm at `v / e^n - 1`. The exponent is found in two loops that compute powers of `e` in
two ways: the first squares a running value, the second, and the division after it, raise `e` to a
power and invert it. The two roundings agree at the ends of all brackets but two, where the second
is one unit higher (`bracketEnd_power`). A `v` at exactly such an end gets a negative remainder,
which is refused.
-/

namespace Gouroboros.Consensus

open ExceptFold ContinuedFraction

/-! ## Powers of a base of at least one -/

def powerValue (base exponent : Int) : Int :=
  if exponent < 0 then e34Scale * e34Scale / e34PowerNat base exponent.natAbs exponent.natAbs
  else e34PowerNat base exponent.natAbs exponent.natAbs

theorem le_e34Mul {a b : Int} (ha : e34Scale ≤ a) (hb : 0 ≤ b) : b ≤ e34Mul a b := by
  rw [e34Mul_eq, Int.le_ediv_iff_mul_le e34Scale_pos, mul_comm]
  exact mul_le_mul_of_nonneg_right ha hb

theorem le_e34PowerNat {base : Int} (hbase : e34Scale ≤ base) :
    ∀ fuel exponent, e34Scale ≤ e34PowerNat base fuel exponent := by
  intro fuel
  induction fuel with
  | zero => exact fun _ => le_rfl
  | succ fuel ih =>
    intro exponent
    have hscale := e34Scale_pos.le
    rw [e34PowerNat]
    split
    next => exact le_rfl
    next =>
      split
      next =>
        have hpower := ih (exponent / 2)
        exact hpower.trans (le_e34Mul hpower (hscale.trans hpower))
      next =>
        have hpower := ih (exponent - 1)
        exact hpower.trans (le_e34Mul hbase (hscale.trans hpower))

theorem e34Power_eq {base : Int} (hbase : e34Scale ≤ base) (exponent : Int) :
    e34Power base exponent = .ok (powerValue base exponent) := by
  have hpos := e34Scale_pos.trans_le (le_e34PowerNat hbase exponent.natAbs exponent.natAbs)
  unfold e34Power powerValue
  split
  next => exact e34Div_of_pos hpos
  next => rfl

theorem le_powerValue {base exponent : Int} (hbase : e34Scale ≤ base) (h : 0 ≤ exponent) :
    e34Scale ≤ powerValue base exponent := by
  rw [powerValue, if_neg (Int.not_lt.mpr h)]
  exact le_e34PowerNat hbase _ _

/-! ## The two loops -/

def squared (y : Int) : Int := e34Mul y y

/-- If the lower end is below `v` after `rounds` squarings at the latest, the bracketing loop stops
at such an end; it squares the upper end along. -/
theorem e34Bracket_stops {v : Int} (hv : v < e34Scale) :
    ∀ (rounds fuel : Nat) (lowerValue upperValue lower upper : Int), rounds < fuel →
      e34Scale ≤ upperValue → squared^[rounds] lowerValue ≤ v →
      ∃ j ≤ rounds, squared^[j] lowerValue ≤ v ∧
        e34Bracket v fuel lowerValue upperValue lower upper = .ok (lower * 2 ^ j, upper * 2 ^ j) := by
  intro rounds
  induction rounds with
  | zero =>
    intro fuel lowerValue upperValue lower upper hfuel hupper hlow
    cases fuel with
    | zero => omega
    | succ fuel =>
      have hlow : lowerValue ≤ v := hlow
      refine ⟨0, le_rfl, hlow, ?_⟩
      rw [e34Bracket, if_neg (by omega)]
      simp
  | succ rounds ih =>
    intro fuel lowerValue upperValue lower upper hfuel hupper hlow
    cases fuel with
    | zero => omega
    | succ fuel =>
      rw [e34Bracket]
      by_cases hin : lowerValue ≤ v
      · refine ⟨0, Nat.zero_le _, hin, ?_⟩
        rw [if_neg (by omega)]
        simp
      · have hupper' : e34Scale ≤ e34Mul upperValue upperValue :=
          hupper.trans (le_e34Mul hupper (e34Scale_pos.le.trans hupper))
        rcases ih fuel (squared lowerValue) (e34Mul upperValue upperValue) (lower * 2) (upper * 2)
          (by omega) hupper' hlow with ⟨j, hj, hlowj, hresult⟩
        refine ⟨j + 1, by omega, hlowj, ?_⟩
        rw [if_pos (by omega), pow_succ', ← mul_assoc, ← mul_assoc]
        exact hresult

/-- The bisection keeps a power that is not above `v` at its lower end and one above `v` at its upper
end, except at the ends it started with. -/
theorem e34Bisect_stops {v e : Int} (he : e34Scale ≤ e) :
    ∀ (rounds fuel : Nat) (lower upper : Int), rounds < fuel → upper - lower = 2 ^ rounds →
      ∃ n, e34Bisect v e fuel lower upper = .ok n ∧ lower ≤ n ∧ n < upper ∧
        (n = lower ∨ powerValue e n ≤ v) ∧ (n + 1 = upper ∨ v < powerValue e (n + 1)) := by
  intro rounds
  induction rounds with
  | zero =>
    intro fuel lower upper hfuel hdistance
    cases fuel with
    | zero => omega
    | succ fuel =>
      have hone : upper - lower = 1 := hdistance
      refine ⟨lower, ?_, le_rfl, by omega, .inl rfl, .inl (by omega)⟩
      exact if_pos hone
  | succ rounds ih =>
    intro fuel lower upper hfuel hdistance
    cases fuel with
    | zero => omega
    | succ fuel =>
      have hne : ¬ upper - lower = 1 := by omega
      have hmid : lower + (upper - lower) / 2 = lower + 2 ^ rounds := by omega
      simp only [e34Bisect, if_neg hne, e34Power_eq he, ok_bind, hmid]
      split
      next habove =>
        rcases ih fuel lower (lower + 2 ^ rounds) (by omega) (by omega) with
          ⟨n, hresult, hlow, hhigh, hbelow, hupper⟩
        refine ⟨n, hresult, hlow, by omega, hbelow, .inr ?_⟩
        rcases hupper with hend | hupper
        · rw [hend]
          exact habove
        · exact hupper
      next hbelow =>
        rcases ih fuel (lower + 2 ^ rounds) upper (by omega) (by omega) with
          ⟨n, hresult, hlow, hhigh, hlower, hupper⟩
        refine ⟨n, hresult, by omega, hhigh, .inr ?_, hupper⟩
        rcases hlower with hend | hlower
        · rw [hend]
          exact Int.not_lt.mp hbelow
        · exact hlower

/-! ## The continued fraction of the logarithm -/

def lnFactor (depth : Nat) : Int :=
  if depth > 0 then (((depth + 1) / 2 : Nat) : Int) * (((depth + 1) / 2 : Nat) : Int) else 1

/-- The partial numerators of the logarithm at `1 + x`; the partial denominators are the positive
numbers. -/
def lnNumerators (x : ℚ) (depth : Nat) : ℚ := x * lnFactor depth

def lnDenominators (depth : Nat) : ℚ := depth + 1

theorem lnFactor_nonneg (depth : Nat) : (0 : ℚ) ≤ lnFactor depth := by
  have h : 0 ≤ lnFactor depth := by
    unfold lnFactor
    split
    · exact mul_self_nonneg _
    · exact zero_le_one
  exact_mod_cast h

theorem lnNumerators_nonneg {x : ℚ} (hx : 0 ≤ x) (depth : Nat) : 0 ≤ lnNumerators x depth :=
  mul_nonneg hx (lnFactor_nonneg depth)

theorem one_le_lnDenominators (depth : Nat) : 1 ≤ lnDenominators depth :=
  le_add_of_nonneg_left (Nat.cast_nonneg depth)

theorem lnDenominators_pos (depth : Nat) : 0 < lnDenominators depth :=
  one_pos.trans_le (one_le_lnDenominators depth)

def lnCut (x : ℚ) (levels : Nat) : ℚ := cut (lnNumerators x) lnDenominators 0 levels

def nextTerm (r : Int) (depth : Nat) (previous older : Int) : Int :=
  (depth + 1 : Nat) * previous + r * lnFactor depth * older / e34Scale

def LnCFState.next (r : Int) (depth : Nat) (s : LnCFState) (convergent : Int) : LnCFState where
  aOlder := s.aPrev
  bOlder := s.bPrev
  aPrev := nextTerm r depth s.aPrev s.aOlder
  bPrev := nextTerm r depth s.bPrev s.bOlder
  previous := convergent

theorem nextTerm_eq (r : Int) (depth : Nat) (previous older : Int) :
    e34Mul (((depth + 1 : Nat) : Int) * e34Scale) previous +
        e34Mul (if depth > 0 then r * ((((depth + 1) / 2 : Nat) : Int) *
          (((depth + 1) / 2 : Nat) : Int)) else r) older = nextTerm r depth previous older := by
  have hfactor : (if depth > 0 then r * ((((depth + 1) / 2 : Nat) : Int) *
      (((depth + 1) / 2 : Nat) : Int)) else r) = r * lnFactor depth := by
    unfold lnFactor
    split
    · rfl
    · rw [mul_one]
  have hexact : ((depth + 1 : Nat) : Int) * e34Scale * previous / e34Scale =
      ((depth + 1 : Nat) : Int) * previous := by
    rw [mul_right_comm]
    exact Int.mul_ediv_cancel _ e34Scale_pos.ne'
  rw [hfactor, e34Mul_eq, e34Mul_eq, hexact, nextTerm]

section
variable {r : Int} {depth : Nat} {s : LnCFState}

section

variable {convergent : Int}
  (h : e34Div (nextTerm r depth s.aPrev s.aOlder) (nextTerm r depth s.bPrev s.bOlder) = .ok convergent)
include h

theorem e34LnCFLoop_zero : e34LnCFLoop r 0 depth s = .ok convergent := by
  rw [e34LnCFLoop]
  simp only [nextTerm_eq, h, ok_bind]

theorem e34LnCFLoop_succ (rounds : Nat) :
    e34LnCFLoop r (rounds + 1) depth s =
      if depth > 0 ∧ |s.previous - convergent| < e34Epsilon then .ok convergent
      else e34LnCFLoop r rounds (depth + 1) (s.next r depth convergent) := by
  rw [e34LnCFLoop]
  simp only [nextTerm_eq, h, ok_bind]
  rfl

end

/-- The rounded terms before a depth against the exact ones: the numerators are too small, and the
denominators lose less than one unit in a depth. -/
structure RoundedFraction (r : Int) (depth : Nat) (s : LnCFState) : Prop where
  aOlder_le : (s.aOlder : ℚ) ≤ e34Scale * numer (lnNumerators (r / e34Scale)) lnDenominators depth
  aPrev_le : (s.aPrev : ℚ) ≤
    e34Scale * numer (lnNumerators (r / e34Scale)) lnDenominators (depth + 1)
  le_bOlder : (e34Scale - depth : ℚ) *
    denom (lnNumerators (r / e34Scale)) lnDenominators depth ≤ s.bOlder
  le_bPrev : (e34Scale - depth : ℚ) *
    denom (lnNumerators (r / e34Scale)) lnDenominators (depth + 1) ≤ s.bPrev

theorem roundedFraction_start (r : Int) : RoundedFraction r 0 ⟨e34Scale, 0, 0, e34Scale, 0⟩ := by
  constructor <;> simp [numer, denom, solution]

theorem e34Scale_cast_pos : (0 : ℚ) < e34Scale := by exact_mod_cast e34Scale_pos

theorem slack_pos : (0 : ℚ) < e34Scale - 1001 := by
  have hlarge : 0 < e34Scale - 1001 := by decide
  exact_mod_cast hlarge

theorem nextTerm_bounds (r : Int) (depth : Nat) (previous older : Int) :
    (nextTerm r depth previous older : ℚ) ≤
        lnDenominators depth * previous + lnNumerators (r / e34Scale) depth * older ∧
      lnDenominators depth * previous + lnNumerators (r / e34Scale) depth * older - 1 ≤
        nextTerm r depth previous older := by
  have hscale := e34Scale_cast_pos
  have hlow : ((r * lnFactor depth * older / e34Scale : Int) : ℚ) * e34Scale ≤
      r * lnFactor depth * older := by
    exact_mod_cast Int.ediv_mul_le _ e34Scale_pos.ne'
  have hhigh : (r * lnFactor depth * older : ℚ) ≤
      (((r * lnFactor depth * older / e34Scale : Int) : ℚ) + 1) * e34Scale := by
    exact_mod_cast (Int.lt_ediv_add_one_mul_self _ e34Scale_pos).le
  have hterm : lnNumerators (r / e34Scale) depth * older = r * lnFactor depth * older / e34Scale := by
    rw [lnNumerators]
    ring
  rw [← le_div_iff₀ hscale] at hlow
  rw [← div_le_iff₀ hscale] at hhigh
  rw [hterm, lnDenominators, nextTerm]
  push_cast
  constructor
  · linarith
  · linarith

theorem RoundedFraction.next (hr : 0 ≤ r) (h : RoundedFraction r depth s)
    (convergent : Int) : RoundedFraction r (depth + 1) (s.next r depth convergent) := by
  have hx : (0 : ℚ) ≤ r / e34Scale := div_nonneg (by exact_mod_cast hr) e34Scale_cast_pos.le
  have hnum := lnNumerators_nonneg hx
  have hden := lnDenominators_pos
  have hdenom := denom_nonneg hnum hden
  constructor
  · exact h.aPrev_le
  · calc ((s.next r depth convergent).aPrev : ℚ)
        ≤ lnDenominators depth * s.aPrev + lnNumerators (r / e34Scale) depth * s.aOlder :=
          (nextTerm_bounds r depth s.aPrev s.aOlder).1
      _ ≤ lnDenominators depth * (e34Scale *
            numer (lnNumerators (r / e34Scale)) lnDenominators (depth + 1)) +
          lnNumerators (r / e34Scale) depth * (e34Scale *
            numer (lnNumerators (r / e34Scale)) lnDenominators depth) :=
          add_le_add (mul_le_mul_of_nonneg_left h.aPrev_le (hden depth).le)
            (mul_le_mul_of_nonneg_left h.aOlder_le (hnum depth))
      _ = _ := by
          rw [numer_succ_succ]
          ring
  · have hloss := hdenom (depth + 1)
    have hprev := h.le_bPrev
    simp only [LnCFState.next]
    push_cast
    linarith
  · have hone := one_le_denom hnum one_le_lnDenominators (depth + 1)
    have hkept : (e34Scale - depth : ℚ) *
        denom (lnNumerators (r / e34Scale)) lnDenominators (depth + 2) - 1 ≤
        (s.next r depth convergent).bPrev := by
      calc _ = lnDenominators depth * ((e34Scale - depth : ℚ) *
            denom (lnNumerators (r / e34Scale)) lnDenominators (depth + 1)) +
          lnNumerators (r / e34Scale) depth * ((e34Scale - depth : ℚ) *
            denom (lnNumerators (r / e34Scale)) lnDenominators depth) - 1 := by
            rw [denom_succ_succ]
            ring
        _ ≤ lnDenominators depth * s.bPrev + lnNumerators (r / e34Scale) depth * s.bOlder - 1 :=
            sub_le_sub_right (add_le_add (mul_le_mul_of_nonneg_left h.le_bPrev (hden depth).le)
              (mul_le_mul_of_nonneg_left h.le_bOlder (hnum depth))) 1
        _ ≤ _ := (nextTerm_bounds r depth s.bPrev s.bOlder).2
    push_cast
    linarith

theorem RoundedFraction.convergent (hr : 0 ≤ r) (h : RoundedFraction r depth s)
    (hdepth : depth ≤ 1000) :
    ∃ y, e34Div (nextTerm r depth s.aPrev s.aOlder) (nextTerm r depth s.bPrev s.bOlder) = .ok y ∧
      (0 ≤ y → (y : ℚ) * (e34Scale - 1001) ≤
        e34Scale * e34Scale * lnCut (r / e34Scale) (depth + 1)) := by
  have hx : (0 : ℚ) ≤ r / e34Scale := div_nonneg (by exact_mod_cast hr) e34Scale_cast_pos.le
  have hnum := lnNumerators_nonneg hx
  have hone := one_le_denom hnum one_le_lnDenominators (depth + 1)
  have hnext := h.next hr 0
  have ha := hnext.aPrev_le
  have hb := hnext.le_bPrev
  simp only [LnCFState.next] at ha hb
  generalize nextTerm r depth s.aPrev s.aOlder = a at ha ⊢
  generalize nextTerm r depth s.bPrev s.bOlder = b at hb ⊢
  have hcut : lnCut (r / e34Scale) (depth + 1) =
      numer (lnNumerators (r / e34Scale)) lnDenominators (depth + 2) /
        denom (lnNumerators (r / e34Scale)) lnDenominators (depth + 2) :=
    cut_eq_div hnum lnDenominators_pos (depth + 1)
  rw [hcut]
  generalize numer (lnNumerators (r / e34Scale)) lnDenominators (depth + 2) = A
    at ha ⊢
  generalize denom (lnNumerators (r / e34Scale)) lnDenominators (depth + 2) = B
    at hb hone ⊢
  have hB : 0 < B := one_pos.trans_le hone
  have hdepth : ((depth + 1 : Nat) : ℚ) ≤ 1001 := by exact_mod_cast Nat.succ_le_succ hdepth
  have hlow : (e34Scale - 1001) * B ≤ (b : ℚ) :=
    (mul_le_mul_of_nonneg_right (by linarith) hB.le).trans hb
  have hbpos : 0 < b := by
    have hcast : (0 : ℚ) < b := (mul_pos slack_pos hB).trans_le hlow
    exact_mod_cast hcast
  refine ⟨a * e34Scale / b, e34Div_of_pos hbpos, ?_⟩
  intro hy
  have hy : (0 : ℚ) ≤ (a * e34Scale / b : Int) := by exact_mod_cast hy
  have hround : ((a * e34Scale / b : Int) : ℚ) * b ≤ a * e34Scale := by
    exact_mod_cast Int.ediv_mul_le _ hbpos.ne'
  rw [← mul_div_assoc, le_div_iff₀ hB]
  calc ((a * e34Scale / b : Int) : ℚ) * (e34Scale - 1001) * B
      = ((a * e34Scale / b : Int) : ℚ) * ((e34Scale - 1001) * B) := by ring
    _ ≤ ((a * e34Scale / b : Int) : ℚ) * b := mul_le_mul_of_nonneg_left hlow hy
    _ ≤ a * e34Scale := hround
    _ ≤ e34Scale * A * e34Scale := mul_le_mul_of_nonneg_right ha e34Scale_cast_pos.le
    _ = e34Scale * e34Scale * A := by ring

section

variable (hr : 0 ≤ r) {levels : Nat} (hodd : Odd levels) {bound : Int}
  (hbound : e34Scale * e34Scale * lnCut (r / e34Scale) levels ≤ (bound : ℚ) * (e34Scale - 1001))
include hr hodd hbound

theorem convergent_le {y : Int} (hdepth : Even (depth + 1) ∨ levels ≤ depth + 1)
    (hy : 0 ≤ y → (y : ℚ) * (e34Scale - 1001) ≤
      e34Scale * e34Scale * lnCut (r / e34Scale) (depth + 1)) : y ≤ bound := by
  have hx : (0 : ℚ) ≤ r / e34Scale := div_nonneg (by exact_mod_cast hr) e34Scale_cast_pos.le
  have hnum := lnNumerators_nonneg hx
  by_cases hneg : 0 ≤ y
  · have hcut : lnCut (r / e34Scale) (depth + 1) ≤ lnCut (r / e34Scale) levels :=
      cut_le_cut_of_odd hnum lnDenominators_pos hodd hdepth 0
    have hle : (y : ℚ) * (e34Scale - 1001) ≤ bound * (e34Scale - 1001) :=
      (hy hneg).trans ((mul_le_mul_of_nonneg_left hcut (mul_self_nonneg _)).trans hbound)
    exact_mod_cast le_of_mul_le_mul_right hle slack_pos
  · have hcut : 0 ≤ lnCut (r / e34Scale) levels :=
      cut_nonneg hnum lnDenominators_pos levels 0
    have hprod : (0 : ℚ) ≤ bound * (e34Scale - 1001) :=
      (mul_nonneg (mul_self_nonneg _) hcut).trans hbound
    have hbound : 0 ≤ bound := by exact_mod_cast nonneg_of_mul_nonneg_left hprod slack_pos
    omega

/-- An odd cut bounds the result: convergents of even depths, which may be above it, are accepted
only when they are close to the one before. -/
theorem e34LnCFLoop_le (hlevels : levels ≤ 1001) :
    ∀ (rounds depth : Nat) (s : LnCFState), rounds + depth = 1000 → RoundedFraction r depth s →
      (0 < depth → Even depth → s.previous ≤ bound) →
      ∃ y, e34LnCFLoop r rounds depth s = .ok y ∧ y ≤ bound + e34Epsilon := by
  have hepsilon : 0 < e34Epsilon := by decide
  intro rounds
  induction rounds with
  | zero =>
    intro depth s hdepth hs _
    rcases hs.convergent hr (by omega) with ⟨y, hdiv, hy⟩
    refine ⟨y, e34LnCFLoop_zero hdiv, ?_⟩
    have hle := convergent_le hr hodd hbound (.inr (by omega)) hy
    omega
  | succ rounds ih =>
    intro depth s hdepth hs hprevious
    rcases hs.convergent hr (by omega) with ⟨y, hdiv, hy⟩
    rw [e34LnCFLoop_succ hdiv]
    split
    next hclose =>
      refine ⟨y, rfl, ?_⟩
      by_cases heven : Even depth
      · have hle := hprevious hclose.1 heven
        have hdifference := neg_abs_le (s.previous - y)
        omega
      · have hle := convergent_le hr hodd hbound (.inl (Nat.even_add_one.mpr heven)) hy
        omega
    next =>
      apply ih (depth + 1) (s.next r depth y) (by omega) (hs.next hr y)
      intro _ heven
      exact convergent_le hr hodd hbound (.inl heven) hy

theorem e34LnCF_le (hlevels : levels ≤ 1001) :
    ∃ y, e34LnCF r 1000 = .ok y ∧ y ≤ bound + e34Epsilon := by
  rw [e34LnCF, if_neg (Int.not_lt.mpr hr)]
  apply e34LnCFLoop_le hr hodd hbound hlevels 1000 0 _ rfl (roundedFraction_start r)
  intro hpos
  omega

end

end

/-! ## The logarithm of a coefficient's complement -/

def e34E : Int := 27182818284590452353602874043083282

def e34Inverse : Int := 3678794411714423215955237792349248

theorem e34Exp_one : e34Exp e34Scale = .ok e34E := by decide

theorem e34Div_one_e : e34Div e34Scale e34E = .ok e34Inverse := by decide

theorem e34E_ge : e34Scale ≤ e34E := by decide

/-- The two computations of the lower ends `e^(-2^j)`. They differ at `e^-2` and `e^-4`. -/
theorem bracketEnd_power : ∀ j < 7,
    powerValue e34E (-(2 ^ j)) = squared^[j] e34Inverse + (if j = 1 ∨ j = 2 then 1 else 0) := by
  decide

theorem power_pos : ∀ n < 64, 0 < powerValue e34E (-((n + 1 : Nat) : Int)) := by decide

theorem power_ratio : ∀ n < 63, 100 * powerValue e34E (-((n + 1 : Nat) : Int)) ≤
    299 * powerValue e34E (-((n + 2 : Nat) : Int)) := by
  decide

theorem e34Ln_whole {fuel rounds : Nat} {v : Int} (hfuel : 8 ≤ fuel) (hrounds : rounds < 7)
    (hpos : 0 < v) (hv : v < e34Scale) (hend : squared^[rounds] e34Inverse ≤ v) :
    ∃ j ≤ rounds, ∃ n : Int, squared^[j] e34Inverse ≤ v ∧ -(2 ^ j) ≤ n ∧ n < 0 ∧
      (n = -(2 ^ j) ∨ powerValue e34E n ≤ v) ∧ v < powerValue e34E (n + 1) ∧
      e34Ln fuel v =
        (e34LnCF (v * e34Scale / powerValue e34E n - e34Scale) 1000).map (n * e34Scale + ·) := by
  rcases e34Bracket_stops hv rounds fuel e34Inverse e34E (-1) 1 (by omega) e34E_ge hend with
    ⟨j, hj, hlow, hbracket⟩
  have hdistance : (1 : Int) * 2 ^ j - -1 * 2 ^ j = 2 ^ (j + 1) := by
    ring
  rcases @e34Bisect_stops v e34E e34E_ge (j + 1) fuel (-1 * 2 ^ j) (1 * 2 ^ j) (by omega)
    hdistance with ⟨n, hbisect, hlower, hupper, hbelow, habove⟩
  -- the powers from `e^0` on are above `v`
  have hneg : n < 0 := by
    by_contra hn
    have hge := le_powerValue e34E_ge (Int.not_lt.mp hn)
    omega
  have hsize : n.natAbs - 1 < 64 := by
    have hlast : (2 : Int) ^ j ≤ 2 ^ 6 := pow_le_pow_right₀ (by decide) (by omega)
    omega
  have hpower := power_pos (n.natAbs - 1) hsize
  have hn : -((n.natAbs - 1 + 1 : Nat) : Int) = n := by omega
  rw [hn] at hpower
  refine ⟨j, hj, n, hlow, by omega, hneg, by rwa [neg_one_mul] at hbelow, by omega, ?_⟩
  exact e34Ln_of_steps hpos e34Exp_one e34Div_one_e hbracket hbisect (e34Power_eq e34E_ge n)
    (e34Div_of_pos hpower)

theorem remainder_nonneg {v power : Int} (hpower : 0 < power) (h : power ≤ v) :
    0 ≤ v * e34Scale / power - e34Scale := by
  apply Int.sub_nonneg_of_le
  rw [Int.le_ediv_iff_mul_le hpower, mul_comm]
  exact mul_le_mul_of_nonneg_right h e34Scale_pos.le

theorem remainder_neg {v power : Int} (hpower : 0 < power) (h : v < power) :
    v * e34Scale / power - e34Scale < 0 := by
  apply Int.sub_neg_of_lt
  rw [Int.ediv_lt_iff_lt_mul hpower, mul_comm]
  exact mul_lt_mul_of_pos_left h e34Scale_pos

theorem e34Ln_refused {fuel rounds : Nat} {v : Int} (hfuel : 8 ≤ fuel) (hrounds : rounds < 7)
    (hpos : 0 < v) (hv : v < e34Scale) (hend : squared^[rounds] e34Inverse ≤ v)
    (hpowers : ∀ i < 2 ^ rounds, v < powerValue e34E (-((i + 1 : Nat) : Int))) :
    e34Ln fuel v = .error .continuedFractionNegative := by
  rcases e34Ln_whole hfuel hrounds hpos hv hend with ⟨j, hj, n, -, hlower, hneg, -, -, hln⟩
  have hpow : (2 : Int) ^ j ≤ 2 ^ rounds := pow_le_pow_right₀ (by decide) hj
  have hsize : n.natAbs - 1 < 2 ^ rounds := by
    have hcast : ((2 ^ rounds : Nat) : Int) = 2 ^ rounds := by push_cast; rfl
    omega
  have hpower := hpowers (n.natAbs - 1) hsize
  have hn : -((n.natAbs - 1 + 1 : Nat) : Int) = n := by omega
  rw [hn] at hpower
  rw [hln, e34LnCF, if_pos (remainder_neg (hpos.trans hpower) hpower)]
  rfl

/-- The two ends of brackets whose power is one unit higher. -/
def raisedEnds : List Int := [1353352832366126918939995016483660, 183156388887341802937180230802058]

theorem e34Ln_raisedEnds {fuel : Nat} {v : Int} (hfuel : 8 ≤ fuel) (hv : v ∈ raisedEnds) :
    e34Ln fuel v = .error .continuedFractionNegative := by
  simp only [raisedEnds, List.mem_cons, List.not_mem_nil, or_false] at hv
  rcases hv with rfl | rfl
  · exact @e34Ln_refused fuel 1 _ hfuel (by decide) (by decide) (by decide) (by decide)
      (by decide)
  · exact @e34Ln_refused fuel 2 _ hfuel (by decide) (by decide) (by decide) (by decide)
      (by decide)

theorem bracketEnd_le {j : Nat} {v : Int} (hj : j < 7) (hlow : squared^[j] e34Inverse ≤ v)
    (hv : v ∉ raisedEnds) : powerValue e34E (-(2 ^ j)) ≤ v := by
  have hpower := bracketEnd_power j hj
  have hraised : j = 1 ∨ j = 2 → squared^[j] e34Inverse ∈ raisedEnds := by
    rintro (rfl | rfl)
    · decide
    · decide
  rw [hpower]
  split
  next hgap =>
    have hne : squared^[j] e34Inverse ≠ v := by
      intro heq
      exact hv (heq ▸ hraised hgap)
    omega
  next => omega

theorem e34LnCF_le_two {r : Int} (hr : 0 ≤ r) (hhigh : 100 * r ≤ 199 * e34Scale) :
    ∃ y, e34LnCF r 1000 = .ok y ∧ y ≤ 2 * e34Scale := by
  have hcut : lnCut (r / e34Scale) 1 = r / e34Scale := by
    simp [lnCut, cut, lnNumerators, lnDenominators, lnFactor]
  have hbound : e34Scale * e34Scale * lnCut (r / e34Scale) 1 ≤
      ((2 * e34Scale - e34Epsilon : Int) : ℚ) * (e34Scale - 1001) := by
    have hclosed : 199 * e34Scale * e34Scale ≤
        100 * ((2 * e34Scale - e34Epsilon) * (e34Scale - 1001)) := by decide
    have hscaled : 100 * r * e34Scale ≤ 199 * e34Scale * e34Scale :=
      mul_le_mul_of_nonneg_right hhigh e34Scale_pos.le
    have hle : r * e34Scale ≤ (2 * e34Scale - e34Epsilon) * (e34Scale - 1001) := by linarith
    rw [hcut]
    calc (e34Scale : ℚ) * e34Scale * (r / e34Scale) = r * e34Scale := by
          field_simp
      _ ≤ _ := by exact_mod_cast hle
  rcases e34LnCF_le hr (by decide) hbound (by decide) with ⟨y, hy, hle⟩
  exact ⟨y, hy, by omega⟩

/-- The largest remainder above `e^-1` that a coefficient gives, rounded up. -/
def largestRemainder : ℚ := 171828182845904523514 / 10 ^ 20

theorem lnCut_largestRemainder : lnCut largestRemainder 35 ≤ 1 - 5 / 10 ^ 20 := by decide +kernel

theorem lnCut_mono {x y : ℚ} (hx : 0 ≤ x) (hxy : x ≤ y) (levels : Nat) :
    lnCut x levels ≤ lnCut y levels :=
  (cut_mono_scale lnFactor_nonneg lnDenominators_pos hx hxy levels 0).1

theorem e34LnCF_le_one {r : Int} (hr : 0 ≤ r) (hhigh : (r : ℚ) / e34Scale ≤ largestRemainder) :
    ∃ y, e34LnCF r 1000 = .ok y ∧ y ≤ e34Scale := by
  have hx : (0 : ℚ) ≤ r / e34Scale := div_nonneg (by exact_mod_cast hr) e34Scale_cast_pos.le
  have hcut := (lnCut_mono hx hhigh 35).trans lnCut_largestRemainder
  have hbound : e34Scale * e34Scale * lnCut (r / e34Scale) 35 ≤
      ((e34Scale - e34Epsilon : Int) : ℚ) * (e34Scale - 1001) := by
    calc (e34Scale : ℚ) * e34Scale * lnCut (r / e34Scale) 35
        ≤ e34Scale * e34Scale * (1 - 5 / 10 ^ 20) :=
          mul_le_mul_of_nonneg_left hcut (mul_self_nonneg _)
      _ ≤ _ := by decide +kernel
  rcases e34LnCF_le hr (by decide) hbound (by decide) with ⟨y, hy, hle⟩
  exact ⟨y, hy, by omega⟩

theorem remainder_le {v power next : Int} (hpower : 0 < power) (hv : v < next)
    (hratio : 100 * next ≤ 299 * power) :
    100 * (v * e34Scale / power - e34Scale) ≤ 199 * e34Scale := by
  have hround := Int.ediv_mul_le (v * e34Scale) hpower.ne'
  have hle : 100 * (v * e34Scale / power) * power ≤ 299 * e34Scale * power := by
    calc 100 * (v * e34Scale / power) * power
        = 100 * (v * e34Scale / power * power) := by ring
      _ ≤ 100 * (v * e34Scale) := by omega
      _ = 100 * v * e34Scale := by ring
      _ ≤ 299 * power * e34Scale := mul_le_mul_of_nonneg_right (by omega) e34Scale_pos.le
      _ = 299 * e34Scale * power := by ring
  have hquotient := Int.le_of_mul_le_mul_right hle hpower
  omega

theorem remainder_le_largest {v : Int} (hv : v ≤ e34Scale - 10 ^ 15) :
    ((v * e34Scale / powerValue e34E (-1) - e34Scale : Int) : ℚ) / e34Scale ≤ largestRemainder := by
  have hle : v * e34Scale / powerValue e34E (-1) ≤
      (e34Scale - 10 ^ 15) * e34Scale / powerValue e34E (-1) :=
    Int.ediv_le_ediv (power_pos 0 (by decide)) (mul_le_mul_of_nonneg_right hv e34Scale_pos.le)
  have hclosed : (((e34Scale - 10 ^ 15) * e34Scale / powerValue e34E (-1) - e34Scale : Int) : ℚ) ≤
      largestRemainder * e34Scale := by decide +kernel
  rw [div_le_iff₀ e34Scale_cast_pos]
  refine le_trans ?_ hclosed
  exact_mod_cast Int.sub_le_sub_right hle e34Scale

/-- The logarithm of every other value between the last end of the brackets and `1 - 10^-19`. -/
theorem e34Ln_total {fuel : Nat} {v : Int} (hfuel : 8 ≤ fuel) (hlow : squared^[6] e34Inverse ≤ v)
    (hhigh : v ≤ e34Scale - 10 ^ 15) (hv : v ∉ raisedEnds) : ∃ c, e34Ln fuel v = .ok c ∧ c ≤ 0 := by
  have hpos : 0 < v := by
    have hend : 0 < squared^[6] e34Inverse := by decide
    omega
  rcases e34Ln_whole hfuel (by decide) hpos (by omega) hlow with
    ⟨j, hj, n, hend, hlower, hneg, hbelow, habove, hln⟩
  have hpow : (2 : Int) ^ j ≤ 2 ^ 6 := pow_le_pow_right₀ (by decide) hj
  -- `n` as the natural number of the tables
  have hn : -((n.natAbs - 1 + 1 : Nat) : Int) = n := by omega
  have hpower := power_pos (n.natAbs - 1) (by omega)
  rw [hn] at hpower
  have hreached : powerValue e34E n ≤ v := by
    rcases hbelow with hstart | hbelow
    · rw [hstart]
      exact bracketEnd_le (by omega) hend hv
    · exact hbelow
  have hr := remainder_nonneg hpower hreached
  by_cases hfirst : n = -1
  · rw [hfirst] at hr hln
    rcases e34LnCF_le_one hr (remainder_le_largest hhigh) with ⟨y, hy, hle⟩
    refine ⟨-1 * e34Scale + y, ?_, by omega⟩
    rw [hln, hy]
    rfl
  · have hratio := power_ratio (n.natAbs - 2) (by omega)
    have hnext : -((n.natAbs - 2 + 1 : Nat) : Int) = n + 1 := by omega
    have hn : -((n.natAbs - 2 + 2 : Nat) : Int) = n := by omega
    rw [hnext, hn] at hratio
    rcases e34LnCF_le_two hr (remainder_le hpower habove hratio) with ⟨y, hy, hle⟩
    have hscale := e34Scale_pos
    have hwhole : n * e34Scale ≤ -2 * e34Scale := mul_le_mul_of_nonneg_right (by omega) hscale.le
    refine ⟨n * e34Scale + y, ?_, by omega⟩
    rw [hln, hy]
    rfl

end Gouroboros.Consensus

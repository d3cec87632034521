import Mathlib.Data.Rat.Floor
import Gouroboros.Consensus.E34Logarithm
import Gouroboros.Consensus.Eligibility

/-!
# Coefficients without a leader check

`newLeaderEligibility` accepts every active slot coefficient of the node's domain, and then fails
for two values of its first 34 decimals: those whose complement is exactly `e^-2` or `e^-4` in the
rounding of the bracketing loop of `e34Ln`.
-/

namespace Gouroboros.Consensus

open ExceptFold

theorem validateActiveSlotCoefficient_eq_ok {f : Rat}
    (h : validateActiveSlotCoefficient (some f) = .ok ()) :
    0 < f.num ∧ f.num ≤ f.den ∧ f.num < 2 ^ 64 ∧ f.den < 2 ^ 64 ∧
      (f.den : Int) ≤ f.num * 10 ^ 19 := by
  unfold validateActiveSlotCoefficient at h
  dsimp only at h
  split at h
  next hfraction =>
    rcases hfraction with ⟨hpos, hle, hnum, hden⟩
    refine ⟨hpos, hle, hnum, hden, ?_⟩
    split at h
    next hwords => omega
    next => cases h
  next => cases h

theorem coefficient_floor (f : Rat) : f.num * e34Scale / f.den = ⌊f * 10 ^ 34⌋ := by
  have hscaled : f * 10 ^ 34 = ((f.num * e34Scale : Int) : ℚ) / (f.den : ℚ) := by
    have hscale : ((e34Scale : Int) : ℚ) = 10 ^ 34 := by
      norm_cast
    rw [Int.cast_mul, hscale, mul_div_right_comm, Rat.num_div_den]
  rw [hscaled, Rat.floor_intCast_div_natCast]

theorem complement_bounds {f : Rat} (hf : validateActiveSlotCoefficient (some f) = .ok ())
    (hne : f.num ≠ f.den) :
    squared^[6] e34Inverse ≤ e34Scale - f.num * e34Scale / f.den ∧
      e34Scale - f.num * e34Scale / f.den ≤ e34Scale - 10 ^ 15 := by
  rcases validateActiveSlotCoefficient_eq_ok hf with ⟨hpos, hle, -, hden, hsmall⟩
  have hdenPos : (0 : Int) < f.den := by omega
  have hend : squared^[6] e34Inverse = 1603810 := by decide
  have hscale : e34Scale = 10 ^ 34 := rfl
  have hhigh : f.num * e34Scale / f.den ≤ e34Scale - 1603810 := by
    apply Int.ediv_le_of_le_mul hdenPos
    have hnum : f.num * e34Scale ≤ (f.den - 1) * e34Scale :=
      mul_le_mul_of_nonneg_right (by omega) e34Scale_pos.le
    have hprod : (e34Scale - 1603810) * f.den = (f.den - 1) * e34Scale + (e34Scale - 1603810 * f.den) := by
      ring
    omega
  have hlow : 10 ^ 15 ≤ f.num * e34Scale / f.den := by
    rw [Int.le_ediv_iff_mul_le hdenPos, hscale]
    omega
  exact ⟨by omega, by omega⟩

section
variable {fuel : Nat} {cache : LeaderEligibilityCache} {poolStake totalStake : UInt64} {f : Rat}
  {mode : ConsensusMode}

section

variable (hf : validateActiveSlotCoefficient (some f) = .ok ())
include hf

theorem newLeaderEligibility_of_valid (hcache : cache.Sound fuel) (htotal : totalStake ≠ 0)
    (hmode : mode = .cPraos ∨ mode = .tPraos) :
    (newLeaderEligibility fuel cache poolStake totalStake (some f) mode).1 =
      (prepareLeaderEligibility fuel (eligibilityKey poolStake totalStake f mode)).mapError
        .arithmetic := by
  have hmode : validateConsensusMode mode = .ok () := by
    rcases hmode with rfl | rfl
    · rfl
    · rfl
  have hkey : checkedKey poolStake totalStake (some f) mode =
      .ok (eligibilityKey poolStake totalStake f mode) := by
    rw [checkedKey, hmode, ok_bind, hf, ok_bind, if_neg htotal]
  rw [newLeaderEligibility_eq hcache, hkey, ok_bind]

theorem eligibilityKey_fraction :
    ((eligibilityKey poolStake totalStake f mode).numerator.toNat : Int) = f.num ∧
      (eligibilityKey poolStake totalStake f mode).denominator.toNat = f.den := by
  rcases validateActiveSlotCoefficient_eq_ok hf with ⟨hpos, -, hnum, hden, -⟩
  have hnumerator : f.num.toNat % 2 ^ 64 = f.num.toNat := Nat.mod_eq_of_lt (by omega)
  have hdenominator : f.den % 2 ^ 64 = f.den := Nat.mod_eq_of_lt hden
  simp only [eligibilityKey, UInt64.toNat_ofNat', hnumerator, hdenominator]
  exact ⟨Int.toNat_of_nonneg hpos.le, trivial⟩

theorem prepareLeaderEligibility_of_valid (htotal : totalStake ≠ 0) (hne : f.num ≠ f.den) :
    ∃ prepared : Int → LeaderEligibilityState, (∀ c, (prepared c).c = c) ∧
      prepareLeaderEligibility fuel (eligibilityKey poolStake totalStake f mode) =
        (e34Ln fuel (e34Scale - f.num * e34Scale / f.den)).map prepared := by
  rcases @eligibilityKey_fraction poolStake totalStake f mode hf with ⟨hnumerator, hdenominator⟩
  have htotal : 0 < (eligibilityKey poolStake totalStake f mode).totalStake.toNat :=
    Nat.pos_of_ne_zero fun hzero => htotal (UInt64.toNat_inj.mp hzero)
  have hden : 0 < (eligibilityKey poolStake totalStake f mode).denominator.toNat := by
    rw [hdenominator]
    exact f.den_pos
  have hne : (eligibilityKey poolStake totalStake f mode).numerator ≠
      (eligibilityKey poolStake totalStake f mode).denominator := by
    intro heq
    have hcast := congrArg UInt64.toNat heq
    omega
  have hprepare := @prepareLeaderEligibility_of_ne fuel _ htotal hden hne
  rw [hnumerator, hdenominator] at hprepare
  exact ⟨_, fun _ => rfl, hprepare⟩

theorem prepareLeaderEligibility_of_one (htotal : totalStake ≠ 0) (hone : f.num = f.den) :
    ∃ state, prepareLeaderEligibility fuel (eligibilityKey poolStake totalStake f mode) = .ok state ∧
      state.c = 0 := by
  rcases @eligibilityKey_fraction poolStake totalStake f mode hf with ⟨hnumerator, hdenominator⟩
  have htotal : 0 < (eligibilityKey poolStake totalStake f mode).totalStake.toNat :=
    Nat.pos_of_ne_zero fun hzero => htotal (UInt64.toNat_inj.mp hzero)
  have heq : (eligibilityKey poolStake totalStake f mode).numerator =
      (eligibilityKey poolStake totalStake f mode).denominator := by
    apply UInt64.toNat_inj.mp
    omega
  rw [prepareLeaderEligibility, e34FromRatio_of_pos (Int.natCast_pos.mpr htotal),
    ok_bind, if_pos heq]
  exact ⟨_, rfl, rfl⟩

end

end

theorem mem_raisedEnds_iff (f : Rat) : e34Scale - f.num * e34Scale / f.den ∈ raisedEnds ↔
    ⌊f * 10 ^ 34⌋ = 8646647167633873081060004983516340 ∨
      ⌊f * 10 ^ 34⌋ = 9816843611112658197062819769197942 := by
  have hscale : e34Scale = 10 ^ 34 := rfl
  rw [coefficient_floor]
  simp only [raisedEnds, List.mem_cons, List.not_mem_nil, or_false]
  omega

/-- For both modes, every stake and every coefficient of the domain, a leader check is prepared, and
its logarithm is not positive, exactly when the first 34 decimals of the coefficient are none of the
two. -/
theorem leader_eligibility_total_iff {fuel : Nat} (hfuel : 8 ≤ fuel) {cache : LeaderEligibilityCache}
    (hcache : cache.Sound fuel) (poolStake totalStake : UInt64) (htotal : totalStake ≠ 0) (f : Rat)
    (hf : validateActiveSlotCoefficient (some f) = .ok ()) (mode : ConsensusMode)
    (hmode : mode = .cPraos ∨ mode = .tPraos) :
    (∃ state, (newLeaderEligibility fuel cache poolStake totalStake (some f) mode).1 = .ok state ∧
        state.c ≤ 0) ↔
      ¬ (⌊f * 10 ^ 34⌋ = 8646647167633873081060004983516340 ∨
        ⌊f * 10 ^ 34⌋ = 9816843611112658197062819769197942) := by
  rw [newLeaderEligibility_of_valid hf hcache htotal hmode, ← mem_raisedEnds_iff]
  by_cases hone : f.num = f.den
  · rcases @prepareLeaderEligibility_of_one fuel poolStake totalStake f mode hf htotal hone with
      ⟨state, hstate, hc⟩
    have hzero : e34Scale - f.num * e34Scale / f.den = 0 := by
      have hden : (f.den : Int) ≠ 0 := Int.natCast_ne_zero.mpr f.den_ne_zero
      rw [hone, Int.mul_ediv_cancel_left _ hden, sub_self]
    rw [hzero, hstate]
    have hother : (0 : Int) ∉ raisedEnds := by decide
    exact ⟨fun _ => hother, fun _ => ⟨state, rfl, hc.le⟩⟩
  · rcases @prepareLeaderEligibility_of_valid fuel poolStake totalStake f mode hf htotal hone with
      ⟨prepared, hc, hprepare⟩
    rcases complement_bounds hf hone with ⟨hlow, hhigh⟩
    rw [hprepare]
    constructor
    · rintro ⟨state, hstate, -⟩ hraised
      rw [e34Ln_raisedEnds hfuel hraised] at hstate
      cases hstate
    · intro hother
      rcases e34Ln_total hfuel hlow hhigh hother with ⟨c, hln, hle⟩
      refine ⟨prepared c, ?_, ?_⟩
      · rw [hln]
        rfl
      · rw [hc]
        exact hle

def halfCoefficient : Rat := 1 / 2

theorem leader_eligibility_total_iff_half :
    ∃ state, (newLeaderEligibility 8 emptyCache 1 2 (some halfCoefficient) .tPraos).1 = .ok state ∧
      state.c ≤ 0 := by
  have hvalid : validateActiveSlotCoefficient (some halfCoefficient) = .ok () := by decide +kernel
  have hother : ¬ (⌊halfCoefficient * 10 ^ 34⌋ = 8646647167633873081060004983516340 ∨
      ⌊halfCoefficient * 10 ^ 34⌋ = 9816843611112658197062819769197942) := by decide +kernel
  exact (leader_eligibility_total_iff le_rfl (emptyCache_sound 8) 1 2 (by decide) halfCoefficient
    hvalid .tPraos (.inr rfl)).mpr hother

def refusedCoefficient : Rat := 65100916553150251 / 75290358552892017

/-- It passes the check of coefficients, and has no leader check. -/
theorem leader_eligibility_refused :
    validateActiveSlotCoefficient (some refusedCoefficient) = .ok () ∧
      (newLeaderEligibility 8 emptyCache 1 1 (some refusedCoefficient) .cPraos).1 =
        .error (.arithmetic .continuedFractionNegative) := by
  have hvalid : validateActiveSlotCoefficient (some refusedCoefficient) = .ok () := by
    decide +kernel
  have hne : refusedCoefficient.num ≠ refusedCoefficient.den := by decide +kernel
  have hraised : e34Scale - refusedCoefficient.num * e34Scale / refusedCoefficient.den ∈
      raisedEnds := by decide +kernel
  refine ⟨hvalid, ?_⟩
  rcases @prepareLeaderEligibility_of_valid 8 1 1 _ .cPraos hvalid (by decide) hne with
    ⟨prepared, -, hprepare⟩
  rw [newLeaderEligibility_of_valid hvalid (emptyCache_sound 8) (by decide) (.inl rfl), hprepare,
    e34Ln_raisedEnds le_rfl hraised]
  rfl

end Gouroboros.Consensus

import Mathlib.Algebra.Order.Floor.Ring
import Mathlib.Data.Rat.Floor
import Gouroboros.Lib.ExceptFold
import Gouroboros.Lib.TieredSum
import Gouroboros.Ledger.Common.Types

/-!
# The fee for reference scripts

`ledger/conway/ref_scripts.go`: the fee goes up by a factor from tier to tier, is added up in exact
rationals and rounded down once. `feeLoop_eq` is the one induction along the loop; everything else
is about the sum `TieredSum.tiered`. `MinFeeTx` does not see the size of the scripts, so what it
returned is an argument here; it is also where parameters of another era are turned away.
-/

namespace Gouroboros.Ledger

open TieredSum ExceptFold

def feeLoop (stride : Nat) (hstride : stride ≠ 0) (multiplier price total : ℚ) (remaining : Nat) :
    ℚ :=
  if remaining = 0 then total
  else
    let tierSize := min remaining stride
    feeLoop stride hstride multiplier (price * multiplier) (total + price * tierSize)
      (remaining - tierSize)
termination_by remaining
decreasing_by omega

/-- `CalculateRefScriptFee`. A nil rational is `none`. -/
def calculateRefScriptFee (scriptSize : UInt64) (baseCost : Option ℚ) (stride : UInt64)
    (multiplier : Option ℚ) : Except LedgerError UInt64 :=
  if scriptSize = 0 then .ok 0
  else
    match baseCost.filter (0 ≤ ·) with
    | none => .error (.message "invalid reference-script base cost")
    | some base =>
      if hstride : stride.toNat = 0 then
        .error (.message "reference-script cost stride must be greater than zero")
      else
        match multiplier.filter (0 < ·) with
        | none => .error (.message "invalid reference-script cost multiplier")
        | some m =>
          let total := feeLoop stride.toNat hstride m base 0 scriptSize.toNat
          let fee := total.num.tdiv total.den
          match uint64? fee with
          | none => .error (.message s!"reference-script fee overflow: {fee}")
          | some fee => .ok fee

def refScriptCostStride : UInt64 := 25600

/-- `MinFeeTxWithRefScriptSize`, given what `MinFeeTx` returns. -/
def minFeeTxWithRefScriptSize (minFeeTx : Except LedgerError UInt64)
    (minFeeRefScriptCostPerByte : Option ℚ) (scriptSize : UInt64) : Except LedgerError UInt64 := do
  let baseFee ← minFeeTx
  let refScriptFee ←
    calculateRefScriptFee scriptSize minFeeRefScriptCostPerByte refScriptCostStride (some (6 / 5))
  if baseFee.toNat > 2 ^ 64 - 1 - refScriptFee.toNat then
    .error (.message "minimum transaction fee overflow")
  else .ok (baseFee + refScriptFee)

/-! ## The loop adds up the tiers -/

theorem feeLoop_eq {stride : Nat} (hstride : stride ≠ 0) (m price total : ℚ) (remaining : Nat) :
    feeLoop stride hstride m price total remaining = total + price * tiered stride m remaining := by
  fun_induction feeLoop with
  | case1 price total => simp [tiered]
  | case2 price total remaining hremaining tierSize ih =>
    rw [ih]
    rcases Nat.le_total remaining stride with hlast | hmore
    · have htier : tierSize = remaining := min_eq_left hlast
      rw [htier, Nat.sub_self, tiered_of_le hlast]
      simp [tiered]
    · have htier : tierSize = stride := min_eq_right hmore
      obtain ⟨rest, rfl⟩ := Nat.exists_eq_add_of_le hmore
      rw [htier, Nat.add_sub_cancel_left, tiered_stride_add (Nat.pos_of_ne_zero hstride)]
      ring

/-! ## The fee -/

theorem uint64?_eq_some {n : ℤ} {x : UInt64} : uint64? n = some x ↔ (x.toNat : ℤ) = n := by
  constructor
  · intro h
    unfold uint64? at h
    split at h
    next hrange =>
      injection h with h
      rw [← h, UInt64.toNat_ofNat_of_lt' (by omega : n.toNat < 2 ^ 64), Int.toNat_of_nonneg hrange.1]
    next => cases h
  · rintro rfl
    exact uint64?_natCast x

section Fee
variable {base m : ℚ} {stride size size' fee fee' : UInt64}

def refScriptCost (base m : ℚ) (stride size : UInt64) : ℚ := base * tiered stride.toNat m size.toNat

theorem refScriptCost_nonneg (hbase : 0 ≤ base) (hm : 0 < m) (stride size : UInt64) :
    0 ≤ refScriptCost base m stride size :=
  mul_nonneg hbase (tiered_nonneg hm.le _)

theorem quo_eq_floor {q : ℚ} (h : 0 ≤ q) : q.num.tdiv q.den = ⌊q⌋ := by
  rw [Int.tdiv_eq_ediv_of_nonneg (Rat.num_nonneg.mpr h), Rat.floor_def']

theorem calculateRefScriptFee_eq_ok (hsize : size ≠ 0) :
    calculateRefScriptFee size (some base) stride (some m) = .ok fee ↔
      (0 ≤ base ∧ stride ≠ 0 ∧ 0 < m) ∧ (fee.toNat : ℤ) = ⌊refScriptCost base m stride size⌋ := by
  unfold calculateRefScriptFee
  rw [if_neg hsize]
  by_cases hbase : 0 ≤ base
  swap
  · simp [Option.filter, hbase]
  by_cases hstride : stride.toNat = 0
  · have hzero : stride = 0 := UInt64.toNat_inj.mp hstride
    simp [Option.filter, hbase, hzero]
  have hne : stride ≠ 0 := fun h => hstride (h ▸ rfl)
  by_cases hm : 0 < m
  swap
  · simp [Option.filter, hbase, hstride, hm]
  have hcost : feeLoop stride.toNat hstride m base 0 size.toNat =
      refScriptCost base m stride size := by
    rw [feeLoop_eq, zero_add, refScriptCost]
  simp only [Option.filter, hbase, hm, decide_true, if_true, dif_neg hstride, hcost,
    quo_eq_floor (refScriptCost_nonneg hbase hm stride size), hne, ne_eq, not_false_eq_true,
    and_self, true_and]
  rw [← uint64?_eq_some]
  cases uint64? ⌊refScriptCost base m stride size⌋ with
  | none => simp
  | some fee => simp

theorem calculateRefScriptFee_zero : calculateRefScriptFee 0 (some base) stride (some m) = .ok 0 :=
  rfl

theorem calculateRefScriptFee_floor
    (h : calculateRefScriptFee size (some base) stride (some m) = .ok fee) :
    (fee.toNat : ℤ) = ⌊refScriptCost base m stride size⌋ := by
  by_cases hsize : size = 0
  · subst hsize
    injection h with h
    simp [← h, refScriptCost, tiered]
  · exact ((calculateRefScriptFee_eq_ok hsize).mp h).2

theorem calculateRefScriptFee_mono (hle : size ≤ size')
    (h : calculateRefScriptFee size' (some base) stride (some m) = .ok fee') :
    ∃ fee, calculateRefScriptFee size (some base) stride (some m) = .ok fee ∧ fee ≤ fee' := by
  by_cases hsize : size = 0
  · exact ⟨0, hsize ▸ calculateRefScriptFee_zero, UInt64.zero_le⟩
  have hsize' : size' ≠ 0 := by
    rintro rfl
    exact hsize (UInt64.le_zero_iff.mp hle)
  obtain ⟨⟨hbase, hstride, hm⟩, hfee'⟩ := (calculateRefScriptFee_eq_ok hsize').mp h
  have hcost : refScriptCost base m stride size ≤ refScriptCost base m stride size' :=
    mul_le_mul_of_nonneg_left (tiered_mono hm.le (UInt64.le_iff_toNat_le.mp hle)) hbase
  have hfloor := Int.floor_le_floor hcost
  have hnonneg := Int.floor_nonneg.mpr (refScriptCost_nonneg hbase hm stride size)
  have hlt := fee'.toNat_lt
  obtain ⟨n, hn⟩ := Int.eq_ofNat_of_zero_le hnonneg
  have hsmall : (UInt64.ofNat n).toNat = n := UInt64.toNat_ofNat_of_lt (by show n < 2 ^ 64; omega)
  refine ⟨.ofNat n, (calculateRefScriptFee_eq_ok hsize).mpr ⟨⟨hbase, hstride, hm⟩, ?_⟩, ?_⟩
  · rw [hsmall, hn]
  · rw [UInt64.le_iff_toNat_le, hsmall]
    omega

theorem calculateRefScriptFee_add (hm : 1 ≤ m) (hsum : size.toNat + size'.toNat < 2 ^ 64)
    {both : UInt64}
    (h : calculateRefScriptFee (size + size') (some base) stride (some m) = .ok both) :
    ∃ fee fee', calculateRefScriptFee size (some base) stride (some m) = .ok fee ∧
      calculateRefScriptFee size' (some base) stride (some m) = .ok fee' ∧
      fee.toNat + fee'.toNat ≤ both.toNat := by
  have htoNat : (size + size').toNat = size.toNat + size'.toNat := by
    rw [UInt64.toNat_add, Nat.mod_eq_of_lt hsum]
  have hle : size ≤ size + size' ∧ size' ≤ size + size' := by
    rw [UInt64.le_iff_toNat_le, UInt64.le_iff_toNat_le, htoNat]
    omega
  obtain ⟨fee, hfee, -⟩ := calculateRefScriptFee_mono hle.1 h
  obtain ⟨fee', hfee', -⟩ := calculateRefScriptFee_mono hle.2 h
  refine ⟨fee, fee', hfee, hfee', ?_⟩
  by_cases hsize : size = 0
  · subst hsize
    rw [UInt64.zero_add, hfee'] at h
    cases hfee
    cases h
    exact (Nat.zero_add _).le
  have hbase := ((calculateRefScriptFee_eq_ok hsize).mp hfee).1.1
  have hcost : refScriptCost base m stride size + refScriptCost base m stride size' ≤
      refScriptCost base m stride (size + size') := by
    unfold refScriptCost
    rw [← mul_add, htoNat]
    exact mul_le_mul_of_nonneg_left (tiered_add_le hm _ _) hbase
  -- the two roundings lose no less than the one
  have hfloor := (Int.le_floor_add _ _).trans (Int.floor_le_floor hcost)
  rw [← calculateRefScriptFee_floor h, ← calculateRefScriptFee_floor hfee,
    ← calculateRefScriptFee_floor hfee'] at hfloor
  omega

theorem minFeeTxWithRefScriptSize_mono {minFeeTx : Except LedgerError UInt64}
    {costPerByte : Option ℚ} (hle : size ≤ size')
    (h : minFeeTxWithRefScriptSize minFeeTx costPerByte size' = .ok fee') :
    ∃ fee, minFeeTxWithRefScriptSize minFeeTx costPerByte size = .ok fee ∧ fee ≤ fee' := by
  unfold minFeeTxWithRefScriptSize at h ⊢
  obtain ⟨baseFee, hbaseFee, h⟩ := bind_eq_ok.mp h
  obtain ⟨refFee', hrefFee', h⟩ := bind_eq_ok.mp h
  obtain ⟨hfits, h⟩ := guard_eq_ok.mp h
  have hrefFee : ∃ refFee, calculateRefScriptFee size costPerByte refScriptCostStride
      (some (6 / 5)) = .ok refFee ∧ refFee ≤ refFee' := by
    cases costPerByte with
    | some base => exact calculateRefScriptFee_mono hle hrefFee'
    | none =>
      -- without a price only the size zero is let through
      by_cases hsize' : size' = 0
      · subst hsize'
        exact ⟨refFee', UInt64.le_zero_iff.mp hle ▸ hrefFee', UInt64.le_refl _⟩
      · simp [calculateRefScriptFee, hsize'] at hrefFee'
  obtain ⟨refFee, hrefFee, hfees⟩ := hrefFee
  injection h with h
  have hlt := refFee'.toNat_lt
  rw [UInt64.le_iff_toNat_le] at hfees
  rw [hbaseFee, ok_bind, hrefFee, ok_bind, if_neg (by omega)]
  refine ⟨_, rfl, ?_⟩
  rw [← h, UInt64.le_iff_toNat_le, UInt64.toNat_add, UInt64.toNat_add, Nat.mod_eq_of_lt (by omega),
    Nat.mod_eq_of_lt (by omega)]
  omega

end Fee

/-- The fee for reference scripts is the closed form, rounded down; it does not fall when the size
grows, and does not fall when two sizes are put together. -/
theorem ref_script_fee_tiered (base m : ℚ) (stride : UInt64) :
    (∀ size fee, calculateRefScriptFee size (some base) stride (some m) = .ok fee →
      (fee.toNat : ℤ) = ⌊base * (stride.toNat * ∑ k ∈ Finset.range (size.toNat / stride.toNat), m ^ k +
        (size.toNat % stride.toNat : Nat) * m ^ (size.toNat / stride.toNat))⌋) ∧
    (∀ size size' fee', size ≤ size' →
      calculateRefScriptFee size' (some base) stride (some m) = .ok fee' →
      ∃ fee, calculateRefScriptFee size (some base) stride (some m) = .ok fee ∧ fee ≤ fee') ∧
    (1 ≤ m → ∀ a b both, a.toNat + b.toNat < 2 ^ 64 →
      calculateRefScriptFee (a + b) (some base) stride (some m) = .ok both →
      ∃ feeA feeB, calculateRefScriptFee a (some base) stride (some m) = .ok feeA ∧
        calculateRefScriptFee b (some base) stride (some m) = .ok feeB ∧
        feeA.toNat + feeB.toNat ≤ both.toNat) ∧
    ∀ minFeeTx costPerByte size size' fee', size ≤ size' →
      minFeeTxWithRefScriptSize minFeeTx costPerByte size' = .ok fee' →
      ∃ fee, minFeeTxWithRefScriptSize minFeeTx costPerByte size = .ok fee ∧ fee ≤ fee' := by
  refine ⟨?_, ?_, ?_, ?_⟩
  · intro size fee h
    rw [calculateRefScriptFee_floor h, refScriptCost, tiered_eq]
  · intro size size' fee' hle h
    exact calculateRefScriptFee_mono hle h
  · intro hm a b both hsum h
    exact calculateRefScriptFee_add hm hsum h
  · intro minFeeTx costPerByte size size' fee' hle h
    exact minFeeTxWithRefScriptSize_mono hle h

/-- A second tier of 4400 bytes at the mainnet price, and the same bytes in two lots. -/
theorem ref_script_fee_tiered_twoTiers :
    ((463200 : Nat) : ℤ) =
      ⌊(15 : ℚ) * ((25600 : Nat) * ∑ k ∈ Finset.range 1, (6 / 5) ^ k + (4400 : Nat) * (6 / 5) ^ 1)⌋ ∧
    ∃ feeA feeB, calculateRefScriptFee 10000 (some 15) 25600 (some (6 / 5)) = .ok feeA ∧
      calculateRefScriptFee 20000 (some 15) 25600 (some (6 / 5)) = .ok feeB ∧
      feeA.toNat + feeB.toNat ≤ 463200 := by
  have hfee : calculateRefScriptFee 30000 (some 15) 25600 (some (6 / 5)) = .ok 463200 := by
    rw [calculateRefScriptFee_eq_ok (by decide), refScriptCost, tiered_eq]
    refine ⟨⟨by norm_num, by decide, by norm_num⟩, ?_⟩
    show ((463200 : Nat) : ℤ) =
      ⌊(15 : ℚ) * ((25600 : Nat) * ∑ k ∈ Finset.range 1, (6 / 5) ^ k + (4400 : Nat) * (6 / 5) ^ 1)⌋
    norm_num
  obtain ⟨hclosed, -, hsplit, -⟩ := ref_script_fee_tiered 15 (6 / 5) 25600
  exact ⟨hclosed 30000 463200 hfee, hsplit (by norm_num) 10000 20000 463200 (by decide) hfee⟩

end Gouroboros.Ledger

import Mathlib.Data.Rat.Floor

/-!
# Byron minimum fees

The linear fee of a Byron transaction is computed twice: with 128-bit words and saturation by
consensus (`consensus/byron/byron.go`), with big integers by the ledger
(`ledger/common/verify_config.go`). A policy is in units of `10^-9` lovelace. A word is a number
that every operation reduces modulo `2^64`; the operations on two words are those of `math/bits`,
and the panic of `bits.Div64` is `none`.
-/

namespace Gouroboros.Ledger

structure ByronTxFeePolicy where
  summand : Nat
  multiplier : Nat
deriving DecidableEq

def ByronTxFeePolicy.minFee (p : ByronTxFeePolicy) (txSize : Int) : Int :=
  let total := p.multiplier * txSize + p.summand
  let quotient := total.tdiv 1000000000
  let remainder := total.tmod 1000000000
  if 0 < remainder.sign then quotient + 1 else quotient

end Gouroboros.Ledger

namespace Gouroboros.Consensus.Byron

/-- `bits.Mul64`: the high and the low word of a product. -/
def Words.mul64 (x y : Nat) : Nat × Nat := (x * y / 2 ^ 64, x * y % 2 ^ 64)

/-- `bits.Add64`: the low word of a sum and its carry. -/
def Words.add64 (x y carry : Nat) : Nat × Nat := ((x + y + carry) % 2 ^ 64, (x + y + carry) / 2 ^ 64)

/-- `bits.Div64`: quotient and remainder, when the quotient is a word. -/
def Words.div64 (hi lo y : Nat) : Option (Nat × Nat) :=
  if y ≤ hi then none else some ((hi * 2 ^ 64 + lo) / y, (hi * 2 ^ 64 + lo) % y)

/-- The fields are signed. -/
structure ByronTxFeePolicy where
  summand : Int
  multiplier : Int
deriving DecidableEq

def byronFeeDivisor : Nat := 1000000000

def ByronTxFeePolicy.calculateMinFee (p : ByronTxFeePolicy) (txSizeBytes : Nat) : Option Nat :=
  if p.summand = 0 ∧ p.multiplier = 0 then some 0
  else if p.summand < 0 ∨ p.multiplier < 0 then some 0
  else
    let (high, low) := Words.mul64 p.multiplier.toNat txSizeBytes
    let (low, carry) := Words.add64 low p.summand.toNat 0
    let high := (high + carry) % 2 ^ 64
    if byronFeeDivisor ≤ high then some (2 ^ 64 - 1)
    else do
      let (fee, remainder) ← Words.div64 high low byronFeeDivisor
      if remainder ≠ 0 ∧ fee < 2 ^ 64 - 1 then some ((fee + 1) % 2 ^ 64) else some fee

def roundedFee (total : Nat) : Nat := (total + 999999999) / 1000000000

theorem minFee_eq (summand multiplier size : Nat) :
    Ledger.ByronTxFeePolicy.minFee ⟨summand, multiplier⟩ size =
      roundedFee (multiplier * size + summand) := by
  have htotal : (multiplier * size + summand : Int) = (multiplier * size + summand : Nat) := by
    push_cast
    rfl
  rw [Ledger.ByronTxFeePolicy.minFee, htotal, roundedFee]
  generalize multiplier * size + summand = total
  have htotal := Int.natCast_nonneg total
  simp only [Int.sign_pos_iff, Int.tdiv_eq_ediv_of_nonneg htotal, Int.tmod_eq_emod_of_nonneg htotal]
  split <;> omega

theorem calculateMinFee_eq {summand multiplier size : Nat} (hsummand : summand < 2 ^ 63)
    (hmultiplier : multiplier < 2 ^ 63) (hsize : size < 2 ^ 63) :
    ByronTxFeePolicy.calculateMinFee ⟨summand, multiplier⟩ size =
      some (min (2 ^ 64 - 1) (roundedFee (multiplier * size + summand))) := by
  have hproduct : multiplier * size ≤ 2 ^ 63 * 2 ^ 63 := Nat.mul_le_mul hmultiplier.le hsize.le
  rw [ByronTxFeePolicy.calculateMinFee]
  by_cases hzero : summand = 0 ∧ multiplier = 0
  · rcases hzero with ⟨rfl, rfl⟩
    simp [roundedFee]
  rw [if_neg (show ¬ ((summand : Int) = 0 ∧ (multiplier : Int) = 0) by omega),
    if_neg (show ¬ ((summand : Int) < 0 ∨ (multiplier : Int) < 0) by omega)]
  have hhigh : (multiplier * size / 2 ^ 64 + (multiplier * size % 2 ^ 64 + summand + 0) / 2 ^ 64) %
      2 ^ 64 = (multiplier * size + summand) / 2 ^ 64 := by omega
  have hlow : (multiplier * size % 2 ^ 64 + summand + 0) % 2 ^ 64 =
      (multiplier * size + summand) % 2 ^ 64 := by omega
  simp only [Words.mul64, Words.add64, Int.toNat_natCast, hhigh, hlow]
  clear hhigh hlow hproduct
  generalize multiplier * size + summand = total
  unfold roundedFee byronFeeDivisor
  split
  next hsaturated =>
    congr 1
    omega
  next hfits =>
    rw [Words.div64, if_neg hfits, Nat.div_add_mod']
    simp only [bind, Option.bind]
    -- the ceiling adds one to an inexact quotient, and saturates with it
    have hquotient : total / 1000000000 < 2 ^ 64 := by omega
    clear hfits
    split
    all_goals
      congr 1
      omega

/-- Both are the fee rounded up, in consensus up to `2^64 - 1`: `bits.Div64` does not panic, and
neither falls when an argument grows. -/
theorem byron_min_fees_agree (summand multiplier size : Nat) (hsummand : summand < 2 ^ 63)
    (hmultiplier : multiplier < 2 ^ 63) (hsize : size < 2 ^ 63) :
    Ledger.ByronTxFeePolicy.minFee ⟨summand, multiplier⟩ size =
      ⌈((summand + multiplier * size : Nat) : ℚ) / (10 ^ 9 : Nat)⌉ ∧
    ∃ fee, ByronTxFeePolicy.calculateMinFee ⟨summand, multiplier⟩ size = some fee ∧
      fee = min (2 ^ 64 - 1) (Ledger.ByronTxFeePolicy.minFee ⟨summand, multiplier⟩ size) ∧
      ∀ summand' multiplier' size', summand ≤ summand' → summand' < 2 ^ 63 →
        multiplier ≤ multiplier' → multiplier' < 2 ^ 63 → size ≤ size' → size' < 2 ^ 63 →
        Ledger.ByronTxFeePolicy.minFee ⟨summand, multiplier⟩ size ≤
          Ledger.ByronTxFeePolicy.minFee ⟨summand', multiplier'⟩ size' ∧
        ∃ fee', ByronTxFeePolicy.calculateMinFee ⟨summand', multiplier'⟩ size' = some fee' ∧
          fee ≤ fee' := by
  refine ⟨?_, _, calculateMinFee_eq hsummand hmultiplier hsize, ?_, ?_⟩
  · rw [minFee_eq, Rat.ceil_natCast_div_natCast, roundedFee]
    omega
  · rw [minFee_eq, Nat.cast_min]
    rfl
  · intro summand' multiplier' size' hs hs' hm hm' hn hn'
    have hmono : roundedFee (multiplier * size + summand) ≤
        roundedFee (multiplier' * size' + summand') :=
      Nat.div_le_div_right (Nat.add_le_add_right (Nat.add_le_add (Nat.mul_le_mul hm hn) hs) _)
    rw [minFee_eq, minFee_eq]
    exact ⟨Int.ofNat_le.mpr hmono, _, calculateMinFee_eq hs' hm' hn', min_le_min_left _ hmono⟩

/-- The mainnet policy, for 200 bytes. -/
theorem byron_min_fees_agree_mainnet :
    ∃ fee : Nat, ByronTxFeePolicy.calculateMinFee ⟨155381000000000, 43946000000⟩ 200 = some fee ∧
      fee = min (2 ^ 64 - 1)
        (Ledger.ByronTxFeePolicy.minFee ⟨155381000000000, 43946000000⟩ 200) := by
  rcases byron_min_fees_agree 155381000000000 43946000000 200 (by decide) (by decide) (by decide)
    with ⟨-, fee, hfee, hagree, -⟩
  exact ⟨fee, hfee, hagree⟩

end Gouroboros.Consensus.Byron

import Gouroboros.Ledger.Common.RewardDistribution

/-!
# The pots over a sequence of epochs

An epoch is `calculateAdaPots` followed by `calculateRewards` on the pots it
returns (`runEpoch`). `calculateAdaPots` moves the expansion out of the reserves
and splits it, with the fees, between the treasury and a new rewards pot without
wrapping around (`PotsMove`). It does not read the old rewards pot: what an
earlier epoch left in it is gone (`ada_conserved_iff`).
-/

namespace Gouroboros.Ledger.Rewards

open ExceptFold

/-- What one epoch is run with. The two calls may be given different parameters. -/
structure Epoch where
  potParameters : RewardParameters
  epochFees : UInt64
  totalBlocksInEpoch : UInt32
  snapshot : RewardSnapshot
  rewardParameters : RewardParameters

/-- Rates within one. A Go map has fewer than `2 ^ 63` entries. -/
structure EpochBounds (e : Epoch) : Prop where
  monetaryExpansion : e.potParameters.monetaryExpansion ≤ 1000000
  treasuryGrowth : e.potParameters.treasuryGrowth ≤ 10000
  poolStake : e.snapshot.poolStake.keys.length < 2 ^ 63

structure Books where
  pots : AdaPots
  paid : Nat
deriving DecidableEq

def AdaPots.total (pots : AdaPots) : Nat :=
  pots.reserves.toNat + pots.treasury.toNat + pots.rewards.toNat

def Books.total (s : Books) : Nat := s.pots.total + s.paid

def runEpoch (s : Books) (e : Epoch) : Except RewardError Books := do
  let pots ← calculateAdaPots s.pots e.potParameters e.epochFees e.totalBlocksInEpoch
  let result ← calculateRewards pots e.snapshot e.rewardParameters
  .ok
    { pots := result.updatedPots
      paid := s.paid + (result.poolRewards.values.map fun rewards => rewards.totalRewards.toNat).sum }

def booksAfter (start : AdaPots) (epochs : List Epoch) : Except RewardError Books :=
  epochs.foldlM runEpoch ⟨start, 0⟩

def feesOf (epochs : List Epoch) : Nat := (epochs.map fun e => e.epochFees.toNat).sum

/-! ## One call of `calculateAdaPots` -/

theorem calculateEta_mem {blocks : UInt32} {params : RewardParameters} {eta : ℚ}
    (h : calculateEta blocks params = .ok eta) : 0 ≤ eta ∧ eta ≤ 1 := by
  unfold calculateEta at h
  split at h
  · cases h
  · split at h
    · cases h
    · rename_i hcoeff
      rw [not_le] at hcoeff
      split at h
      · cases h
      · cases h
        split
        · exact ⟨zero_le_one, le_refl _⟩
        · rename_i hle
          exact ⟨by positivity, not_lt.mp hle⟩

theorem monetaryExpansionOf_mem {params : RewardParameters} {eta : ℚ} (pots : AdaPots)
    (hrate : params.monetaryExpansion ≤ 1000000) (heta : 0 ≤ eta ∧ eta ≤ 1) :
    0 ≤ monetaryExpansionOf pots params eta ∧
      monetaryExpansionOf pots params eta ≤ pots.reserves.toNat := by
  have hrateNat : params.monetaryExpansion.toNat ≤ 1000000 := UInt64.le_iff_toNat_le.mp hrate
  have hden : (0 : ℤ) < eta.den := by exact_mod_cast eta.den_pos
  have hnum : 0 ≤ eta.num := Rat.num_nonneg.mpr heta.1
  have hnumle : eta.num ≤ eta.den := by
    have hle : (eta.num : ℚ) / eta.den ≤ 1 := by
      rw [Rat.num_div_den]
      exact heta.2
    rw [div_le_one (by exact_mod_cast eta.den_pos)] at hle
    exact_mod_cast hle
  unfold monetaryExpansionOf
  -- the millionths first
  have hbase : ((params.monetaryExpansion.toNat : ℤ) * pots.reserves.toNat) / 1000000 ≤
      pots.reserves.toNat := by
    apply Int.ediv_le_of_le_mul (by norm_num)
    rw [mul_comm]
    exact mul_le_mul_of_nonneg_left (by exact_mod_cast hrateNat) (Int.natCast_nonneg _)
  have hbase0 : 0 ≤ ((params.monetaryExpansion.toNat : ℤ) * pots.reserves.toNat) / 1000000 := by
    positivity
  generalize ((params.monetaryExpansion.toNat : ℤ) * pots.reserves.toNat) / 1000000 = base
    at hbase hbase0 ⊢
  constructor
  · exact Int.ediv_nonneg (mul_nonneg hbase0 hnum) hden.le
  · calc base * eta.num / eta.den
        ≤ base * eta.den / eta.den :=
          Int.ediv_le_ediv hden (mul_le_mul_of_nonneg_left hnumle hbase0)
      _ = base := Int.mul_ediv_cancel base hden.ne'
      _ ≤ pots.reserves.toNat := hbase

theorem treasuryContribution_mem {growth : Nat} {pot : ℤ} (hgrowth : growth ≤ 10000)
    (hpot : 0 ≤ pot) : 0 ≤ growth * pot / 10000 ∧ growth * pot / 10000 ≤ pot := by
  constructor
  · positivity
  · apply Int.ediv_le_of_le_mul (by norm_num)
    rw [mul_comm]
    exact mul_le_mul_of_nonneg_left (by exact_mod_cast hgrowth) hpot

/-- How the pots move, as integers: the expansion leaves the reserves, and the
treasury's part of it and of the fees does not go to the rewards. -/
structure PotsMove (pots : AdaPots) (e : Epoch) (next : AdaPots) (expansion contribution : ℤ) :
    Prop where
  expansion_eq : ∃ eta, calculateEta e.totalBlocksInEpoch e.potParameters = .ok eta ∧
    expansion = monetaryExpansionOf pots e.potParameters eta
  contribution_eq : contribution =
    e.potParameters.treasuryGrowth.toNat * (e.epochFees.toNat + expansion) / 10000
  reserves : (next.reserves.toNat : ℤ) = pots.reserves.toNat - expansion
  treasury : (next.treasury.toNat : ℤ) = pots.treasury.toNat + contribution
  rewards : (next.rewards.toNat : ℤ) = e.epochFees.toNat + expansion - contribution

theorem potsMove_of_calculateAdaPots {pots next : AdaPots} {e : Epoch} (hbounds : EpochBounds e)
    (hfits : pots.total + e.epochFees.toNat < 2 ^ 64)
    (h : calculateAdaPots pots e.potParameters e.epochFees e.totalBlocksInEpoch = .ok next) :
    ∃ expansion contribution, PotsMove pots e next expansion contribution := by
  obtain ⟨eta, heta, h⟩ := bind_eq_ok.mp h
  cases h
  have hexpansion := monetaryExpansionOf_mem pots hbounds.monetaryExpansion (calculateEta_mem heta)
  have hgrowth : e.potParameters.treasuryGrowth.toNat ≤ 10000 :=
    UInt64.le_iff_toNat_le.mp hbounds.treasuryGrowth
  unfold AdaPots.total at hfits
  generalize hexpansionOf : monetaryExpansionOf pots e.potParameters eta = expansion at hexpansion ⊢
  obtain ⟨hexpansion0, hexpansionle⟩ := hexpansion
  -- the treasury's part is a part of the fees and the expansion
  have hcontribution := treasuryContribution_mem hgrowth
    (add_nonneg (Int.natCast_nonneg e.epochFees.toNat) hexpansion0)
  generalize hcontributionOf : (e.potParameters.treasuryGrowth.toNat : ℤ) *
    (e.epochFees.toNat + expansion) / 10000 = contribution at hcontribution ⊢
  obtain ⟨hcontribution0, hcontributionle⟩ := hcontribution
  refine ⟨expansion, contribution, ⟨eta, heta, hexpansionOf.symm⟩, hcontributionOf.symm, ?_, ?_, ?_⟩
  · rw [if_neg (by omega), toNat_bigUint64 (by omega) (by omega)]
  · have hbig := toNat_bigUint64 hcontribution0 (by omega)
    rw [UInt64.toNat_add, Nat.mod_eq_of_lt (by omega)]
    omega
  · rw [toNat_bigUint64 (by omega) (by omega)]

/-! ## One epoch -/

/-- An epoch loses exactly the rewards pot it started from. -/
theorem runEpoch_total {s s' : Books} {e : Epoch} (hbounds : EpochBounds e)
    (hfits : s.pots.total + e.epochFees.toNat < 2 ^ 64) (h : runEpoch s e = .ok s') :
    s'.total + s.pots.rewards.toNat = s.total + e.epochFees.toNat := by
  obtain ⟨pots, hpots, h⟩ := bind_eq_ok.mp h
  obtain ⟨result, hresult, h⟩ := bind_eq_ok.mp h
  cases h
  obtain ⟨expansion, contribution, hmove⟩ := potsMove_of_calculateAdaPots hbounds hfits hpots
  have hspent := potSpent_of_calculateRewards hresult hbounds.poolStake
  have hpot := hspent.pot
  have hreserves := hmove.reserves
  have htreasury := hmove.treasury
  have hrewards := hmove.rewards
  unfold Books.total AdaPots.total
  dsimp only
  rw [hspent.reserves, hspent.treasury]
  omega

/-! ## Sequences of epochs -/

section Runs

variable {start : AdaPots} {epochs before : List Epoch}

theorem booksAfter_append_singleton (start : AdaPots) (before : List Epoch) (e : Epoch) :
    booksAfter start (before ++ [e]) = booksAfter start before >>= fun s => runEpoch s e := by
  unfold booksAfter
  simp

theorem feesOf_append_singleton (before : List Epoch) (e : Epoch) :
    feesOf (before ++ [e]) = feesOf before + e.epochFees.toNat := by
  simp [feesOf]

theorem feesOf_mono (h : before <+: epochs) : feesOf before ≤ feesOf epochs := by
  obtain ⟨rest, rfl⟩ := h
  simp [feesOf]

variable {s last : Books}

theorem booksAfter_total_le (hbounds : ∀ e ∈ before, EpochBounds e)
    (hfits : start.total + feesOf before < 2 ^ 64) (hrun : booksAfter start before = .ok s) :
    s.total ≤ start.total + feesOf before := by
  induction before using List.reverseRecOn generalizing s with
  | nil =>
    cases hrun
    exact Nat.le_refl _
  | append_singleton before e ih =>
    rw [booksAfter_append_singleton] at hrun
    obtain ⟨mid, hmid, hstep⟩ := bind_eq_ok.mp hrun
    rw [feesOf_append_singleton] at hfits ⊢
    have hle := ih (fun e he => hbounds e (List.mem_append_left _ he)) (by omega) hmid
    have hpots : mid.pots.total ≤ mid.total := Nat.le_add_right _ _
    have hstep := runEpoch_total (hbounds e (by simp)) (by omega) hstep
    omega

theorem exists_booksAfter (h : before <+: epochs)
    (hrun : booksAfter start epochs = .ok last) : ∃ s, booksAfter start before = .ok s := by
  obtain ⟨rest, rfl⟩ := h
  unfold booksAfter at hrun
  rw [List.foldlM_append] at hrun
  obtain ⟨s, hs, _⟩ := bind_eq_ok.mp hrun
  exact ⟨s, hs⟩

section

variable (hbounds : ∀ e ∈ epochs, EpochBounds e) (hfits : start.total + feesOf epochs < 2 ^ 64)
include hbounds hfits

section

variable {e : Epoch} (hpre : before ++ [e] <+: epochs) (hrun : booksAfter start before = .ok s)
include hpre hrun

theorem booksAfter_fits : s.pots.total + e.epochFees.toNat < 2 ^ 64 := by
  have hbefore : before <+: epochs := (List.prefix_append before [e]).trans hpre
  have hfees := feesOf_mono hpre
  rw [feesOf_append_singleton] at hfees
  have hle := booksAfter_total_le (fun e he => hbounds e (hbefore.subset he)) (by omega) hrun
  have hpots : s.pots.total ≤ s.total := Nat.le_add_right _ _
  omega

theorem booksAfter_step {s' : Books} (hrun' : booksAfter start (before ++ [e]) = .ok s') :
    s'.total + s.pots.rewards.toNat = s.total + e.epochFees.toNat := by
  rw [booksAfter_append_singleton, hrun] at hrun'
  exact runEpoch_total (hbounds e (hpre.subset (by simp)))
    (booksAfter_fits hbounds hfits hpre hrun) hrun'

end

/-- After every epoch, what there is and what was paid out is what there was and
what came in. -/
def ConservedAlong (start : AdaPots) (epochs : List Epoch) : Prop :=
  ∀ before s, before <+: epochs → booksAfter start before = .ok s →
    s.total = start.total + feesOf before

def RewardsEmptyAlong (start : AdaPots) (epochs : List Epoch) : Prop :=
  ∀ before e s, before ++ [e] <+: epochs → booksAfter start before = .ok s → s.pots.rewards = 0

theorem conservedAlong_of_rewardsEmpty (hempty : RewardsEmptyAlong start epochs) :
    ConservedAlong start epochs := by
  intro before
  induction before using List.reverseRecOn with
  | nil =>
    intro s _ hrun
    cases hrun
    rfl
  | append_singleton before e ih =>
    intro s' hpre hrun'
    have hbefore : before <+: epochs := (List.prefix_append before [e]).trans hpre
    have hrun'' := hrun'
    rw [booksAfter_append_singleton] at hrun''
    obtain ⟨s, hrun, _⟩ := bind_eq_ok.mp hrun''
    have hstep := booksAfter_step hbounds hfits hpre hrun hrun'
    rw [hempty before e s hpre hrun, ih s hbefore hrun] at hstep
    rw [feesOf_append_singleton, ← Nat.add_assoc]
    exact hstep

theorem rewardsEmpty_of_conservedAlong (hrun : booksAfter start epochs = .ok last)
    (hconserved : ConservedAlong start epochs) : RewardsEmptyAlong start epochs := by
  intro before e s hpre hs
  obtain ⟨s', hs'⟩ := exists_booksAfter hpre hrun
  have hstep := booksAfter_step hbounds hfits hpre hs hs'
  have hbefore := hconserved before s ((List.prefix_append before [e]).trans hpre) hs
  have hafter := hconserved (before ++ [e]) s' hpre hs'
  rw [feesOf_append_singleton] at hafter
  apply UInt64.toNat_inj.mp
  rw [UInt64.toNat_zero]
  omega

end

/-- Over every run of epochs, no pot wraps around, and the total is conserved after
every epoch exactly when every epoch starts from an empty rewards pot. -/
theorem ada_conserved_iff {last : Books} (hbounds : ∀ e ∈ epochs, EpochBounds e)
    (hfits : start.total + feesOf epochs < 2 ^ 64) (hrun : booksAfter start epochs = .ok last) :
    (ConservedAlong start epochs ↔ RewardsEmptyAlong start epochs) ∧
    ∀ before e s next, before ++ [e] <+: epochs → booksAfter start before = .ok s →
      calculateAdaPots s.pots e.potParameters e.epochFees e.totalBlocksInEpoch = .ok next →
      ∃ expansion contribution, PotsMove s.pots e next expansion contribution := by
  refine ⟨⟨rewardsEmpty_of_conservedAlong hbounds hfits hrun,
    conservedAlong_of_rewardsEmpty hbounds hfits⟩, ?_⟩
  intro before e s next hpre hs hnext
  exact potsMove_of_calculateAdaPots (hbounds e (hpre.subset (by simp)))
    (booksAfter_fits hbounds hfits hpre hs) hnext

end Runs

def stakelessEpoch : Epoch where
  potParameters := { twoPoolsParameters with monetaryExpansion := 0 }
  epochFees := 100
  totalBlocksInEpoch := 5
  snapshot := { twoPools with totalActiveStake := 0 }
  rewardParameters := twoPoolsParameters

def payingEpoch : Epoch := { stakelessEpoch with snapshot := twoPools }

/-- Two epochs without active stake, from an empty rewards pot: the first leaves
80 lovelace in the pot, and the second forgets them. -/
theorem ada_lost_without_stake :
    (∀ e ∈ [stakelessEpoch, stakelessEpoch], EpochBounds e) ∧
      AdaPots.total ⟨1000, 50, 0⟩ + feesOf [stakelessEpoch, stakelessEpoch] = 1250 ∧
      booksAfter ⟨1000, 50, 0⟩ [stakelessEpoch] = .ok ⟨⟨1000, 70, 80⟩, 0⟩ ∧
      booksAfter ⟨1000, 50, 0⟩ [stakelessEpoch, stakelessEpoch] = .ok ⟨⟨1000, 90, 80⟩, 0⟩ ∧
      ¬ ConservedAlong ⟨1000, 50, 0⟩ [stakelessEpoch, stakelessEpoch] := by
  have hrun : booksAfter ⟨1000, 50, 0⟩ [stakelessEpoch, stakelessEpoch] =
      .ok ⟨⟨1000, 90, 80⟩, 0⟩ := by decide +kernel
  refine ⟨?_, by decide +kernel, by decide +kernel, hrun, ?_⟩
  · intro e he
    simp only [List.mem_cons, List.not_mem_nil, or_false, or_self] at he
    rw [he]
    exact ⟨by decide, by decide, by decide +kernel⟩
  · intro hconserved
    have htotal := hconserved _ _ (List.prefix_refl _) hrun
    revert htotal
    decide +kernel

/-- Epochs that pay out conserve the total. -/
theorem ada_conserved_iff_payingEpochs :
    booksAfter ⟨1000, 50, 0⟩ [payingEpoch, payingEpoch] = .ok ⟨⟨1000, 90, 0⟩, 160⟩ ∧
      (ConservedAlong ⟨1000, 50, 0⟩ [payingEpoch, payingEpoch] ↔
        RewardsEmptyAlong ⟨1000, 50, 0⟩ [payingEpoch, payingEpoch]) := by
  have hrun : booksAfter ⟨1000, 50, 0⟩ [payingEpoch, payingEpoch] = .ok ⟨⟨1000, 90, 0⟩, 160⟩ := by
    decide +kernel
  refine ⟨hrun, (ada_conserved_iff ?_ (by decide +kernel) hrun).1⟩
  intro e he
  simp only [List.mem_cons, List.not_mem_nil, or_false, or_self] at he
  rw [he]
  exact ⟨by decide, by decide, by decide +kernel⟩

/-- No epoch of the run creates ADA, shrinks the treasury or grows the reserves. -/
theorem no_ada_created {start : AdaPots} {epochs before : List Epoch} {e : Epoch} {s s' : Books}
    (hbounds : ∀ e ∈ epochs, EpochBounds e) (hfits : start.total + feesOf epochs < 2 ^ 64)
    (hpre : before ++ [e] <+: epochs) (hrun : booksAfter start before = .ok s)
    (hrun' : booksAfter start (before ++ [e]) = .ok s') :
    s'.total ≤ s.total + e.epochFees.toNat ∧ s.pots.treasury ≤ s'.pots.treasury ∧
      s'.pots.reserves ≤ s.pots.reserves := by
  have hbound := hbounds e (hpre.subset (by simp))
  refine ⟨Nat.le.intro (booksAfter_step hbounds hfits hpre hrun hrun'), ?_⟩
  rw [booksAfter_append_singleton, hrun] at hrun'
  change runEpoch s e = _ at hrun'
  obtain ⟨pots, hpots, hstep⟩ := bind_eq_ok.mp hrun'
  obtain ⟨result, hresult, hstep⟩ := bind_eq_ok.mp hstep
  cases hstep
  have hspent := potSpent_of_calculateRewards hresult hbound.poolStake
  obtain ⟨expansion, contribution, ⟨eta, heta, hexpansion⟩, hcontribution, hreserves, htreasury, -⟩ :=
    potsMove_of_calculateAdaPots hbound (booksAfter_fits hbounds hfits hpre hrun) hpots
  -- neither of the amounts that move is negative
  have hexpanded := (monetaryExpansionOf_mem s.pots hbound.monetaryExpansion (calculateEta_mem heta)).1
  rw [← hexpansion] at hexpanded
  have hcontributed : 0 ≤ contribution := by
    rw [hcontribution]
    positivity
  simp only [UInt64.le_iff_toNat_le, hspent.treasury, hspent.reserves]
  omega

theorem no_ada_created_stakeless :
    ∃ s, booksAfter ⟨1000, 50, 0⟩ [stakelessEpoch] = .ok s ∧ s.total ≤ 1150 := by
  have hrun : booksAfter ⟨1000, 50, 0⟩ [stakelessEpoch] = .ok ⟨⟨1000, 70, 80⟩, 0⟩ := by
    decide +kernel
  refine ⟨_, hrun, (@no_ada_created _ [stakelessEpoch] [] _ _ _ ?_ (by decide +kernel) List.prefix_rfl
    rfl hrun).1⟩
  intro e he
  rw [List.mem_singleton.mp he]
  exact ⟨by decide, by decide, by decide +kernel⟩

end Gouroboros.Ledger.Rewards

import Mathlib.Data.List.Sort
import Gouroboros.Ledger.Common.Types

/-!
# Rewards

The reward calculation of one epoch (`ledger/common/rewards.go`):
`calculateAdaPots` moves the fees and the monetary expansion into the treasury
and the rewards pot, and `calculateRewards` splits the rewards pot over the
pools by largest-remainder rounding and then, inside each pool, over the
operator and the delegators.

A `big.Rat` is a rational number, absent when the pointer is nil. Parameters and
snapshot parts that no function below reads are left out.
-/

namespace Gouroboros.Ledger.Rewards

abbrev RewardCredential := Credential

abbrev AddrKeyHash := Blake2b224

/-- The parts of a pool registration the calculation reads. -/
structure PoolRewardParams where
  pledge : UInt64
  cost : UInt64
  margin : Option ℚ
  rewardAccountCredential : Credential
  poolOwners : List AddrKeyHash

structure AdaPots where
  reserves : UInt64
  treasury : UInt64
  rewards : UInt64
deriving DecidableEq

structure RewardParameters where
  monetaryExpansion : UInt64
  treasuryGrowth : UInt64
  protocolMajorVersion : Nat
  maxPledgeLeverage : Option ℚ
  minPoolMargin : Option ℚ
  poolInfluence : Option ℚ
  activeSlotsCoeff : Option ℚ
  expectedSlotsPerEpoch : UInt32

structure RewardSnapshot where
  totalActiveStake : UInt64
  poolStake : GoMap PoolKeyHash UInt64
  delegatorStake : GoMap PoolKeyHash (GoMap AddrKeyHash UInt64)
  poolParams : GoMap PoolKeyHash (Option PoolRewardParams)
  stakeRegistrations : GoMap AddrKeyHash Bool
  poolBlocks : GoMap PoolKeyHash UInt32
  totalBlocksInEpoch : UInt32

structure PoolRewards where
  operatorRewardAccount : RewardCredential
  operatorRewards : UInt64
  delegatorRewards : GoMap RewardCredential UInt64
  totalRewards : UInt64

structure RewardCalculationResult where
  totalRewards : UInt64
  poolRewards : GoMap PoolKeyHash PoolRewards
  updatedPots : AdaPots

inductive PoolMarginError where
  | missingValue
  | outsideUnitInterval (numerator : Int) (denominator : Nat)
  | numeratorNotWord64 (numerator : Int)
  | denominatorNotWord64 (denominator : Nat)
deriving DecidableEq

inductive RewardError where
  | activeSlotsCoefficientNotPositive
  | expectedSlotsPerEpochNotPositive
  | maxPledgeLeverageOutside (leverage : ℚ)
  | minimumPoolMarginOutside (minMargin : ℚ)
  | poolParametersNotFound (poolId : PoolKeyHash)
  | invalidMargin (poolId : PoolKeyHash) (cause : PoolMarginError)
  | noValidPools
deriving DecidableEq

def protocolVersionDijkstra : Nat := 12

def protocolVersionDijkstraMinPoolMargin : Nat := 13

/-! ## Pots -/

def calculateEta (totalBlocksInEpoch : UInt32) (params : RewardParameters) :
    Except RewardError ℚ :=
  match params.activeSlotsCoeff with
  | none => .error .activeSlotsCoefficientNotPositive
  | some activeSlotsCoeff =>
    if activeSlotsCoeff ≤ 0 then .error .activeSlotsCoefficientNotPositive
    else if params.expectedSlotsPerEpoch = 0 then .error .expectedSlotsPerEpochNotPositive
    else
      let expectedBlocks : ℚ := params.expectedSlotsPerEpoch.toNat * activeSlotsCoeff
      let eta : ℚ := totalBlocksInEpoch.toNat / expectedBlocks
      .ok (if 1 < eta then 1 else eta)

/-- `Uint64` of a big integer: its low 64 bits. -/
def bigUint64 (n : Int) : UInt64 := UInt64.ofNat n.natAbs

def monetaryExpansionOf (currentPots : AdaPots) (params : RewardParameters) (eta : ℚ) : Int :=
  let expansion : Int := (params.monetaryExpansion.toNat * currentPots.reserves.toNat) / 1000000
  expansion * eta.num / eta.den

def calculateAdaPots (currentPots : AdaPots) (params : RewardParameters) (epochFees : UInt64)
    (totalBlocksInEpoch : UInt32) : Except RewardError AdaPots := do
  let eta ← calculateEta totalBlocksInEpoch params
  let expansion := monetaryExpansionOf currentPots params eta
  let rewardPot : Int := epochFees.toNat + expansion
  let treasuryContribution : Int := params.treasuryGrowth.toNat * rewardPot / 10000
  let rewardPot := rewardPot - treasuryContribution
  let reservesMinusExpansion : Int := currentPots.reserves.toNat - expansion
  .ok
    { reserves := if reservesMinusExpansion < 0 then 0 else bigUint64 reservesMinusExpansion
      treasury := currentPots.treasury + bigUint64 treasuryContribution
      rewards := bigUint64 rewardPot }

/-! ## Parameters -/

def poolSaturationThreshold : ℚ := 1 / 20

/-- Rounded down and saturated to the range of a `uint64`. -/
def ratFloorUint64 (value : ℚ) : UInt64 :=
  if value ≤ 0 then 0
  else
    match uint64? (value.num.tdiv value.den) with
    | none => UInt64.ofNat (2 ^ 64 - 1)
    | some floor => floor

/-- In the order of their bytes. -/
def sortedPoolIDs {V : Type} (pools : GoMap PoolKeyHash V) : List PoolKeyHash :=
  pools.keys.insertionSort fun a b => a.toNat ≤ b.toNat

def pledgeLeverageActive (params : RewardParameters) : Bool :=
  decide (protocolVersionDijkstra ≤ params.protocolMajorVersion) &&
    params.maxPledgeLeverage.isSome

def validateDijkstraRewardParameters (params : RewardParameters) : Except RewardError Unit :=
  if params.protocolMajorVersion < protocolVersionDijkstra then .ok ()
  else do
    match params.maxPledgeLeverage with
    | none => .ok ()
    | some leverage =>
      if leverage < 1 ∨ 10000 < leverage then .error (.maxPledgeLeverageOutside leverage)
      else .ok ()
    match params.minPoolMargin with
    | none => .ok ()
    | some minMargin =>
      if minMargin < 0 ∨ 1 < minMargin then .error (.minimumPoolMarginOutside minMargin)
      else .ok ()

/-- `ValidatePoolMargin`. The denominator of a rational is positive, so its own
check always passes. -/
def validatePoolMargin (margin : Option ℚ) : Except PoolMarginError Unit :=
  match margin with
  | none => .error .missingValue
  | some margin =>
    if margin.num < 0 ∨ margin.den < margin.num then
      .error (.outsideUnitInterval margin.num margin.den)
    else if uint64? margin.num = none then .error (.numeratorNotWord64 margin.num)
    else if uint64? margin.den = none then .error (.denominatorNotWord64 margin.den)
    else .ok ()

/-- The margin, clamped to the unit interval. -/
def marginRat (margin : Option ℚ) : ℚ :=
  match margin with
  | none => 0
  | some margin =>
    if margin.num ≤ 0 then 0
    else if (margin.den : Int) ≤ margin.num then 1
    else margin

def effectivePoolMargin (margin : Option ℚ) (params : RewardParameters) : ℚ :=
  let result := marginRat margin
  match params.minPoolMargin with
  | none => result
  | some minPoolMargin =>
    if params.protocolMajorVersion < protocolVersionDijkstraMinPoolMargin ∨ minPoolMargin = 0 then
      result
    else if result < minPoolMargin then minPoolMargin
    else result

def minimumRewardRatio (a b : ℚ) : ℚ := if a ≤ b then a else b

/-! ## Shares -/

def calculatePoolPerformance (poolId : PoolKeyHash) (snapshot : RewardSnapshot) : ℚ :=
  let poolBlocks := (snapshot.poolBlocks.lookup poolId).getD 0
  if snapshot.totalBlocksInEpoch = 0 then 1
  else if poolBlocks = 0 then 0
  else
    let poolStake := (snapshot.poolStake.lookup poolId).getD 0
    if poolStake = 0 then 0
    else
      ((poolBlocks.toNat : ℚ) / snapshot.totalBlocksInEpoch.toNat) *
        ((snapshot.totalActiveStake.toNat : ℚ) / poolStake.toNat)

/-- The stake ratio, capped by saturation and pledge when pledge leverage is
active. -/
def rewardStakeRatio (poolStake : UInt64) (poolParams : PoolRewardParams)
    (snapshot : RewardSnapshot) (params : RewardParameters) : ℚ :=
  let stakeRatio : ℚ := poolStake.toNat / snapshot.totalActiveStake.toNat
  if pledgeLeverageActive params then
    let pledgeRatio : ℚ := poolParams.pledge.toNat / snapshot.totalActiveStake.toNat
    let leverageCap := pledgeRatio * params.maxPledgeLeverage.getD 0
    minimumRewardRatio (minimumRewardRatio stakeRatio poolSaturationThreshold) leverageCap
  else stakeRatio

/-- The pool influence: one by default, and never negative. -/
def poolInfluenceOf (params : RewardParameters) : ℚ :=
  match params.poolInfluence with
  | none => 1
  | some a0 => if a0 < 0 then 0 else a0

def calculatePoolShare (poolStake : UInt64) (poolParams : PoolRewardParams)
    (snapshot : RewardSnapshot) (params : RewardParameters) (poolId : PoolKeyHash) : ℚ :=
  if snapshot.totalActiveStake = 0 then 0
  else
    let performance := calculatePoolPerformance poolId snapshot
    let stakeRatio := rewardStakeRatio poolStake poolParams snapshot params
    let saturation := stakeRatio / poolSaturationThreshold
    let saturation := if 1 < saturation then 1 else saturation
    let numerator := stakeRatio * performance * (1 - marginRat poolParams.margin)
    let denominator := poolInfluenceOf params * saturation + 1
    if denominator ≤ 0 then 0 else numerator / denominator

/-! ## Splitting the pot -/

structure Apportionment where
  amounts : GoMap PoolKeyHash UInt64 := ∅
  remainders : GoMap PoolKeyHash ℚ := ∅
  assigned : Int := 0

/-- A pool's exact part of the pot; a negative one counts as nothing. -/
def exactReward (pot : UInt64) (poolShares : GoMap PoolKeyHash ℚ) (totalShare : ℚ)
    (poolId : PoolKeyHash) : ℚ :=
  let exact := (poolShares.lookup poolId).getD 0 / totalShare * pot.toNat
  if exact < 0 then 0 else exact

/-- One pool takes the floor of its exact part, within what is left. -/
def assignFloor (pot : UInt64) (poolShares : GoMap PoolKeyHash ℚ) (totalShare : ℚ)
    (acc : Apportionment) (poolId : PoolKeyHash) : Apportionment :=
  let exact := exactReward pot poolShares totalShare poolId
  let floor := exact.num.tdiv exact.den
  let remaining : Int := pot.toNat - acc.assigned
  let floor := if remaining ≤ 0 then 0 else if remaining < floor then remaining else floor
  { amounts := acc.amounts.insert poolId (bigUint64 floor)
    remainders := acc.remainders.insert poolId (exact - floor)
    assigned := acc.assigned + floor }

def remainderOrder (remainders : GoMap PoolKeyHash ℚ) (poolIds : List PoolKeyHash) :
    List PoolKeyHash :=
  let remainder := fun poolId => (remainders.lookup poolId).getD 0
  poolIds.insertionSort fun a b =>
    remainder b < remainder a ∨ remainder a = remainder b ∧ a.toNat ≤ b.toNat

def addOne (amounts : GoMap PoolKeyHash UInt64) (poolId : PoolKeyHash) :
    GoMap PoolKeyHash UInt64 :=
  amounts.insert poolId ((amounts.lookup poolId).getD 0 + 1)

/-- `Int64` of a big integer: its low 64 bits, signed. -/
def bigInt64 (n : Int) : Int := n.bmod (2 ^ 64)

def apportionRewardPot (pot : UInt64) (poolShares : GoMap PoolKeyHash ℚ) (totalShare : ℚ) :
    GoMap PoolKeyHash UInt64 :=
  let poolIds := sortedPoolIDs poolShares
  let floors := poolIds.foldl (assignFloor pot poolShares totalShare) {}
  let leftover : Int := pot.toNat - floors.assigned
  if leftover ≤ 0 then floors.amounts
  else
    let count := min (bigInt64 leftover) poolIds.length
    ((remainderOrder floors.remainders poolIds).take count.toNat).foldl addOne floors.amounts

/-! ## Inside a pool -/

def keyRewardCredential (hash : AddrKeyHash) : RewardCredential := ⟨credentialTypeAddrKeyHash, hash⟩

def sumStake (stakes : List UInt64) : UInt64 := stakes.foldl (· + ·) 0

/-- The operator's part of the rewards above the pool cost. -/
def operatorRewardsOf (totalPoolRewards poolCost ownerStake totalPoolStake : UInt64) (margin : ℚ) :
    UInt64 :=
  if 0 < totalPoolStake then
    let available : ℚ := (totalPoolRewards - poolCost).toNat
    let ownerStakeRatio : ℚ := ownerStake.toNat / totalPoolStake.toNat
    let operatorShare := (1 - margin) * ownerStakeRatio + margin
    let variableRewards := available * operatorShare
    if available ≤ variableRewards then totalPoolRewards
    else if 0 < variableRewards then poolCost + ratFloorUint64 variableRewards
    else poolCost
  else totalPoolRewards

structure DelegatorSplit where
  delegatorRewards : GoMap RewardCredential UInt64 := ∅
  assigned : UInt64 := 0

/-- One delegator: only registered stake keys are rewarded. -/
def rewardDelegator (snapshot : RewardSnapshot) (stakeholderRewardsTotal totalPoolStake : UInt64)
    (acc : DelegatorSplit) (entry : AddrKeyHash × UInt64) : DelegatorSplit :=
  if (snapshot.stakeRegistrations.lookup entry.1).getD false then
    let reward := UInt64.ofNat
      (entry.2.toNat * stakeholderRewardsTotal.toNat / totalPoolStake.toNat)
    { delegatorRewards := acc.delegatorRewards.insert (keyRewardCredential entry.1) reward
      assigned := acc.assigned + reward }
  else acc

def distributePoolRewards (totalPoolRewards : UInt64) (delegatorStake : GoMap AddrKeyHash UInt64)
    (poolParams : PoolRewardParams) (snapshot : RewardSnapshot) (params : RewardParameters) :
    PoolRewards :=
  let poolCost := poolParams.cost
  let margin := effectivePoolMargin poolParams.margin params
  let totalPoolStake := sumStake delegatorStake.values
  if totalPoolRewards ≤ poolCost then
    { operatorRewardAccount := poolParams.rewardAccountCredential
      operatorRewards := totalPoolRewards
      delegatorRewards := ∅
      totalRewards := totalPoolRewards }
  else
    let ownerStake := sumStake (poolParams.poolOwners.filterMap delegatorStake.lookup)
    let operatorRewards :=
      operatorRewardsOf totalPoolRewards poolCost ownerStake totalPoolStake margin
    let stakeholderRewardsTotal :=
      if operatorRewards < totalPoolRewards then totalPoolRewards - operatorRewards else 0
    let operatorRewards :=
      if operatorRewards < totalPoolRewards then operatorRewards else totalPoolRewards
    let split :=
      if 0 < totalPoolStake ∧ 0 < stakeholderRewardsTotal then
        delegatorStake.toPairs.foldl
          (rewardDelegator snapshot stakeholderRewardsTotal totalPoolStake) {}
      else {}
    -- The rounding remainder goes to the operator.
    let operatorRewards :=
      if split.assigned < stakeholderRewardsTotal then
        operatorRewards + (stakeholderRewardsTotal - split.assigned)
      else operatorRewards
    { operatorRewardAccount := poolParams.rewardAccountCredential
      operatorRewards := operatorRewards
      delegatorRewards := split.delegatorRewards
      totalRewards := totalPoolRewards }

/-! ## The calculation -/

structure ShareState where
  poolShares : GoMap PoolKeyHash ℚ := ∅
  totalShare : ℚ := 0
  leverageEligiblePools : List PoolKeyHash := []

/-- The share of one pool; a pool without parameters is skipped. -/
def addPoolShare (snapshot : RewardSnapshot) (params : RewardParameters) (acc : ShareState)
    (poolId : PoolKeyHash) : Except RewardError ShareState :=
  let poolStake := (snapshot.poolStake.lookup poolId).getD 0
  match snapshot.poolParams.lookup poolId with
  | none => .ok acc
  | some none => .error (.poolParametersNotFound poolId)
  | some (some poolParams) =>
    match validatePoolMargin poolParams.margin with
    | .error cause => .error (.invalidMargin poolId cause)
    | .ok () =>
      let share := calculatePoolShare poolStake poolParams snapshot params poolId
      .ok
        { poolShares := acc.poolShares.insert poolId share
          totalShare := acc.totalShare + share
          leverageEligiblePools :=
            if pledgeLeverageActive params && decide (0 < poolStake) &&
                decide (0 < poolParams.pledge) then
              acc.leverageEligiblePools ++ [poolId]
            else acc.leverageEligiblePools }

def equalShares (params : RewardParameters) (shares : ShareState) : GoMap PoolKeyHash ℚ :=
  let poolIds :=
    if pledgeLeverageActive params then shares.leverageEligiblePools
    else sortedPoolIDs shares.poolShares
  let equalShare : ℚ := 1 / poolIds.length
  poolIds.foldl (fun m poolId => m.insert poolId equalShare)
    (shares.poolShares.mapVals fun _ => 0)

def addPoolRewards (amounts : GoMap PoolKeyHash UInt64) (snapshot : RewardSnapshot)
    (params : RewardParameters) (acc : GoMap PoolKeyHash PoolRewards) (poolId : PoolKeyHash) :
    Except RewardError (GoMap PoolKeyHash PoolRewards) :=
  match (snapshot.poolParams.lookup poolId).join with
  | none => .error (.poolParametersNotFound poolId)
  | some poolParams =>
    .ok (acc.insert poolId (distributePoolRewards ((amounts.lookup poolId).getD 0)
      ((snapshot.delegatorStake.lookup poolId).getD ∅) poolParams snapshot params))

/-- The second pass: the pot is split over the shares and paid out. -/
def payOut (pots : AdaPots) (snapshot : RewardSnapshot) (params : RewardParameters)
    (poolShares : GoMap PoolKeyHash ℚ) (totalShare : ℚ) :
    Except RewardError RewardCalculationResult := do
  let amounts := apportionRewardPot pots.rewards poolShares totalShare
  let poolRewards ← (sortedPoolIDs amounts).foldlM (addPoolRewards amounts snapshot params) ∅
  .ok
    { totalRewards := pots.rewards
      poolRewards := poolRewards
      updatedPots := { pots with rewards := 0 } }

def calculateRewards (pots : AdaPots) (snapshot : RewardSnapshot) (params : RewardParameters) :
    Except RewardError RewardCalculationResult := do
  validateDijkstraRewardParameters params
  if snapshot.totalActiveStake = 0 ∨ pots.rewards = 0 then
    .ok { totalRewards := 0, poolRewards := ∅, updatedPots := pots }
  else
    let shares ← (sortedPoolIDs snapshot.poolStake).foldlM (addPoolShare snapshot params) {}
    if shares.poolShares.keys.length = 0 then .error .noValidPools
    else if shares.totalShare = 0 then
      if pledgeLeverageActive params && shares.leverageEligiblePools.isEmpty then
        .ok { totalRewards := 0, poolRewards := ∅, updatedPots := pots }
      else payOut pots snapshot params (equalShares params shares) 1
    else payOut pots snapshot params shares.poolShares shares.totalShare

end Gouroboros.Ledger.Rewards

import Gouroboros.Ledger.Common.LedgerState

/-!
# The block-scoped view

`BlockLedgerState` folds the effects of a block's earlier transactions over a
wrapped ledger state (`ledger/common/block_state.go`): `applyTransaction` is the
fold, and the query methods answer each rule with the block's effects applied.
`toLedgerState` packs the query methods, so a rule runs on the view exactly as
it runs on a provider.

A failed `applyTransaction` returns the error only; the half-updated view it
leaves behind in the source is never queried again.
-/

namespace Gouroboros.Ledger

structure BlockLedgerState extends BlockOverlay where
  base : LedgerState

/-- A view of `base` with no transactions applied. -/
def newBlockLedgerState (base : LedgerState) : BlockLedgerState where
  base := base

namespace BlockLedgerState

variable (b : BlockLedgerState)

/-! ## Query methods -/

def utxoById (input : TransactionInput) : Except LedgerError Utxo :=
  match b.created.lookup input with
  | some utxo => .ok utxo
  | none =>
    match b.spent.lookup input with
    | some _ => .error (.utxoSpentInBlock input)
    | none => b.base.utxoById input

def isStakeCredentialRegistered (cred : Credential) : Bool :=
  match b.accounts.lookup cred with
  | some account =>
    if account.registeredKnown then account.registered
    else b.base.isStakeCredentialRegistered cred
  | none => b.base.isStakeCredentialRegistered cred

def rewardAccountBalance (cred : Credential) : Except LedgerError (Option UInt64) :=
  match b.accounts.lookup cred with
  | none => b.base.rewardAccountBalance cred
  | some account =>
    if account.registeredKnown && !account.registered then .ok none
    else if !account.balanceKnown then b.base.rewardAccountBalance cred
    else if !account.registeredKnown then do
      -- A withdrawal reduced an account registered in the wrapped state.
      match ← b.base.rewardAccountBalance cred with
      | none => .ok none
      | some _ => .ok (some account.balance)
    else .ok (some account.balance)

def poolCurrentState (pool : PoolKeyHash) :
    Except LedgerError (Option PoolRegistrationCertificate × Option UInt64) :=
  match b.pools.lookup pool with
  | none => b.base.poolCurrentState pool
  | some state =>
    if !state.registrationKnown || !state.retirementKnown then do
      let (baseReg, baseRetirement) ← b.base.poolCurrentState pool
      .ok (if !state.registrationKnown then baseReg else state.registration,
        if !state.retirementKnown then baseRetirement else state.retirementEpoch)
    else .ok (state.registration, state.retirementEpoch)

def isPoolRegistered (pool : PoolKeyHash) : Bool :=
  match b.pools.lookup pool with
  | some state =>
    if state.registrationKnown && state.registration.isSome then true
    else b.base.isPoolRegistered pool
  | none => b.base.isPoolRegistered pool

def isVrfKeyInUse : VrfKeyIndex := fun vrfKeyHash =>
  match b.vrfKeys.lookup vrfKeyHash with
  | some pool => .ok (some pool)
  | none =>
    match b.vrfReleased.lookup vrfKeyHash with
    | some _ => .ok none
    | none => b.base.isVrfKeyInUse vrfKeyHash

/-- The VRF key of the pool's latest re-registration in the block. -/
def futureVrfKey? (pool : PoolKeyHash) : Option VrfKeyHash :=
  (b.pools.lookup pool).bind fun state => state.future.map (·.vrfKeyHash)

/-- `isFutureVrfKeyInUse`: a re-registration in the block replaces the deferred
parameters the wrapped state holds for the same pool. -/
def isFutureVrfKeyInUseOver (futureState : VrfKeyIndex) : VrfKeyIndex := fun vrfKeyHash =>
  match (b.vrfKeys.lookup vrfKeyHash).filter (fun pool => b.futureVrfKey? pool = some vrfKeyHash) with
  | some pool => .ok (some pool)
  | none =>
    match b.vrfReleased.lookup vrfKeyHash with
    | some _ => .ok none
    | none => do
        match ← futureState vrfKeyHash with
        | none => .ok none
        | some pool =>
          match b.futureVrfKey? pool with
          | some future => if future ≠ vrfKeyHash then .ok none else .ok (some pool)
          | none => .ok (some pool)

/-- An error when the wrapped state has no index. -/
def isFutureVrfKeyInUse : VrfKeyIndex := fun vrfKeyHash =>
  match b.base.isFutureVrfKeyInUse? with
  | none => .error .futurePoolParametersStateUnavailable
  | some futureState => b.isFutureVrfKeyInUseOver futureState vrfKeyHash

def dRepRegistration (cred : Credential) : Except LedgerError (Option DRepRegistration) :=
  match b.dreps.lookup cred with
  | some drep => .ok drep.registration
  | none => b.base.dRepRegistration cred

/-- The wrapped state's, without the DReps that the block has touched, and the block's own. -/
def dRepRegistrations : Except LedgerError (List DRepRegistration) := do
  let base ← b.base.dRepRegistrations
  .ok (base.filter (fun reg => (b.dreps.lookup reg.credential).isNone) ++
    b.dreps.values.filterMap (·.registration))

def govActionById (id : GovActionId) : Except LedgerError (Option GovActionState) :=
  match b.proposals.lookup id with
  | some state => .ok (some state)
  | none => b.base.govActionById id

/-- The first order is the view's own, and the others are for the wrapped state. -/
def committeeMember (orders : CommitteeOrders) (coldKey : Blake2b224) :
    Except LedgerError (Option CommitteeMember) := do
  let member ← b.base.committeeMember (fun loop => orders (loop + 1)) coldKey
  .ok (member.map (applyCommitteeAuthorization (orders 0) b.toBlockOverlay))

/-- The view as a ledger state. Epochs and the provider's own capabilities are
read through it; it always implements the future-parameters index. -/
def toLedgerState : LedgerState where
  utxoById := b.utxoById
  isStakeCredentialRegistered := b.isStakeCredentialRegistered
  rewardAccountBalance := b.rewardAccountBalance
  poolCurrentState := b.poolCurrentState
  isPoolRegistered := b.isPoolRegistered
  isVrfKeyInUse := b.isVrfKeyInUse
  dRepRegistration := b.dRepRegistration
  dRepRegistrations := b.dRepRegistrations
  govActionById := b.govActionById
  committeeMember := b.committeeMember
  networkId := b.base.networkId
  epochForSlot? := b.base.epochForSlot?
  isFutureVrfKeyInUse? := some b.isFutureVrfKeyInUse
  stakeCredentialDeposit? := b.base.stakeCredentialDeposit?
  dRepDelegation? := b.base.dRepDelegation?
  pendingInstantaneousRewards? := b.base.pendingInstantaneousRewards?
  committeeCredential? := b.base.committeeCredential?
  committeeVoting? := b.base.committeeVoting?
  blocks := b.toBlockOverlay :: b.base.blocks

/-! ## Updates -/

/-- The block's record for `cred`, an empty one when there is none. -/
def account (cred : Credential) : BlockAccount := (b.accounts.lookup cred).getD {}

def setAccount (cred : Credential) (account : BlockAccount) : BlockLedgerState :=
  { b with accounts := b.accounts.insert cred account }

def registerAccount (cred : Credential) (deposit : UInt64) : BlockLedgerState :=
  b.setAccount cred
    { registered := true
      registeredKnown := true
      deposit := deposit
      depositKnown := true
      balanceKnown := true
      drepKnown := true }

def deregisterAccount (cred : Credential) : BlockLedgerState :=
  b.setAccount cred
    { registeredKnown := true
      depositKnown := true
      balanceKnown := true
      drepKnown := true }

def delegateVote (cred : Credential) (drep : Drep) : BlockLedgerState :=
  b.setAccount cred
    { b.account cred with
      drep := some drep
      drepKnown := true
      drepSeq := b.seq }

def drep (cred : Credential) : BlockDRep := (b.dreps.lookup cred).getD {}

def setDRep (cred : Credential) (drep : BlockDRep) : BlockLedgerState :=
  { b with dreps := b.dreps.insert cred drep }

def pool (operator : PoolKeyHash) : BlockPool := (b.pools.lookup operator).getD {}

def setPool (operator : PoolKeyHash) (pool : BlockPool) : BlockLedgerState :=
  { b with pools := b.pools.insert operator pool }

/-- What a withdrawal of `amount` leaves of `balance`: an amount the balance
does not cover drains the account. -/
def remainingBalance (balance : Option UInt64) (amount : Option Int) : UInt64 :=
  match balance, amount.bind uint64? with
  | some balance, some amount => if amount ≤ balance then balance - amount else 0
  | _, _ => 0

def applyWithdrawal (b : BlockLedgerState) (withdrawal : Address × Option Int) :
    Except LedgerError BlockLedgerState :=
  match withdrawal.1.rewardAccountCredential with
  | .error _ => .ok b
  | .ok cred => do
      let balance ← b.rewardAccountBalance cred
      .ok (b.setAccount cred
        { b.account cred with
          balance := remainingBalance balance withdrawal.2
          balanceKnown := true })

def applyWithdrawals (withdrawals : Withdrawals) : Except LedgerError BlockLedgerState :=
  withdrawals.values.foldlM applyWithdrawal b

def applyDirectDeposit (b : BlockLedgerState) (deposit : DirectDeposit) :
    Except LedgerError BlockLedgerState := do
  match ← b.rewardAccountBalance deposit.credential with
  | none => .ok b
  | some balance =>
    .ok (b.setAccount deposit.credential
      { b.account deposit.credential with
        balance := balance + deposit.amount
        balanceKnown := true })

def applyDirectDeposits (deposits : List DirectDeposit) : Except LedgerError BlockLedgerState :=
  deposits.foldlM applyDirectDeposit b

/-- The pending key a re-registration with `cert` supersedes, when it differs
from the new key and from the pool's current one. -/
def supersededVrfKey? (cert : PoolRegistrationCertificate)
    (current : PoolRegistrationCertificate) : Option VrfKeyHash :=
  (b.futureVrfKey? cert.operator).filter fun future =>
    future ≠ cert.vrfKeyHash ∧ future ≠ current.vrfKeyHash

def releaseVrfKey (key : VrfKeyHash) : BlockLedgerState :=
  { b with
    vrfKeys := b.vrfKeys.erase key
    vrfReleased := b.vrfReleased.insert key () }

def claimVrfKey (key : VrfKeyHash) (operator : PoolKeyHash) : BlockLedgerState :=
  { b with
    vrfKeys := b.vrfKeys.insert key operator
    vrfReleased := b.vrfReleased.erase key }

/-- A new pool becomes current at once; a re-registration records future parameters and cancels a
pending retirement. -/
def applyPoolRegistration (cert : PoolRegistrationCertificate) :
    Except LedgerError BlockLedgerState := do
  let (current, _) ← b.poolCurrentState cert.operator
  let pool := b.pool cert.operator
  match current with
  | none =>
    .ok ((b.setPool cert.operator
      { pool with
        registration := some cert
        registrationKnown := true
        retirementEpoch := none
        retirementKnown := true }).claimVrfKey cert.vrfKeyHash cert.operator)
  | some current =>
    let released :=
      match b.supersededVrfKey? cert current with
      | some key => b.releaseVrfKey key
      | none => b
    .ok ((released.setPool cert.operator
      { pool with
        future := some cert
        retirementEpoch := none
        retirementKnown := true }).claimVrfKey cert.vrfKeyHash cert.operator)

def applyPoolRetirement (poolKeyHash : PoolKeyHash) (epoch : UInt64) : BlockLedgerState :=
  b.setPool poolKeyHash
    { b.pool poolKeyHash with
      retirementEpoch := some epoch
      retirementKnown := true }

/-- The key deposit recorded for a certificate that carries no amount. -/
def blockKeyDeposit (pp : ProtocolParameters) : Except LedgerError UInt64 :=
  match pp.keyDepositAmount.bind uint64? with
  | none => .error (.message "invalid key deposit")
  | some amount => .ok amount

def applyMirReward (source : Nat) (b : BlockLedgerState) (reward : Option Credential × Option Int) :
    BlockLedgerState :=
  match reward with
  | (some cred, some delta) =>
    { b with
      mirPending := b.mirPending.insert (source, cred)
        (delta + (b.mirPending.lookup (source, cred)).getD 0) }
  | _ => b

/-- Each certificate is numbered, so a DRep deregistration clears only the delegations made
before it. -/
def applyCertificate (pp : ProtocolParameters) (b : BlockLedgerState) (cert : Certificate) :
    Except LedgerError BlockLedgerState :=
  let b := { b with seq := b.seq + 1 }
  match cert with
  | .poolRegistration cert => b.applyPoolRegistration cert
  | .poolRetirement poolKeyHash epoch => .ok (b.applyPoolRetirement poolKeyHash epoch)
  | .stakeRegistration cred => do
      let deposit ← blockKeyDeposit pp
      .ok (b.registerAccount cred deposit)
  | .registration cred amount => .ok (b.registerAccount cred amount)
  | .stakeRegistrationDelegation cred _ amount => .ok (b.registerAccount cred amount)
  | .voteRegistrationDelegation cred drep amount =>
    .ok ((b.registerAccount cred amount).delegateVote cred drep)
  | .stakeVoteRegistrationDelegation cred _ drep amount =>
    .ok ((b.registerAccount cred amount).delegateVote cred drep)
  | .stakeDeregistration cred => .ok (b.deregisterAccount cred)
  | .deregistration cred _ => .ok (b.deregisterAccount cred)
  | .voteDelegation cred drep => .ok (b.delegateVote cred drep)
  | .stakeVoteDelegation cred _ drep => .ok (b.delegateVote cred drep)
  | .moveInstantaneousRewards source rewards => .ok (rewards.foldl (applyMirReward source) b)
  | .registrationDrep cred amount anchor =>
    .ok (b.setDRep cred { b.drep cred with registration := some ⟨cred, anchor, some amount⟩ })
  | .updateDrep cred anchor => do
      match ← b.dRepRegistration cred with
      | none => .ok b
      | some reg =>
        .ok (b.setDRep cred { b.drep cred with registration := some { reg with anchor := anchor } })
  | .deregistrationDrep cred _ => .ok (b.setDRep cred { registration := none, deregSeq := b.seq })
  | .authCommitteeHot cold hot =>
    .ok { b with committeeColdHot := b.committeeColdHot.insert cold (some hot) }
  | .resignCommitteeCold cold =>
    .ok { b with committeeColdHot := b.committeeColdHot.insert cold none }
  | .stakeDelegation _ _ => .ok b
  | .genesisKeyDelegation => .ok b

def applyCertificates (pp : ProtocolParameters) (certs : List Certificate) :
    Except LedgerError BlockLedgerState :=
  certs.foldlM (applyCertificate pp) b

/-- Records one proposal under its index; an action of no known kind is
skipped. A proposal of this block cannot expire within it. -/
def recordProposal (id : Blake2b256) (b : BlockLedgerState) (entry : ProposalProcedure × Nat) :
    BlockLedgerState :=
  match entry.1.govActionType with
  | none => b
  | some actionType =>
    let actionId : GovActionId := ⟨id, UInt32.ofNat entry.2⟩
    { b with
      proposals := b.proposals.insert actionId ⟨actionId, actionType,
        UInt64.ofNat (2 ^ 64 - 1), entry.1.govAction⟩ }

def recordProposals (id : Blake2b256) (proposals : List ProposalProcedure) : BlockLedgerState :=
  (proposals.zipIdx.take (maxGovActionIdx + 1)).foldl (recordProposal id) b

/-- Withdrawals, certificates, direct deposits, proposals. -/
def applyLevel (pp : ProtocolParameters) (b : BlockLedgerState) (level : LedgerEffectLevel) :
    Except LedgerError BlockLedgerState := do
  let b ← b.applyWithdrawals level.withdrawals
  let b ← b.applyCertificates pp level.certificates
  let b ← b.applyDirectDeposits level.directDeposits
  .ok (b.recordProposals level.id level.proposalProcedures)

def consume (b : BlockLedgerState) (input : TransactionInput) : BlockLedgerState :=
  { b with
    created := b.created.erase input
    spent := b.spent.insert input () }

def produce (b : BlockLedgerState) (utxo : Utxo) : BlockLedgerState :=
  { b with
    spent := b.spent.erase utxo.id
    created := b.created.insert utxo.id utxo }

/-- The consumed inputs removed and the produced outputs added. -/
def applyUtxo (tx : Transaction) : BlockLedgerState :=
  tx.produced.foldl produce (tx.consumed.foldl consume b)

def levelsOf (tx : Transaction) : Except LedgerError (List LedgerEffectLevel) :=
  match tx.ledgerEffectLevels with
  | some levels => levels
  | none => .ok [⟨tx.hash, tx.withdrawalMap, tx.certificates, tx.proposalProcedures, []⟩]

/-- Folds the effects of `tx` into the view. -/
def applyTransaction (tx : Transaction) (pp : ProtocolParameters) :
    Except LedgerError BlockLedgerState :=
  let b := b.applyUtxo tx
  if !tx.isValid then .ok b
  else do
    let levels ← levelsOf tx
    levels.foldlM (applyLevel pp) b

end BlockLedgerState

end Gouroboros.Ledger

import Gouroboros.Lib.ExceptFold
import Gouroboros.Ledger.Common.LedgerState

/-!
# Shelley rules

The rules of `ledger/shelley/rules.go` that later eras reuse: inputs,
withdrawals and the POOL rule. Each returns `.ok ()` where the source returns
nil. A rule that keeps maps while it walks the certificates is a fold over the
list, with the maps as the fold's state.
-/

namespace Gouroboros.Ledger.Shelley

/-! ## Inputs -/

/-- The first input that repeats an earlier one. -/
def firstDuplicateInput : List TransactionInput → List TransactionInput → Option TransactionInput
  | _, [] => none
  | seen, input :: inputs =>
    if input ∈ seen then some input else firstDuplicateInput (input :: seen) inputs

def checkDuplicates (inputs : List TransactionInput) (inputType : String) :
    Except LedgerError Unit :=
  match firstDuplicateInput [] inputs with
  | some input => .error (.duplicateInput input inputType)
  | none => .ok ()

def utxoValidateNoDuplicateInputs (tx : Transaction) : Except LedgerError Unit := do
  checkDuplicates tx.inputs "regular"
  checkDuplicates tx.collateral "collateral"
  checkDuplicates tx.referenceInputs "reference"

def utxoValidateBadInputsUtxo (tx : Transaction) (ls : LedgerState) : Except LedgerError Unit :=
  let badInputs := tx.inputs.filter fun input => (ls.utxoById input).toOption.isNone
  if badInputs = [] then .ok () else .error (.badInputs badInputs)

/-! ## Withdrawals -/

/-- One step of `ValidateWithdrawalAddresses`: the key is a reward account, and
its bytes were not seen before. -/
def checkWithdrawalAddress (seen : List ByteString) (withdrawal : Address × Option Int) :
    Except LedgerError (List ByteString) := do
  let _ ← withdrawal.1.rewardAccountCredential
  let raw := withdrawal.1.bytes
  if raw ∈ seen then .error (.message "duplicate withdrawal reward account")
  else .ok (raw :: seen)

def validateWithdrawalAddresses (withdrawals : Withdrawals) : Except LedgerError Unit := do
  let _ ← withdrawals.values.foldlM checkWithdrawalAddress []
  .ok ()

def utxoValidateWrongNetworkWithdrawal (tx : Transaction) (ls : LedgerState) :
    Except LedgerError Unit :=
  let addrs := tx.withdrawalMap.values.map Prod.fst
  let badAddrs := addrs.filter fun addr => addr.NetworkId ≠ ls.networkId
  if badAddrs = [] then validateWithdrawalAddresses tx.withdrawalMap
  else .error (.wrongNetworkWithdrawal ls.networkId badAddrs)

section Withdrawals

variable (newTxScriptView : Transaction → LedgerState → TxScriptView × Option LedgerError)

/-- Whether a withdrawal must drain its account: as the transaction configures
it, and otherwise always before protocol version 12, and from then on when the
transaction needs a Plutus script before V4. -/
def requireExactAmount (tx : Transaction) (ls : LedgerState) (pp : ProtocolParameters) :
    Except LedgerError Bool :=
  match tx.withdrawalRequiresExactAmount with
  | some exact => .ok exact
  | none =>
    if 12 ≤ pp.protocolMajorVersion then
      match newTxScriptView tx ls with
      | (_, some err) => .error err
      | (view, none) => .ok (view.needsAny fun s => (plutusScriptVersion s).any (· ≤ 2))
    else .ok true

def checkWithdrawal (ls : LedgerState) (exact : Bool) (withdrawal : Address × Option Int) :
    Except LedgerError Unit := do
  let (addr, amount) := withdrawal
  let cred ← addr.rewardAccountCredential
  match ← ls.rewardAccountBalance cred with
  | none => .error (.withdrawalFromUnregisteredRewardAccount addr)
  | some balance =>
    let amountValid :=
      match amount.bind uint64? with
      | none => false
      | some amount => if exact then amount == balance else decide (amount ≤ balance)
    if amountValid then .ok () else .error (.incorrectWithdrawalAmount addr amount balance)

def utxoValidateWithdrawals (tx : Transaction) (ls : LedgerState) (pp : ProtocolParameters) :
    Except LedgerError Unit :=
  match tx.withdrawals with
  | none => .ok ()
  | some withdrawals => do
      validateWithdrawalAddresses withdrawals
      let exact ← requireExactAmount newTxScriptView tx ls pp
      withdrawals.values.forM (checkWithdrawal ls exact)

end Withdrawals

/-! ## The POOL rule -/

/-- The POOL state after the registrations already visited in the transaction. -/
structure PoolCertificateState where
  current : GoMap PoolKeyHash PoolRegistrationCertificate := ∅
  future : GoMap PoolKeyHash PoolRegistrationCertificate := ∅
  vrfOwners : GoMap VrfKeyHash PoolKeyHash := ∅

namespace PoolCertificateState

variable (base : LedgerState) (s : PoolCertificateState)

def currentRegistration (pool : PoolKeyHash) :
    Except LedgerError (Option PoolRegistrationCertificate) :=
  match s.current.lookup pool with
  | some current => .ok (some current)
  | none => (base.poolCurrentState pool).map Prod.fst

/-- The owners after the key of a superseded pending registration is freed. -/
def releasePrevious (cert current : PoolRegistrationCertificate) : GoMap VrfKeyHash PoolKeyHash :=
  match s.future.lookup cert.operator with
  | none => s.vrfOwners
  | some previous =>
    if previous.vrfKeyHash ≠ current.vrfKeyHash ∧
        s.vrfOwners.lookup previous.vrfKeyHash = some cert.operator then
      s.vrfOwners.erase previous.vrfKeyHash
    else s.vrfOwners

def applyRegistration (cert : PoolRegistrationCertificate) :
    Except LedgerError PoolCertificateState := do
  match ← s.currentRegistration base cert.operator with
  | none =>
    .ok
      { s with
        current := s.current.insert cert.operator cert
        vrfOwners := s.vrfOwners.insert cert.vrfKeyHash cert.operator }
  | some current =>
    .ok
      { s with
        future := s.future.insert cert.operator cert
        vrfOwners := (s.releasePrevious cert current).insert cert.vrfKeyHash cert.operator }

/-- A key someone holds may only be claimed by the pool whose current key it
is. -/
def requireOwnKey (cert : PoolRegistrationCertificate) (owner : PoolKeyHash) :
    Except LedgerError Unit := do
  let current ← s.currentRegistration base cert.operator
  if owner ≠ cert.operator ∨ current.map (·.vrfKeyHash) ≠ some cert.vrfKeyHash then
    .error (.vrfKeyHashAlreadyRegistered cert.operator cert.vrfKeyHash owner)
  else .ok ()

/-- The registration that replaced the deferred parameters of `owner` in this
transaction holds another key. -/
def replaced (owner : PoolKeyHash) (key : VrfKeyHash) : Bool :=
  match s.future.lookup owner with
  | some replacement => replacement.vrfKeyHash ≠ key
  | none => false

def checkClaimed (cert : PoolRegistrationCertificate) : Except LedgerError Unit :=
  match s.vrfOwners.lookup cert.vrfKeyHash with
  | some owner => s.requireOwnKey base cert owner
  | none => .ok ()

def checkInUse (cert : PoolRegistrationCertificate) : Except LedgerError Unit := do
  match ← base.isVrfKeyInUse cert.vrfKeyHash with
  | some owningPool =>
    if owningPool = cert.operator then s.requireOwnKey base cert owningPool
    else .error (.vrfKeyHashAlreadyRegistered cert.operator cert.vrfKeyHash owningPool)
  | none => .ok ()

def checkFutureInUse (futureState : VrfKeyIndex) (cert : PoolRegistrationCertificate) :
    Except LedgerError Unit := do
  match ← futureState cert.vrfKeyHash with
  | some futureOwner =>
    if s.replaced futureOwner cert.vrfKeyHash then .ok ()
    else s.requireOwnKey base cert futureOwner
  | none => .ok ()

/-- The VRF key part of `validatePoolRegistration`. -/
def validateVrfKey (cert : PoolRegistrationCertificate) : Except LedgerError Unit :=
  match base.isFutureVrfKeyInUse? with
  | none => .error .futurePoolParametersStateUnavailable
  | some futureState => do
      s.checkClaimed base cert
      s.checkInUse base cert
      s.checkFutureInUse base futureState cert

end PoolCertificateState

/-- `validatePoolMetadataURL` with the bound of the protocol version. -/
def validatePoolMetadataForProtocolVersion (metadata : Option PoolMetadata) (protocolMajor : Nat) :
    Except LedgerError Unit :=
  let maxURLLength := if protocolMajor < 9 then 64 else 128
  match metadata with
  | none => .ok ()
  | some metadata =>
    if metadata.url.utf8ByteSize ≤ maxURLLength then .ok ()
    else .error (.poolMetadataUrlTooLong maxURLLength metadata.url.utf8ByteSize)

/-- WrongNetworkPOOL, skipped when the supplied network is not known. -/
def checkPoolNetwork (cert : PoolRegistrationCertificate) (networkId protocolMajor : Nat) :
    Except LedgerError Unit :=
  match cert.rewardAccountNetworkId with
  | some supplied =>
    if 4 < protocolMajor ∧ supplied ≠ networkId then
      .error (.wrongNetworkPool cert.operator supplied networkId)
    else .ok ()
  | none => .ok ()

/-- PoolMedataHashTooBig. -/
def checkPoolMetadataHash (cert : PoolRegistrationCertificate) (protocolMajor : Nat) :
    Except LedgerError Unit :=
  match cert.poolMetadata with
  | some metadata =>
    if 4 < protocolMajor ∧ 32 < metadata.hash.length then
      .error (.poolMetadataHashTooBig cert.operator metadata.hash.length 32)
    else .ok ()
  | none => .ok ()

def validatePoolParameters (cert : PoolRegistrationCertificate) (networkId : Nat)
    (pp : ProtocolParameters) : Except LedgerError Unit := do
  validatePoolMetadataForProtocolVersion cert.poolMetadata pp.protocolMajorVersion
  checkPoolNetwork cert networkId pp.protocolMajorVersion
  checkPoolMetadataHash cert pp.protocolMajorVersion
  if cert.cost < pp.minPoolCostValue then
    .error (.stakePoolCostTooLow cert.operator cert.cost pp.minPoolCostValue)
  else .ok ()

def duplicateVrfKeysDisallowed (major : Nat) : Bool := 10 < major

def validatePoolRegistration (cert : PoolRegistrationCertificate) (ls : LedgerState)
    (s : PoolCertificateState) (pp : ProtocolParameters) : Except LedgerError Unit := do
  validatePoolParameters cert ls.networkId pp
  if duplicateVrfKeysDisallowed pp.protocolMajorVersion then s.validateVrfKey ls cert else .ok ()

/-- The last epoch a retirement may name: the sum saturates. -/
def retirementLimitEpoch (currentEpoch maxEpoch : UInt64) : UInt64 :=
  if currentEpoch + maxEpoch < currentEpoch then UInt64.ofNat (2 ^ 64 - 1)
  else currentEpoch + maxEpoch

def validatePoolRetirement (poolKeyHash : PoolKeyHash) (epoch slot : UInt64) (ls : LedgerState)
    (pp : ProtocolParameters) (inTxPoolRegs : GoMap PoolKeyHash Unit) : Except LedgerError Unit :=
  if !ls.isPoolRegistered poolKeyHash && (inTxPoolRegs.lookup poolKeyHash).isNone then
    .error (.stakePoolNotRegisteredOnKey poolKeyHash)
  else
    match ls.epochForSlot? with
    | none =>
      if epoch = 0 then .error (.stakePoolRetirementWrongEpoch poolKeyHash epoch 0 0)
      else .error .epochStateUnavailable
    | some epochForSlot => do
        let currentEpoch ← epochForSlot slot
        let limitEpoch := retirementLimitEpoch currentEpoch pp.poolRetirementMaxEpoch
        if epoch ≤ currentEpoch ∨ limitEpoch < epoch then
          .error (.stakePoolRetirementWrongEpoch poolKeyHash epoch currentEpoch limitEpoch)
        else .ok ()

structure PoolRuleState extends PoolCertificateState where
  inTxPoolRegs : GoMap PoolKeyHash Unit := ∅

def poolRuleStep (slot : UInt64) (ls : LedgerState) (pp : ProtocolParameters)
    (s : PoolRuleState) (cert : Certificate) : Except LedgerError PoolRuleState :=
  match cert with
  | .poolRegistration c => do
      validatePoolRegistration c ls s.toPoolCertificateState pp
      let inTxPoolRegs := s.inTxPoolRegs.insert c.operator ()
      if duplicateVrfKeysDisallowed pp.protocolMajorVersion then
        let poolState ← s.toPoolCertificateState.applyRegistration ls c
        .ok { poolState with inTxPoolRegs := inTxPoolRegs }
      else .ok { s with inTxPoolRegs := inTxPoolRegs }
  | .poolRetirement poolKeyHash epoch => do
      validatePoolRetirement poolKeyHash epoch slot ls pp s.inTxPoolRegs
      .ok s
  | _ => .ok s

def hasPoolCertificate (certs : List Certificate) : Bool := certs.any Certificate.isPool

def utxoValidatePoolCertificates (tx : Transaction) (slot : UInt64) (ls : LedgerState)
    (pp : ProtocolParameters) : Except LedgerError Unit :=
  if !tx.isValid then .ok ()
  else if !hasPoolCertificate tx.certificates then .ok ()
  else do
    let _ ← tx.certificates.foldlM (poolRuleStep slot ls pp) {}
    .ok ()

end Gouroboros.Ledger.Shelley

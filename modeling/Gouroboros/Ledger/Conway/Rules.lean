import Gouroboros.Ledger.Shelley.Rules

/-!
# Conway rules

The Conway rules that walk a transaction's certificates and its value
(`ledger/conway/rules.go`): delegation targets, certificate deposits, reward
withdrawals and value conservation. Every rule keeps its own maps of what the
earlier certificates of the transaction did; each is a state record here, and
the rule is a fold over the certificates.
-/

namespace Gouroboros.Ledger.Conway

/-! ## `UtxoValidateDelegation` -/

def isInConwayBootstrapPhase (pp : ConwayProtocolParameters) : Bool :=
  9 ≤ pp.protocolVersionMajor && pp.protocolVersionMajor < 10

structure DelegationState where
  inTxStakeState : GoMap Credential Bool := ∅
  inTxPoolRegs : GoMap PoolKeyHash Unit := ∅
  inTxDRepRegs : GoMap Credential Bool := ∅
  inTxVrfKeys : GoMap Blake2b256 PoolKeyHash := ∅
  inTxPoolVrfKeys : GoMap PoolKeyHash Blake2b256 := ∅
  inTxPoolActiveVrfKeys : GoMap PoolKeyHash Blake2b256 := ∅

namespace DelegationState

variable (ls : LedgerState) (s : DelegationState)

def isStakeRegistered (cred : Credential) : Bool :=
  match s.inTxStakeState.lookup cred with
  | some registered => registered
  | none => ls.isStakeCredentialRegistered cred

def setStake (cred : Credential) (registered : Bool) : DelegationState :=
  { s with inTxStakeState := s.inTxStakeState.insert cred registered }

def registerStakeCredential (cred : Credential) : Except LedgerError DelegationState :=
  if s.isStakeRegistered ls cred then .error (.stakeCredentialAlreadyRegistered cred)
  else .ok (s.setStake cred true)

def requireStake (cred : Credential) : Except LedgerError Unit :=
  if s.isStakeRegistered ls cred then .ok ()
  else .error (.delegateUnregisteredStakeCredential cred)

def isPoolRegistered (pool : PoolKeyHash) : Bool :=
  ls.isPoolRegistered pool || (s.inTxPoolRegs.lookup pool).isSome

def requirePool (pool : PoolKeyHash) : Except LedgerError Unit :=
  if s.isPoolRegistered ls pool then .ok () else .error (.delegateToUnregisteredPool pool)

/-- Only key and script hashes have a credential type. -/
def drepTypeToCredType (drepType : Int) : Except LedgerError Nat :=
  if drepType = drepTypeAddrKeyHash then .ok credentialTypeAddrKeyHash
  else if drepType = drepTypeScriptHash then .ok credentialTypeScriptHash
  else .error (.invalidDRepType drepType)

def isDRepCredentialRegistered (cred : Credential) : Except LedgerError Bool :=
  match s.inTxDRepRegs.lookup cred with
  | some registered => .ok registered
  | none => do
      let reg ← ls.dRepRegistration cred
      .ok reg.isSome

def isDRepRegistered (drep : Drep) : Except LedgerError Bool :=
  if drep.type = drepTypeAbstain ∨ drep.type = drepTypeNoConfidence then .ok true
  else if drep.type = drepTypeAddrKeyHash ∨ drep.type = drepTypeScriptHash then
    if drep.credential.length ≠ 28 then .ok false
    else do
      let credType ← drepTypeToCredType drep.type
      s.isDRepCredentialRegistered ls ⟨credType, newBlake2b224 drep.credential⟩
  else .error (.invalidDRepType drep.type)

def validateDRepTarget (pp : ConwayProtocolParameters) (drep : Drep) : Except LedgerError Unit :=
  if isInConwayBootstrapPhase pp then .ok ()
  else do
    let registered ← s.isDRepRegistered ls drep
    if registered then .ok ()
    else do
      let credType ← drepTypeToCredType drep.type
      .error (.delegateVoteToUnregisteredDRep ⟨credType, newBlake2b224 drep.credential⟩)

/-- The pool's key before this transaction, the certificate's own for a new
pool, read once. -/
def activeVrfKey (c : PoolRegistrationCertificate) : Except LedgerError Blake2b256 :=
  match s.inTxPoolActiveVrfKeys.lookup c.operator with
  | some key => .ok key
  | none => do
      let (current, _) ← ls.poolCurrentState c.operator
      match current with
      | none => .ok c.vrfKeyHash
      | some current => .ok current.vrfKeyHash

/-- The keys of the transaction after its superseded key is freed. -/
def releasePreviousKey (c : PoolRegistrationCertificate) (active : Blake2b256) :
    GoMap Blake2b256 PoolKeyHash :=
  match s.inTxPoolVrfKeys.lookup c.operator with
  | none => s.inTxVrfKeys
  | some previousKey =>
    if previousKey ≠ c.vrfKeyHash ∧ previousKey ≠ active ∧
        s.inTxVrfKeys.lookup previousKey = some c.operator then
      s.inTxVrfKeys.erase previousKey
    else s.inTxVrfKeys

def checkInTxVrfKey (vrfKeys : GoMap Blake2b256 PoolKeyHash) (c : PoolRegistrationCertificate) :
    Except LedgerError Unit :=
  match vrfKeys.lookup c.vrfKeyHash with
  | some existingPoolId =>
    if existingPoolId ≠ c.operator then
      .error (.duplicateVrfKey c.vrfKeyHash c.operator existingPoolId)
    else .ok ()
  | none => .ok ()

end DelegationState

/-- `PoolValidateVrfKeyUniqueness`, from protocol version 11. -/
def poolValidateVrfKeyUniqueness (c : PoolRegistrationCertificate) (protocolMajor : Nat)
    (ls : LedgerState) : Except LedgerError Unit :=
  if protocolMajor < 11 then .ok ()
  else do
    match ← ls.isVrfKeyInUse c.vrfKeyHash with
    | none => .ok ()
    | some existingPoolId =>
      if existingPoolId = c.operator then .ok ()
      else .error (.duplicateVrfKey c.vrfKeyHash c.operator existingPoolId)

namespace DelegationState

variable (ls : LedgerState) (s : DelegationState)

/-- A pool registration: tracked, and from protocol version 11 its VRF key is
checked against the transaction and the state. -/
def registerPool (pp : ConwayProtocolParameters) (c : PoolRegistrationCertificate) :
    Except LedgerError DelegationState :=
  let s := { s with inTxPoolRegs := s.inTxPoolRegs.insert c.operator () }
  if pp.protocolVersionMajor < 11 then .ok s
  else do
    let active ← s.activeVrfKey ls c
    let vrfKeys := s.releasePreviousKey c active
    checkInTxVrfKey vrfKeys c
    poolValidateVrfKeyUniqueness c pp.protocolVersionMajor ls
    .ok
      { s with
        inTxPoolActiveVrfKeys := s.inTxPoolActiveVrfKeys.insert c.operator active
        inTxVrfKeys := vrfKeys.insert c.vrfKeyHash c.operator
        inTxPoolVrfKeys := s.inTxPoolVrfKeys.insert c.operator c.vrfKeyHash }

/-- The stake credential of a delegation, when the certificate has one. -/
def requireStake? (cred : Option Credential) : Except LedgerError Unit :=
  match cred with
  | none => .ok ()
  | some cred => s.requireStake ls cred

def step (pp : ConwayProtocolParameters) (s : DelegationState) (cert : Certificate) :
    Except LedgerError DelegationState :=
  match cert with
  | .registration cred _ => s.registerStakeCredential ls cred
  | .stakeRegistration cred => s.registerStakeCredential ls cred
  | .poolRegistration c => s.registerPool ls pp c
  | .registrationDrep cred _ _ => .ok { s with inTxDRepRegs := s.inTxDRepRegs.insert cred true }
  | .stakeDeregistration cred => .ok (s.setStake cred false)
  | .deregistration cred _ => .ok (s.setStake cred false)
  | .poolRetirement _ _ => .ok s
  | .deregistrationDrep cred _ => .ok { s with inTxDRepRegs := s.inTxDRepRegs.insert cred false }
  | .stakeDelegation cred pool => do
      s.requirePool ls pool
      s.requireStake? ls cred
      .ok s
  | .voteDelegation cred drep => do
      s.requireStake ls cred
      s.validateDRepTarget ls pp drep
      .ok s
  | .stakeVoteDelegation cred pool drep => do
      s.requirePool ls pool
      s.requireStake ls cred
      s.validateDRepTarget ls pp drep
      .ok s
  | .stakeRegistrationDelegation cred pool _ => do
      let s ← s.registerStakeCredential ls cred
      s.requirePool ls pool
      .ok s
  | .voteRegistrationDelegation cred drep _ => do
      let s ← s.registerStakeCredential ls cred
      s.validateDRepTarget ls pp drep
      .ok s
  | .stakeVoteRegistrationDelegation cred pool drep _ => do
      let s ← s.registerStakeCredential ls cred
      s.requirePool ls pool
      s.validateDRepTarget ls pp drep
      .ok s
  | _ => .ok s

end DelegationState

def utxoValidateDelegation (tx : Transaction) (ls : LedgerState) (pp : ConwayProtocolParameters) :
    Except LedgerError Unit :=
  if !tx.isValid then .ok ()
  else do
    let _ ← tx.certificates.foldlM (DelegationState.step ls pp) {}
    .ok ()

/-! ## `UtxoValidateWithdrawals` -/

section Withdrawals

variable (newTxScriptView : Transaction → LedgerState → TxScriptView × Option LedgerError)

/-- A key-hash withdrawal needs a vote delegation at protocol versions 10 and
11, for any amount. -/
def checkDelegated (ls : LedgerState) (withdrawal : Address × Option Int) :
    Except LedgerError Unit :=
  match withdrawal.1.stakeCredential with
  | none => .ok ()
  | some credential =>
    if credential.credType ≠ credentialTypeAddrKeyHash then .ok ()
    else
      match dRepDelegationStateFor ls with
      | none => .error .dRepDelegationStateUnavailable
      | some delegationState => do
          match ← delegationState credential with
          | none => .error (.withdrawalNotDelegatedToDRep withdrawal.1)
          | some _ => .ok ()

def utxoValidateWithdrawals (tx : Transaction) (ls : LedgerState) (pp : ProtocolParameters) :
    Except LedgerError Unit :=
  if !tx.isValid then .ok ()
  else do
    Shelley.utxoValidateWithdrawals newTxScriptView tx ls pp
    if pp.protocolMajorVersion < 10 ∨ 12 ≤ pp.protocolMajorVersion then .ok ()
    else tx.withdrawalMap.values.forM (checkDelegated ls)

end Withdrawals

/-! ## `UtxoValidateCertificateDeposits` -/

structure CertificateStakeState where
  registered : Bool := false
  deposit : UInt64 := 0
  balance : UInt64 := 0
deriving DecidableEq

structure DepositState where
  stakeStates : GoMap Credential CertificateStakeState := ∅
  drepStates : GoMap Credential (Option DRepRegistration) := ∅

namespace DepositState

variable (ls : LedgerState) (s : DepositState)

/-- The deposit and balance of a registered credential; a state without either
is inconsistent. -/
def recordedStakeState (cred : Credential) : Except LedgerError CertificateStakeState :=
  match stakeCredentialDepositStateFor ls with
  | none => .error .certificateDepositStateUnavailable
  | some depositState => do
      match ← depositState cred with
      | none => .error (.certificateDepositStateInconsistent cred)
      | some deposit => do
          match ← ls.rewardAccountBalance cred with
          | none => .error (.certificateDepositStateInconsistent cred)
          | some balance => .ok ⟨true, deposit, balance⟩

def storeStakeState (cred : Credential) (state : CertificateStakeState) : DepositState :=
  { s with stakeStates := s.stakeStates.insert cred state }

def queryStakeState (cred : Credential) : Except LedgerError CertificateStakeState :=
  if ls.isStakeCredentialRegistered cred then recordedStakeState ls cred else .ok {}

/-- The credential's state, and the maps with it cached. -/
def loadStakeState (cred : Credential) :
    Except LedgerError (CertificateStakeState × DepositState) :=
  match s.stakeStates.lookup cred with
  | some state => .ok (state, s)
  | none => do
      let state ← queryStakeState ls cred
      .ok (state, s.storeStakeState cred state)

/-- A withdrawal drains the temporary balance of a credential that a later
certificate of the transaction deregisters. -/
def applyWithdrawal (deregistered : List Credential) (s : DepositState)
    (withdrawal : Address × Option Int) : Except LedgerError DepositState :=
  match withdrawal.1.stakeCredential, withdrawal.2.bind uint64? with
  | some cred, some amount =>
    if cred ∉ deregistered then .ok s
    else do
      let (state, s) ← s.loadStakeState ls cred
      if amount ≤ state.balance then
        .ok (s.storeStakeState cred { state with balance := state.balance - amount })
      else .ok s
  | _, _ => .ok s

def isMarkedRegistered (cred : Credential) : Bool :=
  match s.stakeStates.lookup cred with
  | some state => state.registered
  | none => ls.isStakeCredentialRegistered cred

def markStakeRegistered (keyDeposit : UInt64) (cred : Credential) :
    Except LedgerError DepositState :=
  if s.isMarkedRegistered ls cred then .error (.stakeCredentialAlreadyRegistered cred)
  else .ok (s.storeStakeState cred ⟨true, keyDeposit, 0⟩)

def registerStake (keyDeposit : UInt64) (cred : Credential) (certificateType : Nat)
    (supplied : UInt64) : Except LedgerError DepositState :=
  if supplied ≠ keyDeposit then
    .error (.certificateDepositIncorrect certificateType supplied keyDeposit)
  else s.markStakeRegistered ls keyDeposit cred

/-- The refund a certificate names, when it names one, is the recorded
deposit. -/
def checkRefund (certificateType : Nat) (supplied : Option UInt64) (deposit : UInt64) :
    Except LedgerError Unit :=
  match supplied with
  | none => .ok ()
  | some supplied =>
    if supplied ≠ deposit then
      .error (.certificateRefundIncorrect certificateType supplied deposit)
    else .ok ()

def deregisterStake (cred : Credential) (certificateType : Nat) (supplied : Option UInt64) :
    Except LedgerError DepositState := do
  let (state, s) ← s.loadStakeState ls cred
  if !state.registered then .error (.stakeCredentialNotRegistered cred)
  else do
    checkRefund certificateType supplied state.deposit
    if state.balance ≠ 0 then .error (.stakeCredentialNonZeroRewardBalance cred state.balance)
    else .ok (s.storeStakeState cred { state with registered := false, deposit := 0 })

def storeDRep (cred : Credential) (registration : Option DRepRegistration) : DepositState :=
  { s with drepStates := s.drepStates.insert cred registration }

def loadDRep (cred : Credential) :
    Except LedgerError (Option DRepRegistration × DepositState) :=
  match s.drepStates.lookup cred with
  | some state => .ok (state, s)
  | none => do
      let state ← ls.dRepRegistration cred
      .ok (state, s.storeDRep cred state)

def registerDRep (drepDeposit : UInt64) (cred : Credential) (certificateType : Nat)
    (supplied : UInt64) : Except LedgerError DepositState :=
  if supplied ≠ drepDeposit then
    .error (.certificateDepositIncorrect certificateType supplied drepDeposit)
  else do
    let (registration, s) ← s.loadDRep ls cred
    match registration with
    | some _ => .error (.dRepAlreadyRegistered cred)
    | none => .ok (s.storeDRep cred (some ⟨cred, none, some drepDeposit⟩))

def deregisterDRep (cred : Credential) (certificateType : Nat) (supplied : UInt64) :
    Except LedgerError DepositState := do
  let (registration, s) ← s.loadDRep ls cred
  match registration with
  | none => .error (.dRepNotRegistered cred)
  | some registration =>
    match registration.deposit with
    | none => .error (.dRepDepositStateInconsistent cred)
    | some deposit =>
      if supplied ≠ deposit then
        .error (.certificateRefundIncorrect certificateType supplied deposit)
      else .ok (s.storeDRep cred none)

def updateDRep (cred : Credential) : Except LedgerError DepositState := do
  let (registration, s) ← s.loadDRep ls cred
  match registration with
  | none => .error (.dRepNotRegistered cred)
  | some _ => .ok s

def step (keyDeposit drepDeposit : UInt64) (s : DepositState) (cert : Certificate) :
    Except LedgerError DepositState :=
  match cert with
  | .stakeRegistration cred => s.markStakeRegistered ls keyDeposit cred
  | .registration cred amount => s.registerStake ls keyDeposit cred cert.type amount
  | .stakeRegistrationDelegation cred _ amount =>
    s.registerStake ls keyDeposit cred cert.type amount
  | .voteRegistrationDelegation cred _ amount => s.registerStake ls keyDeposit cred cert.type amount
  | .stakeVoteRegistrationDelegation cred _ _ amount =>
    s.registerStake ls keyDeposit cred cert.type amount
  | .stakeDeregistration cred => s.deregisterStake ls cred cert.type none
  | .deregistration cred amount => s.deregisterStake ls cred cert.type (some amount)
  | .registrationDrep cred amount _ => s.registerDRep ls drepDeposit cred cert.type amount
  | .deregistrationDrep cred amount => s.deregisterDRep ls cred cert.type amount
  | .updateDrep cred _ => s.updateDRep ls cred
  | _ => .ok s

end DepositState

/-- The credentials some certificate of the list deregisters. -/
def deregisteredStakeCredentials (certs : List Certificate) : List Credential :=
  certs.filterMap fun
    | .stakeDeregistration cred => some cred
    | .deregistration cred _ => some cred
    | _ => none

/-- The deposits of the parameters, when they are exposed and fit. -/
def certificateDepositAmounts (pp : ProtocolParameters) : Except LedgerError (UInt64 × UInt64) :=
  match pp.keyDepositAmount.bind uint64?, pp.dRepDepositAmount.bind uint64? with
  | none, _ => .error (.message "key deposit does not fit uint64")
  | some _, none => .error (.message "DRep deposit does not fit uint64")
  | some keyDeposit, some drepDeposit => .ok (keyDeposit, drepDeposit)

def utxoValidateCertificateDeposits (tx : Transaction) (ls : LedgerState)
    (pp : ProtocolParameters) : Except LedgerError Unit :=
  if !tx.isValid then .ok ()
  else do
    let (keyDeposit, drepDeposit) ← certificateDepositAmounts pp
    let deregistered := deregisteredStakeCredentials tx.certificates
    let s ← tx.withdrawalMap.values.foldlM (DepositState.applyWithdrawal ls deregistered) {}
    let _ ← tx.certificates.foldlM (DepositState.step ls keyDeposit drepDeposit) s
    .ok ()

/-! ## `conwayValueConservationDeposits` -/

structure ValueConservationStakeState where
  registered : Bool
  deposit : UInt64
deriving DecidableEq

/-- The running refunds and deposits, and the maps of
`conwayValueConservationDeposits`. -/
structure ValueState where
  refunds : Int := 0
  deposits : Int := 0
  stakeStates : GoMap Credential ValueConservationStakeState := ∅
  drepStates : GoMap Credential (Option DRepRegistration) := ∅

namespace ValueState

variable (ls : LedgerState) (pp : ConwayProtocolParameters) (s : ValueState)

def setStake (cred : Credential) (state : ValueConservationStakeState) : ValueState :=
  { s with stakeStates := s.stakeStates.insert cred state }

def queryStake (cred : Credential) : Except LedgerError ValueConservationStakeState :=
  if ls.isStakeCredentialRegistered cred then do
    let deposit ← stakeCredentialDepositOrDefault ls cred pp.keyDeposit
    .ok ⟨true, deposit⟩
  else .ok ⟨false, pp.keyDeposit⟩

def getStake (cred : Credential) : Except LedgerError (ValueConservationStakeState × ValueState) :=
  match s.stakeStates.lookup cred with
  | some state => .ok (state, s)
  | none => do
      let state ← queryStake ls pp cred
      .ok (state, s.setStake cred state)

def setDRep (cred : Credential) (state : Option DRepRegistration) : ValueState :=
  { s with drepStates := s.drepStates.insert cred state }

/-- A registration without a recorded deposit is rejected. -/
def queryDRep (cred : Credential) : Except LedgerError (Option DRepRegistration) := do
  let state ← ls.dRepRegistration cred
  match state with
  | none => .ok none
  | some registration =>
    if registration.deposit.isNone then .error (.dRepDepositStateInconsistent cred)
    else .ok (some registration)

def getDRep (cred : Credential) : Except LedgerError (Option DRepRegistration × ValueState) :=
  match s.drepStates.lookup cred with
  | some state => .ok (state, s)
  | none => do
      let state ← queryDRep ls cred
      .ok (state, s.setDRep cred state)

def addRefund (amount : UInt64) : ValueState := { s with refunds := s.refunds + amount.toNat }

def addDeposit (amount : UInt64) : ValueState := { s with deposits := s.deposits + amount.toNat }

/-- `checkDeposit`, only for a phase-2-valid transaction. -/
def checkDeposit (isValid : Bool) (certificateType : Nat) (amount expected : UInt64) :
    Except LedgerError Unit :=
  if isValid ∧ amount ≠ expected then
    .error (.certificateDepositIncorrect certificateType amount expected)
  else .ok ()

def registerStake (cred : Credential) : ValueState :=
  (s.addDeposit pp.keyDeposit).setStake cred ⟨true, pp.keyDeposit⟩

/-- A registration that carries the key deposit. -/
def registerStakeChecked (isValid : Bool) (cred : Credential) (certificateType : Nat)
    (amount : UInt64) : Except LedgerError ValueState := do
  checkDeposit isValid certificateType amount pp.keyDeposit
  .ok (s.registerStake pp cred)

/-- The refund a deregistration names; a phase-2-invalid transaction is not
checked. -/
def checkRefund (isValid : Bool) (certificateType : Nat) (amount : Option UInt64)
    (deposit : UInt64) : Except LedgerError Unit :=
  match amount with
  | none => .ok ()
  | some amount =>
    if isValid ∧ amount ≠ deposit then
      .error (.certificateRefundIncorrect certificateType amount deposit)
    else .ok ()

/-- A stake deregistration refunds the recorded deposit; without an `amount` it
is the pre-Conway certificate. -/
def deregisterStake (isValid : Bool) (cred : Credential) (certificateType : Nat)
    (amount : Option UInt64) : Except LedgerError ValueState := do
  let (state, s) ← s.getStake ls pp cred
  if !state.registered then
    if isValid then .error (.stakeCredentialNotRegistered cred) else .ok s
  else do
    checkRefund isValid certificateType amount state.deposit
    .ok ((s.addRefund state.deposit).setStake cred ⟨false, 0⟩)

def deregisterDRep (isValid : Bool) (cred : Credential) (certificateType : Nat)
    (amount : UInt64) : Except LedgerError ValueState := do
  let (state, s) ← s.getDRep ls cred
  match state with
  | none => if isValid then .error (.dRepNotRegistered cred) else .ok s
  | some registration =>
    match registration.deposit with
    | none => .error (.dRepDepositStateInconsistent cred)
    | some deposit =>
      if isValid ∧ amount ≠ deposit then
        .error (.certificateRefundIncorrect certificateType amount deposit)
      else .ok ((s.addRefund deposit).setDRep cred none)

def registerDRep (isValid : Bool) (cred : Credential) (certificateType : Nat)
    (amount : UInt64) : Except LedgerError ValueState := do
  checkDeposit isValid certificateType amount pp.dRepDeposit
  .ok ((s.addDeposit pp.dRepDeposit).setDRep cred (some ⟨cred, none, some pp.dRepDeposit⟩))

def step (isValid : Bool) (s : ValueState) (cert : Certificate) : Except LedgerError ValueState :=
  match cert with
  | .stakeDeregistration cred => s.deregisterStake ls pp isValid cred cert.type none
  | .deregistration cred amount => s.deregisterStake ls pp isValid cred cert.type (some amount)
  | .deregistrationDrep cred amount => s.deregisterDRep ls isValid cred cert.type amount
  | .stakeRegistration cred => .ok (s.registerStake pp cred)
  | .registration cred amount => s.registerStakeChecked pp isValid cred cert.type amount
  | .registrationDrep cred amount _ => s.registerDRep pp isValid cred cert.type amount
  | .stakeRegistrationDelegation cred _ amount =>
    s.registerStakeChecked pp isValid cred cert.type amount
  | .stakeVoteRegistrationDelegation cred _ _ amount =>
    s.registerStakeChecked pp isValid cred cert.type amount
  | .voteRegistrationDelegation cred _ amount =>
    s.registerStakeChecked pp isValid cred cert.type amount
  | _ => .ok s

end ValueState

/-- A valid transaction's proposals carry the governance action deposit. -/
def checkProposalDeposit (pp : ConwayProtocolParameters) (isValid : Bool)
    (proposal : ProposalProcedure) : Except LedgerError Unit :=
  if isValid ∧ proposal.deposit ≠ pp.govActionDeposit then
    .error (.proposalDepositIncorrect proposal.deposit pp.govActionDeposit)
  else .ok ()

/-- The refunds and deposits of the certificates, in order. -/
def conwayValueConservationDeposits (tx : Transaction) (ls : LedgerState)
    (pp : ConwayProtocolParameters) : Except LedgerError (Int × Int) := do
  let s ← tx.certificates.foldlM (ValueState.step ls pp tx.isValid) {}
  tx.proposalProcedures.forM (checkProposalDeposit pp tx.isValid)
  .ok (s.refunds, s.deposits)

/-! ## `UtxoValidateValueNotConservedUtxo` -/

section ValueNotConserved

variable (newTxScriptView : Transaction → LedgerState → TxScriptView × Option LedgerError)

/-- A donation at a level that uses PlutusV1 or PlutusV2 scripts is rejected. -/
def validateTreasuryDonationScriptCompatibility (tx : Transaction) (ls : LedgerState) :
    Except LedgerError Unit :=
  match tx.donation with
  | none => .ok ()
  | some donation =>
    if donation ≤ 0 then .ok ()
    else
      let (view, err) := newTxScriptView tx ls
      match err.filter (· ≠ .inputResolution) with
      | some err => .error err
      | none =>
        let reject := fun plutusVersion =>
          .error (.treasuryDonationWithPlutusV1V2 ((uint64? donation).getD 0) plutusVersion)
        if view.needsAny (· == .plutusV1) then reject "PlutusV1"
        else if view.needsAny (· == .plutusV2) then reject "PlutusV2"
        else .ok ()

def coinOf (output : TransactionOutput) : Int := output.amount.getD 0

def inputCoin (ls : LedgerState) (inputs : List TransactionInput) : Int :=
  (inputs.map fun input =>
    match ls.utxoById input with
    | .ok utxo => coinOf utxo.output
    | .error _ => 0).sum

def withdrawalCoin (withdrawals : Withdrawals) : Int :=
  (withdrawals.values.map fun w => w.2.getD 0).sum

/-- The lovelace minted under the all-zero policy with an empty name. -/
def mintedAda (mint : Option MultiAsset) : Int :=
  match mint with
  | none => 0
  | some mint => (mint.asset 0 []).getD 0

/-- The pool deposits of the certificates: once for each distinct operator that
owes one, in certificate order. -/
def poolDeposits (ls : LedgerState) (slot : UInt64) (poolDeposit : UInt64) :
    List PoolKeyHash → List Certificate → Except LedgerError Int
  | _, [] => .ok 0
  | seen, .poolRegistration c :: certs =>
    if c.operator ∈ seen then poolDeposits ls slot poolDeposit seen certs
    else do
      let due ← poolRegistrationDepositDue ls slot c.operator
      let rest ← poolDeposits ls slot poolDeposit (c.operator :: seen) certs
      .ok ((if due then (poolDeposit.toNat : Int) else 0) + rest)
  | seen, _ :: certs => poolDeposits ls slot poolDeposit seen certs

abbrev AssetKey := Blake2b224 × ByteString

def addAsset (skip : AssetKey → Bool) (value : MultiAsset) (policy : Blake2b224)
    (totals : GoMap AssetKey Int) (assetName : ByteString) : GoMap AssetKey Int :=
  match value.asset policy assetName with
  | none => totals
  | some amount =>
    if skip (policy, assetName) then totals
    else totals.insert (policy, assetName)
      ((totals.lookup (policy, assetName)).getD 0 + amount)

def addPolicy (skip : AssetKey → Bool) (value : MultiAsset) (totals : GoMap AssetKey Int)
    (policy : Blake2b224) : GoMap AssetKey Int :=
  (value.assets policy).foldl (addAsset skip value policy) totals

def addAssets (skip : AssetKey → Bool) (totals : GoMap AssetKey Int) (value : MultiAsset) :
    GoMap AssetKey Int :=
  value.policies.foldl (addPolicy skip value) totals

def addOutputAssets (totals : GoMap AssetKey Int) (output : TransactionOutput) :
    GoMap AssetKey Int :=
  match output.assets with
  | none => totals
  | some assets => addAssets (fun _ => false) totals assets

def addInputAssets (ls : LedgerState) (totals : GoMap AssetKey Int) (input : TransactionInput) :
    GoMap AssetKey Int :=
  match ls.utxoById input with
  | .error _ => totals
  | .ok utxo => addOutputAssets totals utxo.output

def isAdaKey (key : AssetKey) : Bool := key.1 == 0 && key.2.length == 0

/-- The assets of the resolved inputs and the mint, lovelace apart. -/
def consumedAssets (tx : Transaction) (ls : LedgerState) : GoMap AssetKey Int :=
  let inputs := tx.inputs.foldl (addInputAssets ls) ∅
  match tx.assetMint with
  | none => inputs
  | some mint => addAssets isAdaKey inputs mint

def producedAssets (tx : Transaction) : GoMap AssetKey Int := tx.outputs.foldl addOutputAssets ∅

/-- One consumed asset against the produced ones, which lose the key. -/
def matchAsset (produced : GoMap AssetKey Int) (entry : AssetKey × Int) :
    Except LedgerError (GoMap AssetKey Int) :=
  let amount := (produced.lookup entry.1).getD 0
  if entry.2 ≠ amount then .error (.valueNotConserved entry.2 amount)
  else .ok (produced.erase entry.1)

def checkUnmatched (amount : Int) : Except LedgerError Unit :=
  if amount ≠ 0 then .error (.valueNotConserved 0 amount) else .ok ()

/-- Every consumed asset is produced, and nothing else is. -/
def checkAssets (consumed produced : GoMap AssetKey Int) : Except LedgerError Unit := do
  let unmatched ← consumed.toPairs.foldlM matchAsset produced
  unmatched.values.forM checkUnmatched

def donationCoin (donation : Option Int) : Int :=
  match donation with
  | none => 0
  | some donation => if 0 < donation then donation else 0

def checkDonation (tx : Transaction) (ls : LedgerState) : Except LedgerError Unit :=
  if 0 < donationCoin tx.donation then
    validateTreasuryDonationScriptCompatibility newTxScriptView tx ls
  else .ok ()

def utxoValidateValueNotConservedUtxo (tx : Transaction) (slot : UInt64) (ls : LedgerState)
    (pp : ConwayProtocolParameters) : Except LedgerError Unit := do
  let (refunds, deposits) ← conwayValueConservationDeposits tx ls pp
  let consumedValue := inputCoin ls tx.inputs + withdrawalCoin tx.withdrawalMap + refunds +
    mintedAda tx.assetMint
  let poolValue ← poolDeposits ls slot pp.poolDeposit [] tx.certificates
  checkDonation newTxScriptView tx ls
  let producedValue := (tx.outputs.map coinOf).sum + tx.fee.getD 0 + deposits + poolValue +
    (tx.proposalProcedures.length : Int) * pp.govActionDeposit.toNat + donationCoin tx.donation
  if consumedValue ≠ producedValue then .error (.valueNotConserved consumedValue producedValue)
  else checkAssets (consumedAssets tx ls) (producedAssets tx)

end ValueNotConserved

end Gouroboros.Ledger.Conway

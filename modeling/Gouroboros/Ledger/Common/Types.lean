import Mathlib.Data.Nat.Digits.Defs
import Gouroboros.Lib.GoMap

/-!
# Ledger data

The values the ledger rules and the block fold read: credentials and
addresses, certificates, values, transactions and protocol parameters
(`ledger/common/certs.go`, `address.go`, `common.go`, `tx.go`).

Hashes are bit vectors, with the bytes read most significant first. A `uint64`
is a `UInt64`, a possibly nil `*big.Int` an `Option Int`, a byte string a list
of bytes, and a Go map a `GoMap`. A Go interface is the record of the results
of its methods, so a rule of the source that takes a `common.Transaction` takes
a `Transaction` here, and each era's transaction type is converted to it.
-/

namespace Gouroboros.Ledger

abbrev ByteString := List UInt8

/-- Equality of byte strings, named once for the membership tests of the rules. -/
instance instLawfulBEqByteString : LawfulBEq ByteString := inferInstanceAs (LawfulBEq (List UInt8))

/-- `%x`. -/
def hexString (bytes : ByteString) : String :=
  String.ofList (bytes.flatMap fun b => [Nat.digitChar (b.toNat / 16), Nat.digitChar (b.toNat % 16)])

abbrev Blake2b224 := BitVec 224

abbrev Blake2b256 := BitVec 256

abbrev PoolKeyHash := Blake2b224

abbrev VrfKeyHash := Blake2b256

/-! ## Credentials -/

/-- A credential with its key or script tag. The tag is part of the identity:
the overlay maps of the source are keyed by the pair. -/
structure Credential where
  credType : Nat
  credential : Blake2b224
deriving DecidableEq, Inhabited

def credentialTypeAddrKeyHash : Nat := 0

def credentialTypeScriptHash : Nat := 1

/-- A vote delegation target. The type is a Go `int` that a programmatically
built value may set out of range. -/
structure Drep where
  type : Int
  credential : ByteString
deriving DecidableEq

def drepTypeAddrKeyHash : Int := 0

def drepTypeScriptHash : Int := 1

def drepTypeAbstain : Int := 2

def drepTypeNoConfidence : Int := 3

/-- Bytes of a 28-byte hash, most significant first. -/
def Blake2b224.bytes (h : Blake2b224) : ByteString :=
  (List.range 28).map fun i => UInt8.ofNat (h.toNat / 256 ^ (27 - i))

/-- The hash with these bytes, most significant first. -/
def newBlake2b224 (bs : ByteString) : Blake2b224 :=
  BitVec.ofNat 224 (Nat.ofDigits 256 (bs.reverse.map UInt8.toNat))

structure GovAnchor where
  url : String
  dataHash : Blake2b256
deriving DecidableEq

/-- The state held for a registered DRep. An absent deposit is distinct from a
recorded zero. -/
structure DRepRegistration where
  credential : Credential
  anchor : Option GovAnchor
  deposit : Option UInt64
deriving DecidableEq

/-! ## Addresses -/

inductive AddressPayload where
  | keyHash (hash : Blake2b224)
  | scriptHash (hash : Blake2b224)
  | pointer (slot txIndex certIndex : UInt64)
deriving DecidableEq

/-- The fields of an address the withdrawal rules read. `byronNetwork` is the
network attribute of a Byron address. -/
structure Address where
  addressType : UInt8
  networkId : UInt8
  paymentPayload : Option AddressPayload
  stakingPayload : Option AddressPayload
  trailingBytes : ByteString
  byronNetwork : Option UInt32
deriving DecidableEq

namespace Address

def typeByron : UInt8 := 0b1000

def typeNoneKey : UInt8 := 0b1110

def typeNoneScript : UInt8 := 0b1111

def networkTestnet : UInt8 := 0

def networkMainnet : UInt8 := 1

/-- The high groups of a variable-length integer: seven bits a byte, most
significant first, each with the continuation bit. A `uint64` has at most nine
of them beside its last group. -/
def varUintHigh : Nat → Nat → ByteString
  | 0, _ => []
  | fuel + 1, val =>
    if val = 0 then []
    else varUintHigh fuel (val / 128) ++ [UInt8.ofNat (val % 128 + 128)]

def writeVarUint (val : UInt64) : ByteString :=
  varUintHigh 9 (val.toNat / 128) ++ [UInt8.ofNat (val.toNat % 128)]

/-- The bytes a payload contributes to a Shelley address. -/
def payloadBytes : Option AddressPayload → ByteString
  | none => []
  | some (.keyHash h) => Blake2b224.bytes h
  | some (.scriptHash h) => Blake2b224.bytes h
  | some (.pointer slot txIndex certIndex) =>
    writeVarUint slot ++ writeVarUint txIndex ++ writeVarUint certIndex

/-- A Byron address reports the Shelley convention. -/
def NetworkId (a : Address) : Nat :=
  if a.addressType = typeByron then
    match a.byronNetwork with
    | none => networkMainnet.toNat
    | some _ => networkTestnet.toNat
  else
    a.networkId.toNat

/-- A payment payload is never a pointer: `Bytes` drops one. -/
def paymentBytes : Option AddressPayload → ByteString
  | some (.pointer _ _ _) => []
  | p => payloadBytes p

/-- `Bytes` of a Shelley address: header, payment payload, staking payload.
Trailing bytes are not emitted again. Byron addresses, whose encoding is CBOR,
never reach it from the withdrawal rules. -/
def bytes (a : Address) : ByteString :=
  ((a.addressType <<< 4) ||| (a.networkId &&& 0x0f)) ::
    (paymentBytes a.paymentPayload ++ payloadBytes a.stakingPayload)

/-- Pointer and absent payloads carry no credential. -/
def stakeCredential (a : Address) : Option Credential :=
  match a.stakingPayload with
  | some (.keyHash h) => some ⟨credentialTypeAddrKeyHash, h⟩
  | some (.scriptHash h) => some ⟨credentialTypeScriptHash, h⟩
  | _ => none

end Address

/-! ## Certificates -/

structure PoolMetadata where
  url : String
  hash : ByteString
deriving DecidableEq

/-- The parts of a pool registration the rules read. `rewardAccountNetworkId`
is absent when the certificate was not decoded from a wire reward account. -/
structure PoolRegistrationCertificate where
  operator : PoolKeyHash
  vrfKeyHash : VrfKeyHash
  cost : UInt64
  rewardAccountNetworkId : Option Nat
  poolMetadata : Option PoolMetadata
deriving DecidableEq

/-- The certificates of every era, in the order of their wire numbers. -/
inductive Certificate where
  | stakeRegistration (stakeCredential : Credential)
  | stakeDeregistration (stakeCredential : Credential)
  | stakeDelegation (stakeCredential : Option Credential) (poolKeyHash : PoolKeyHash)
  | poolRegistration (cert : PoolRegistrationCertificate)
  | poolRetirement (poolKeyHash : PoolKeyHash) (epoch : UInt64)
  | genesisKeyDelegation
  | moveInstantaneousRewards (source : Nat) (rewards : List (Option Credential × Option Int))
  | registration (stakeCredential : Credential) (amount : UInt64)
  | deregistration (stakeCredential : Credential) (amount : UInt64)
  | voteDelegation (stakeCredential : Credential) (drep : Drep)
  | stakeVoteDelegation (stakeCredential : Credential) (poolKeyHash : PoolKeyHash) (drep : Drep)
  | stakeRegistrationDelegation (stakeCredential : Credential) (poolKeyHash : PoolKeyHash)
      (amount : UInt64)
  | voteRegistrationDelegation (stakeCredential : Credential) (drep : Drep) (amount : UInt64)
  | stakeVoteRegistrationDelegation (stakeCredential : Credential) (poolKeyHash : PoolKeyHash)
      (drep : Drep) (amount : UInt64)
  | authCommitteeHot (coldCredential hotCredential : Credential)
  | resignCommitteeCold (coldCredential : Credential)
  | registrationDrep (drepCredential : Credential) (amount : UInt64) (anchor : Option GovAnchor)
  | deregistrationDrep (drepCredential : Credential) (amount : UInt64)
  | updateDrep (drepCredential : Credential) (anchor : Option GovAnchor)
deriving DecidableEq

/-- The wire number of a certificate. -/
def Certificate.type : Certificate → Nat
  | stakeRegistration _ => 0
  | stakeDeregistration _ => 1
  | stakeDelegation _ _ => 2
  | poolRegistration _ => 3
  | poolRetirement _ _ => 4
  | genesisKeyDelegation => 5
  | moveInstantaneousRewards _ _ => 6
  | registration _ _ => 7
  | deregistration _ _ => 8
  | voteDelegation _ _ => 9
  | stakeVoteDelegation _ _ _ => 10
  | stakeRegistrationDelegation _ _ _ => 11
  | voteRegistrationDelegation _ _ _ => 12
  | stakeVoteRegistrationDelegation _ _ _ _ => 13
  | authCommitteeHot _ _ => 14
  | resignCommitteeCold _ => 15
  | registrationDrep _ _ _ => 16
  | deregistrationDrep _ _ => 17
  | updateDrep _ _ => 18

def Certificate.isPool : Certificate → Bool
  | poolRegistration _ => true
  | poolRetirement _ _ => true
  | _ => false

def Certificate.isDRep : Certificate → Bool
  | registrationDrep _ _ _ => true
  | deregistrationDrep _ _ => true
  | updateDrep _ _ => true
  | _ => false

/-! ## Values, inputs and outputs -/

structure TransactionInput where
  id : Blake2b256
  index : UInt32
deriving DecidableEq

/-- Quantities by policy and asset name, a quantity possibly a nil pointer. -/
structure MultiAsset where
  data : GoMap Blake2b224 (GoMap ByteString (Option Int))

namespace MultiAsset

/-- `NewMultiAsset(nil)`: no policies. -/
def empty : MultiAsset := ⟨∅⟩

def policies (m : MultiAsset) : List Blake2b224 := m.data.keys

def assets (m : MultiAsset) (policyId : Blake2b224) : List ByteString :=
  match m.data.lookup policyId with
  | none => []
  | some assets => assets.keys

/-- An absent policy, an absent name and a nil quantity are all nil. -/
def asset (m : MultiAsset) (policyId : Blake2b224) (assetName : ByteString) : Option Int :=
  match m.data.lookup policyId with
  | none => none
  | some policy => (policy.lookup assetName).join

end MultiAsset

structure TransactionOutput where
  amount : Option Int
  assets : Option MultiAsset

structure Utxo where
  id : TransactionInput
  output : TransactionOutput

/-! ## Governance proposals -/

inductive GovActionType where
  | parameterChange
  | hardForkInitiation
  | treasuryWithdrawal
  | noConfidence
  | updateCommittee
  | newConstitution
  | info
deriving DecidableEq

structure GovActionId where
  transactionId : Blake2b256
  govActionIdx : UInt32
deriving DecidableEq

/-- A proposal's deposit and the kind of its action, absent for a nil action or
one of no known kind. The action itself is only copied; it is its encoding here. -/
structure ProposalProcedure where
  deposit : UInt64
  govActionType : Option GovActionType
  govAction : ByteString
deriving DecidableEq

structure GovActionState where
  actionId : GovActionId
  actionType : GovActionType
  expirySlot : UInt64
  action : ByteString
deriving DecidableEq

def maxGovActionIdx : Nat := 65535

/-! ## The committee -/

structure CommitteeMember where
  coldKey : Blake2b224
  hotKey : Option Blake2b224
  expiryEpoch : UInt64
  resigned : Bool
deriving DecidableEq

/-! ## Account balance intervals -/

/-- An exact balance, or a half-open range with at least one bound. -/
structure DijkstraAccountBalanceInterval where
  exactBalance : Option UInt64
  lowerBound : Option UInt64
  upperBound : Option UInt64
deriving DecidableEq

structure AccountBalanceIntervalMismatch where
  credential : Credential
  balance : UInt64
  interval : DijkstraAccountBalanceInterval
deriving DecidableEq

/-! ## Errors

The error values of the rules, with the data they report. A `provider` error
is one a ledger-state query returned; `message` is an `errors.New` text, and
`invalidRewardAccount` wraps the reason a map key is not a reward account. -/

inductive LedgerError where
  | provider (text : String)
  | message (text : String)
  | inputResolution
  | utxoSpentInBlock (input : TransactionInput)
  | duplicateInput (input : TransactionInput) (inputType : String)
  | badInputs (inputs : List TransactionInput)
  | wrongNetworkWithdrawal (netId : Nat) (addrs : List Address)
  | valueNotConserved (consumed produced : Int)
  | withdrawalFromUnregisteredRewardAccount (rewardAddress : Address)
  | incorrectWithdrawalAmount (rewardAddress : Address) (provided : Option Int) (balance : UInt64)
  | withdrawalNotDelegatedToDRep (rewardAddress : Address)
  | dRepDelegationStateUnavailable
  | certificateDepositIncorrect (certificateType : Nat) (supplied expected : UInt64)
  | certificateRefundIncorrect (certificateType : Nat) (supplied expected : UInt64)
  | certificateDepositStateUnavailable
  | certificateDepositStateInconsistent (credential : Credential)
  | dRepDepositStateInconsistent (credential : Credential)
  | stakeCredentialNotRegistered (credential : Credential)
  | stakeCredentialNonZeroRewardBalance (credential : Credential) (balance : UInt64)
  | stakeCredentialAlreadyRegistered (credential : Credential)
  | dRepNotRegistered (credential : Credential)
  | dRepAlreadyRegistered (credential : Credential)
  | proposalDepositIncorrect (supplied expected : UInt64)
  | treasuryDonationWithPlutusV1V2 (donation : UInt64) (plutusVersion : String)
  | delegateToUnregisteredPool (poolKeyHash : PoolKeyHash)
  | delegateUnregisteredStakeCredential (credential : Credential)
  | delegateVoteToUnregisteredDRep (dRepCredential : Credential)
  | invalidDRepType (drepType : Int)
  | duplicateVrfKey (vrfKeyHash : VrfKeyHash) (newPoolId existingPoolId : PoolKeyHash)
  | futurePoolParametersStateUnavailable
  | epochStateUnavailable
  | poolMetadataUrlTooLong (maximum got : Nat)
  | wrongNetworkPool (poolKeyHash : PoolKeyHash) (supplied expected : Nat)
  | poolMetadataHashTooBig (poolKeyHash : PoolKeyHash) (supplied max : Nat)
  | stakePoolCostTooLow (poolKeyHash : PoolKeyHash) (supplied min : UInt64)
  | vrfKeyHashAlreadyRegistered (poolKeyHash : PoolKeyHash) (vrfKeyHash : VrfKeyHash)
      (registeredBy : PoolKeyHash)
  | stakePoolNotRegisteredOnKey (poolKeyHash : PoolKeyHash)
  | stakePoolRetirementWrongEpoch (poolKeyHash : PoolKeyHash)
      (supplied currentEpoch limitEpoch : UInt64)
  | wrongNetworkAccountAddresses (field : String) (networkId : Nat) (addresses : List Address)
  | missingAccountsInBalanceIntervals (credentials : List Credential) (starting : Bool)
  | balancesOutsideAccountBalanceIntervals (mismatches : List AccountBalanceIntervalMismatch)
      (starting : Bool)
  | directDepositAccountsMissing (credentials : List Credential)
  | invalidRewardAccount (field : String) (cause : LedgerError)
deriving DecidableEq

/-- The credential type a reward-account header announces. -/
def Address.rewardAccountType (a : Address) : Except LedgerError Nat :=
  if a.addressType = typeNoneKey then .ok credentialTypeAddrKeyHash
  else if a.addressType = typeNoneScript then .ok credentialTypeScriptHash
  else .error (.message "withdrawal address type is not a reward account")

/-- The credential of a reward-account address in its exact 29-byte form. -/
def Address.rewardAccountCredential (a : Address) : Except LedgerError Credential := do
  let wantType ← a.rewardAccountType
  if a.networkId ≠ networkTestnet ∧ a.networkId ≠ networkMainnet then
    .error (.message "withdrawal address has invalid network ID")
  else if a.bytes.length ≠ 1 + 28 then
    .error (.message "withdrawal address has invalid length")
  else if 0 < a.trailingBytes.length then
    .error (.message "withdrawal address has unconsumed trailing byte(s)")
  else
    match a.stakeCredential with
    | some credential =>
      if credential.credType ≠ wantType then
        .error (.message "withdrawal address credential does not match its header")
      else
        .ok credential
    | none => .error (.message "withdrawal address credential does not match its header")

theorem Address.stakeCredential_of_rewardAccountCredential {a : Address} {cred : Credential}
    (h : a.rewardAccountCredential = .ok cred) : a.stakeCredential = some cred := by
  unfold Address.rewardAccountCredential at h
  cases hw : a.rewardAccountType with
  | error e =>
    rw [hw] at h
    cases h
  | ok wantType =>
    simp only [bind, Except.bind] at h
    repeat
      split at h
      · cases h
    split at h
    · rename_i credential hcred
      split at h
      · cases h
      · cases h
        exact hcred
    · cases h

/-! ## Transactions -/

/-- A withdrawal map: the key is the address pointer, the value the address it
points to and the amount. -/
abbrev Withdrawals := GoMap Nat (Address × Option Int)

structure DirectDeposit where
  credential : Credential
  amount : UInt64
deriving DecidableEq

/-- One stage of a transaction's account and governance effects. -/
structure LedgerEffectLevel where
  id : Blake2b256
  withdrawals : Withdrawals
  certificates : List Certificate
  proposalProcedures : List ProposalProcedure
  directDeposits : List DirectDeposit

/-- The results of the `Transaction` methods the modelled rules call. The two
optional interfaces are absent when the transaction does not implement them:
`WithdrawalRequiresExactAmount` and `LeveledTransaction`. A nil withdrawal map
is distinct from an empty one. -/
structure Transaction where
  hash : Blake2b256
  isValid : Bool
  inputs : List TransactionInput
  outputs : List TransactionOutput
  collateral : List TransactionInput
  referenceInputs : List TransactionInput
  consumed : List TransactionInput
  produced : List Utxo
  certificates : List Certificate
  withdrawals : Option Withdrawals
  assetMint : Option MultiAsset
  fee : Option Int
  donation : Option Int
  proposalProcedures : List ProposalProcedure
  withdrawalRequiresExactAmount : Option Bool
  ledgerEffectLevels : Option (Except LedgerError (List LedgerEffectLevel))

/-- A phase-2-valid transaction with an empty body. -/
def Transaction.empty : Transaction where
  hash := 0
  isValid := true
  inputs := []
  outputs := []
  collateral := []
  referenceInputs := []
  consumed := []
  produced := []
  certificates := []
  withdrawals := none
  assetMint := none
  fee := none
  donation := none
  proposalProcedures := []
  withdrawalRequiresExactAmount := none
  ledgerEffectLevels := none

/-- The entries a loop over `Withdrawals()` visits: none for a nil map. -/
def Transaction.withdrawalMap (tx : Transaction) : Withdrawals := tx.withdrawals.getD ∅

/-! ## Scripts

The scripts a transaction needs are resolved outside the modelled files: the
rules take `NewTxScriptView` as a parameter and ask only for the languages it
found. -/

inductive Script where
  | native
  | plutusV1
  | plutusV2
  | plutusV3
  | plutusV4
deriving DecidableEq

/-- `PlutusScriptVersion`, absent for a script that is not a Plutus one. -/
def plutusScriptVersion : Script → Option Nat
  | .native => none
  | .plutusV1 => some 0
  | .plutusV2 => some 1
  | .plutusV3 => some 2
  | .plutusV4 => some 3

structure TxScriptView where
  needed : List Script
deriving DecidableEq

def TxScriptView.needsAny (view : TxScriptView) (accept : Script → Bool) : Bool :=
  view.needed.any accept

/-! ## Protocol parameters -/

/-- What the rules read of any era's parameters through accessor interfaces.
An amount is absent when the parameters do not expose it. -/
structure ProtocolParameters where
  protocolMajorVersion : Nat
  keyDepositAmount : Option Int
  dRepDepositAmount : Option Int
  minPoolCostValue : UInt64
  poolRetirementMaxEpoch : UInt64
deriving DecidableEq

structure ConwayProtocolParameters where
  protocolVersionMajor : Nat
  keyDeposit : UInt64
  poolDeposit : UInt64
  dRepDeposit : UInt64
  govActionDeposit : UInt64
  minPoolCost : UInt64
  maxEpoch : UInt64
deriving DecidableEq

/-- The accessor methods of the Conway parameters. -/
def ConwayProtocolParameters.toProtocolParameters (pp : ConwayProtocolParameters) :
    ProtocolParameters where
  protocolMajorVersion := pp.protocolVersionMajor
  keyDepositAmount := some pp.keyDeposit.toNat
  dRepDepositAmount := some pp.dRepDeposit.toNat
  minPoolCostValue := pp.minPoolCost
  poolRetirementMaxEpoch := pp.maxEpoch

/-- `IsUint64` and `Uint64` of a big integer. -/
def uint64? (n : Int) : Option UInt64 :=
  if 0 ≤ n ∧ n < 2 ^ 64 then some (UInt64.ofNat n.toNat) else none

theorem uint64?_natCast (n : UInt64) : uint64? (n.toNat : Int) = some n := by
  have h : n.toNat < 2 ^ 64 := n.toNat_lt
  have h' : (0 : Int) ≤ n.toNat ∧ (n.toNat : Int) < 2 ^ 64 := by omega
  rw [uint64?, if_pos h']
  simp

theorem toNat_of_uint64? {n : Int} {u : UInt64} (h : uint64? n = some u) : (u.toNat : Int) = n := by
  unfold uint64? at h
  split at h
  · have hlt : n.toNat < 2 ^ 64 := by omega
    cases h
    rw [UInt64.toNat_ofNat_of_lt' hlt]
    omega
  · exact absurd h (by simp)

end Gouroboros.Ledger

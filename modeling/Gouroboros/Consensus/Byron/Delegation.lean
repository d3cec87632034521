import Mathlib.Data.Finset.Filter
import Mathlib.Data.Finset.Insert
import Gouroboros.Lib.ExceptFold
import Gouroboros.Ledger.Common.Types

/-!
# Byron heavyweight delegation

The delegation view that PBFT header validation reads
(`consensus/byron/pbft_delegation.go`). A certificate is scheduled two security
parameters ahead of its block's slot and becomes active when a tick reaches that slot, unless
its delegate then serves another genesis key.

Every update of the source returns a new state, so `clone` is the identity here. The
certificates come as raw CBOR: parsing them, hashing a verification key and checking a
signature are the parameters `Crypto`, and nothing is assumed of them.
-/

namespace Gouroboros.Consensus.Byron

open Ledger (ByteString Blake2b224 newBlake2b224)

structure PbftScheduledDelegation where
  activationSlot : UInt64
  delegator : Blake2b224
  delegate : Blake2b224
deriving DecidableEq

structure PbftDelegationKeyEpoch where
  epoch : UInt64
  delegator : Blake2b224
deriving DecidableEq

structure PbftDelegationState where
  activeDelegations : GoMap Blake2b224 Blake2b224
  delegationSlots : GoMap Blake2b224 UInt64
  scheduledDelegations : List PbftScheduledDelegation
  keyEpochDelegations : Finset PbftDelegationKeyEpoch
  allowedDelegators : Finset Blake2b224
  protocolMagic : UInt32
  securityParam : UInt64

/-- The parts of the genesis configuration that the delegation view starts from. -/
structure ByronConfig where
  protocolMagic : UInt32
  securityParam : UInt64
  genesisKeyHashes : List ByteString
  genesisDelegations : GoMap Blake2b224 Blake2b224
  genesisDelegationEpochs : GoMap Blake2b224 UInt64

def ByronConfig.genesisKeys (config : ByronConfig) : List Blake2b224 :=
  config.genesisKeyHashes.map newBlake2b224

structure DelegationCertificate where
  epoch : UInt64
  epochCbor : ByteString
  issuerVK : ByteString
  delegateVK : ByteString
  signature : ByteString
deriving DecidableEq

inductive DelegationError where
  | zeroSecurityParam
  | emptyGenesisIssuers
  | genesisHashLength (got : Nat)
  | duplicateGenesisIssuer (hash : Blake2b224)
  | unknownGenesisDelegator (delegator : Blake2b224)
  | keyLength (got : Nat)
  | keyEncoding (text : String)
  | payload (text : String)
  | delegationEpoch (epoch currentEpoch : UInt64)
  | deriveIssuer (cause : DelegationError)
  | notGenesisKey (delegator : Blake2b224)
  | delegatedForEpoch (delegator : Blake2b224) (epoch : UInt64)
  | activationSlotOverflows
  | delegatedInSlot (delegator : Blake2b224) (slot : UInt64)
  | validate (cause : DelegationError)
  | deriveDelegate (cause : DelegationError)
  | schedule (index : Nat) (cause : DelegationError)
deriving DecidableEq

/-- `ParseDelegationCertificate`, the signature check of `Verify`, and the hash of an encoded
verification key. -/
structure Crypto where
  parseDelegationCertificate : ByteString → Except DelegationError DelegationCertificate
  verify : UInt32 → DelegationCertificate → Except DelegationError Unit
  encodedKeyHash : ByteString → Except DelegationError Blake2b224

def pbftVerificationKeyHash (crypto : Crypto) (verificationKey : ByteString) :
    Except DelegationError Blake2b224 :=
  if verificationKey.length ≠ 64 then .error (.keyLength verificationKey.length)
  else crypto.encodedKeyHash verificationKey

namespace PbftDelegationState

/-! ## Activation -/

def delegateIsActiveForOther (s : PbftDelegationState) (delegator delegate : Blake2b224) : Bool :=
  s.activeDelegations.toPairs.any fun entry => entry.1 ≠ delegator ∧ entry.2 = delegate

/-- Skipped when the delegate serves another key, or when the delegator has one at least as
recent; a delegation of slot 0 comes from the genesis. -/
def activate (s : PbftDelegationState) (delegation : PbftScheduledDelegation) :
    PbftDelegationState :=
  let previousSlot := (s.delegationSlots.lookup delegation.delegator).getD 0
  if s.delegateIsActiveForOther delegation.delegator delegation.delegate ∨
      (delegation.activationSlot ≠ 0 ∧ delegation.activationSlot ≤ previousSlot) then
    s
  else
    { s with
      activeDelegations := s.activeDelegations.insert delegation.delegator delegation.delegate
      delegationSlots := s.delegationSlots.insert delegation.delegator delegation.activationSlot }

/-! ## The initial state -/

/-- A configured genesis key delegates to itself at first. -/
def addGenesisKey (s : PbftDelegationState) (hashBytes : ByteString) :
    Except DelegationError PbftDelegationState :=
  if hashBytes.length ≠ 28 then .error (.genesisHashLength hashBytes.length)
  else
    let hash := newBlake2b224 hashBytes
    if hash ∈ s.allowedDelegators then .error (.duplicateGenesisIssuer hash)
    else
      .ok
        { s with
          allowedDelegators := insert hash s.allowedDelegators
          activeDelegations := s.activeDelegations.insert hash hash
          delegationSlots := s.delegationSlots.insert hash 0 }

/-- The genesis delegation of a key, active from slot 0. -/
def applyGenesisDelegation (config : ByronConfig) (s : PbftDelegationState)
    (hashBytes : ByteString) : PbftDelegationState :=
  let delegator := newBlake2b224 hashBytes
  match config.genesisDelegations.lookup delegator with
  | none => s
  | some delegate =>
    let omega := config.genesisDelegationEpochs.lookup delegator
    let s :=
      if delegate ≠ delegator ∨ omega.isSome then
        { s with
          keyEpochDelegations := insert ⟨omega.getD 0, delegator⟩ s.keyEpochDelegations }
      else s
    s.activate ⟨0, delegator, delegate⟩

end PbftDelegationState

open PbftDelegationState in
def newPbftDelegationState (config : ByronConfig) : Except DelegationError PbftDelegationState :=
  if config.securityParam = 0 then .error .zeroSecurityParam
  else if config.genesisKeyHashes.isEmpty then .error .emptyGenesisIssuers
  else do
    let s ← config.genesisKeyHashes.foldlM addGenesisKey
      { activeDelegations := ∅
        delegationSlots := ∅
        scheduledDelegations := []
        keyEpochDelegations := ∅
        allowedDelegators := ∅
        protocolMagic := config.protocolMagic
        securityParam := config.securityParam }
    match config.genesisDelegations.keys.find? fun delegator => delegator ∉ s.allowedDelegators with
    | some delegator => .error (.unknownGenesisDelegator delegator)
    | none => .ok (config.genesisKeyHashes.foldl (applyGenesisDelegation config) s)

namespace PbftDelegationState

/-! ## Updates -/

/-- The due delegations are activated in the order of the schedule, then dropped with the records
of past epochs. -/
def tick (s : PbftDelegationState) (currentEpoch currentSlot : UInt64) : PbftDelegationState :=
  let next := s.scheduledDelegations.foldl
    (fun next delegation =>
      if delegation.activationSlot ≤ currentSlot then next.activate delegation else next) s
  { next with
    scheduledDelegations := next.scheduledDelegations.filter fun delegation =>
      currentSlot < delegation.activationSlot
    keyEpochDelegations := next.keyEpochDelegations.filter fun keyEpoch =>
      ¬ keyEpoch.epoch < currentEpoch }

variable (crypto : Crypto)

def scheduleCertificate (currentEpoch currentSlot : UInt64) (s : PbftDelegationState)
    (rawCertificate : ByteString) : Except DelegationError PbftDelegationState := do
  let certificate ← crypto.parseDelegationCertificate rawCertificate
  if certificate.epoch < currentEpoch ∨ 1 < certificate.epoch - currentEpoch then
    .error (.delegationEpoch certificate.epoch currentEpoch)
  else do
    let delegator ← (pbftVerificationKeyHash crypto certificate.issuerVK).mapError .deriveIssuer
    if delegator ∉ s.allowedDelegators then .error (.notGenesisKey delegator)
    else if ⟨certificate.epoch, delegator⟩ ∈ s.keyEpochDelegations then
      .error (.delegatedForEpoch delegator certificate.epoch)
    else if UInt64.ofNat (2 ^ 64 - 1) / 2 < s.securityParam ∨
        UInt64.ofNat (2 ^ 64 - 1) - 2 * s.securityParam < currentSlot then
      .error .activationSlotOverflows
    else
      let activationSlot := currentSlot + 2 * s.securityParam
      if s.scheduledDelegations.any fun scheduled =>
          scheduled.delegator = delegator ∧ scheduled.activationSlot = activationSlot then
        .error (.delegatedInSlot delegator currentSlot)
      else do
        (crypto.verify s.protocolMagic certificate).mapError .validate
        let delegate ←
          (pbftVerificationKeyHash crypto certificate.delegateVK).mapError .deriveDelegate
        .ok
          { s with
            scheduledDelegations :=
              s.scheduledDelegations ++ [⟨activationSlot, delegator, delegate⟩]
            keyEpochDelegations := insert ⟨certificate.epoch, delegator⟩ s.keyEpochDelegations }

/-- One round of the loop of `ApplyPayloadCbor`, with the certificate's index in its error. -/
def scheduleEntry (currentEpoch currentSlot : UInt64) (next : PbftDelegationState)
    (entry : ByteString × Nat) : Except DelegationError PbftDelegationState :=
  (next.scheduleCertificate crypto currentEpoch currentSlot entry.1).mapError (.schedule entry.2)

/-- The certificates of a block are scheduled, then the tick of the block runs. -/
def applyPayloadCbor (s : PbftDelegationState) (currentEpoch currentSlot : UInt64)
    (payload : List ByteString) : Except DelegationError PbftDelegationState := do
  let next ← payload.zipIdx.foldlM (scheduleEntry crypto currentEpoch currentSlot) s
  .ok (next.tick currentEpoch currentSlot)

end PbftDelegationState

/-! ## Issuers -/

inductive ResolveError where
  | multipleIssuers (delegate : Blake2b224)
  | notAuthorized (delegate : Blake2b224)
deriving DecidableEq

/-- One round of the loop of `resolveActivePBFTIssuer`, with the issuer found so far. -/
def resolveEntry (delegate : Blake2b224) (activeIssuer : Option Blake2b224)
    (entry : Blake2b224 × Blake2b224) : Except ResolveError (Option Blake2b224) :=
  if entry.2 ≠ delegate then .ok activeIssuer
  else
    match activeIssuer with
    | some issuer =>
      if entry.1 ≠ issuer then .error (.multipleIssuers delegate) else .ok (some entry.1)
    | none => .ok (some entry.1)

def resolveActivePbftIssuer (activeDelegations : GoMap Blake2b224 Blake2b224)
    (delegate : Blake2b224) : Except ResolveError Blake2b224 := do
  match ← activeDelegations.toPairs.foldlM (resolveEntry delegate) none with
  | none => .error (.notAuthorized delegate)
  | some issuer => .ok issuer

end Gouroboros.Consensus.Byron

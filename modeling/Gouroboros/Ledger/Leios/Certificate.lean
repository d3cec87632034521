import Mathlib.Algebra.Order.Ring.Rat
import Gouroboros.Lib.GoMap

/-!
# Leios certificates

`VerifyDijkstraCertificateForDomain` of `ledger/leios/certificate.go`, with the
signer bitfield of `ledger/common/leios.go` and the cache of verified keys of
`ledger/leios/verified_keys.go`. The curve, its pairing and hashing to it are the
fields of `Curve`, about which nothing is assumed. Stakes are 64-bit words that
wrap.

The cache is a package variable, so what a call does to it is part of its result,
also when it fails. A `verifiedKeyID` copies the bytes of a key into arrays of
their exact length; here it keeps the lists.
-/

namespace Gouroboros.Ledger.Leios

/-- The functions of the pairing library. -/
structure Curve where
  G1 : Type
  G2 : Type
  G2Jac : Type
  g1SetBytes : List UInt8 → Option G1
  g1IsInfinity : G1 → Bool
  g1IsInSubGroup : G1 → Bool
  g2SetBytes : List UInt8 → Option G2
  g2IsInfinity : G2 → Bool
  g2IsInSubGroup : G2 → Bool
  negG2Generator : G2
  hashToG1 : List UInt8 → String → Option G1
  pairingCheck : List G1 → List G2 → Option Bool
  /-- The zero value of a point. -/
  g2JacZero : G2Jac
  fromAffine : G2 → G2Jac
  addMixed : G2Jac → G2 → G2Jac
  fromJacobian : G2Jac → G2

def leiosBlsPublicKeySize : Nat := 96
def leiosBlsPossessionProofSize : Nat := 48
def leiosBlsSignatureSize : Nat := 48

def leiosSignatureDST : String := "BLS_SIG_BLS12381G1_XMD:SHA-256_SSWU_RO_POP_"
def leiosProofDST : String := "BLS_POP_BLS12381G1_XMD:SHA-256_SSWU_RO_POP_"

structure LeiosKey where
  publicKey : List UInt8
  possessionProof : List UInt8
deriving DecidableEq

structure CommitteeMember where
  stake : UInt64
  key : Option LeiosKey
deriving DecidableEq

structure CertificateContext where
  announcingBlockHash : Vector UInt8 32
  totalActiveStake : UInt64
  committee : List CommitteeMember
deriving DecidableEq

inductive SignatureError where
  | length (got : Nat)
  | setBytes
  | infinityOrSubgroup
  | hashToG1
  | pairingCheck
  /-- `ErrInvalidSignature`. -/
  | invalid
deriving DecidableEq

inductive KeyError where
  | length (got : Nat)
  | setBytes
  | infinityOrSubgroup
deriving DecidableEq

/-- Which check a key failed, with the error of that check. -/
inductive KeyCheckError where
  | decode (error : KeyError)
  | proof (error : SignatureError)
deriving DecidableEq

inductive CertificateError where
  | unsupportedDomain (domain : UInt8)
  | committeeSize (got want : Nat)
  | zeroTotalStake
  | invalidThreshold
  | bitfieldLength (want got : Nat)
  | committeeStakeExceeds
  | keylessSigner (seat : Nat)
  | seatPublicKey (seat : Nat) (error : KeyError)
  | invalidProof (seat : Nat) (error : SignatureError)
  | signerStakeExceeds
  | noSigners
  | insufficientQuorum (signerStake total : UInt64)
  | aggregateInfinity
  | invalidSignature (error : SignatureError)
deriving DecidableEq

/-! ## The signer bitfield -/

def leiosSignerBitfieldSize (committeeSize : Nat) : Nat := (committeeSize + 7) / 8

/-- Seat `voterId` counts from the most significant bit of the first byte. -/
def leiosSignerBit (signers : List UInt8) (voterId : Nat) : Bool :=
  match signers[voterId / 8]? with
  | none => false
  | some byte => byte &&& ((1 : UInt8) <<< UInt8.ofNat (7 - voterId % 8)) != 0

/-! ## Keys and signatures -/

variable (curve : Curve)

def decodePublicKey (encoded : List UInt8) : Except KeyError curve.G2 :=
  if encoded.length ≠ leiosBlsPublicKeySize then .error (.length encoded.length)
  else
    match curve.g2SetBytes encoded with
    | none => .error .setBytes
    | some pub =>
      if curve.g2IsInfinity pub || !curve.g2IsInSubGroup pub then .error .infinityOrSubgroup
      else .ok pub

def verifySignature (pub : curve.G2) (message signature : List UInt8) (dst : String) :
    Except SignatureError Unit :=
  if signature.length ≠ leiosBlsSignatureSize then .error (.length signature.length)
  else
    match curve.g1SetBytes signature with
    | none => .error .setBytes
    | some sig =>
      if curve.g1IsInfinity sig || !curve.g1IsInSubGroup sig then .error .infinityOrSubgroup
      else
        match curve.hashToG1 message dst with
        | none => .error .hashToG1
        | some hash =>
          match curve.pairingCheck [sig, hash] [curve.negG2Generator, pub] with
          | none => .error .pairingCheck
          | some ok => if ok then .ok () else .error .invalid

structure VerifiedKeyId where
  dst : String
  publicKey : List UInt8
  proof : List UInt8
deriving DecidableEq

def verifiedKeyCacheMax : Nat := 8192

abbrev KeyCache := GoMap VerifiedKeyId curve.G2

/-- The checks of `verifiedPossessionKey` without the cache. -/
def checkPossessionKey (key : LeiosKey) (dst : String) : Except KeyCheckError curve.G2 :=
  match decodePublicKey curve key.publicKey with
  | .error error => .error (.decode error)
  | .ok pub =>
    match verifySignature curve pub key.publicKey key.possessionProof dst with
    | .error error => .error (.proof error)
    | .ok () => .ok pub

def cacheable (key : LeiosKey) : Bool :=
  key.publicKey.length = leiosBlsPublicKeySize &&
    key.possessionProof.length = leiosBlsPossessionProofSize

/-- A full cache is emptied before the entry is added. -/
def cacheKey (cache : KeyCache curve) (id : VerifiedKeyId) (pub : curve.G2) : KeyCache curve :=
  if verifiedKeyCacheMax ≤ cache.entries.length then (∅ : KeyCache curve).insert id pub
  else cache.insert id pub

def verifiedPossessionKey (cache : KeyCache curve) (key : LeiosKey) (dst : String) :
    Except KeyCheckError curve.G2 × KeyCache curve :=
  let id : VerifiedKeyId := ⟨dst, key.publicKey, key.possessionProof⟩
  match if cacheable key then cache.lookup id else none with
  | some pub => (.ok pub, cache)
  | none =>
    match checkPossessionKey curve key dst with
    | .error error => (.error error, cache)
    | .ok pub => (.ok pub, if cacheable key then cacheKey curve cache id pub else cache)

/-! ## The certificate -/

structure SeatLoop where
  aggregate : curve.G2Jac := curve.g2JacZero
  signerStake : UInt64 := 0
  committeeStake : UInt64 := 0
  signerCount : Nat := 0

def seatLoop (signers : List UInt8) (total : UInt64) (proofDST : String) :
    List CommitteeMember → Nat → SeatLoop curve → KeyCache curve →
      Except CertificateError (SeatLoop curve) × KeyCache curve
  | [], _, loop, cache => (.ok loop, cache)
  | seat :: rest, i, loop, cache =>
    if loop.committeeStake > total || seat.stake > total - loop.committeeStake then
      (.error .committeeStakeExceeds, cache)
    else
      let loop := { loop with committeeStake := loop.committeeStake + seat.stake }
      if !leiosSignerBit signers i then seatLoop signers total proofDST rest (i + 1) loop cache
      else
        match seat.key with
        | none => (.error (.keylessSigner i), cache)
        | some key =>
          match verifiedPossessionKey curve cache key proofDST with
          | (.error (.decode error), cache) => (.error (.seatPublicKey i error), cache)
          | (.error (.proof error), cache) => (.error (.invalidProof i error), cache)
          | (.ok pub, cache) =>
            if loop.signerStake > total - seat.stake then (.error .signerStakeExceeds, cache)
            else
              seatLoop signers total proofDST rest (i + 1)
                { loop with
                  signerStake := loop.signerStake + seat.stake
                  signerCount := loop.signerCount + 1
                  aggregate :=
                    if loop.signerCount + 1 = 1 then curve.fromAffine pub
                    else curve.addMixed loop.aggregate pub }
                cache

/-- `DijkstraBlsProofDomain` is a byte with two values in use. -/
def proofDomainDST (domain : UInt8) : Except CertificateError String :=
  if domain = 0 then .ok leiosProofDST
  else if domain = 1 then .ok leiosSignatureDST
  else .error (.unsupportedDomain domain)

/-- The signed message: the CBOR of a 32-byte hash. -/
def certificateMessage (context : CertificateContext) : List UInt8 :=
  [0x58, 0x20] ++ context.announcingBlockHash.toList

/-- What is checked once the seats have been read. -/
def checkQuorum (signature : List UInt8) (threshold : ℚ) (context : CertificateContext)
    (loop : SeatLoop curve) : Except CertificateError Unit :=
  if loop.signerCount = 0 then .error .noSigners
  else if (loop.signerStake.toNat : ℤ) * threshold.den <
      context.totalActiveStake.toNat * threshold.num then
    .error (.insufficientQuorum loop.signerStake context.totalActiveStake)
  else
    let aggregatePublicKey := curve.fromJacobian loop.aggregate
    if curve.g2IsInfinity aggregatePublicKey then .error .aggregateInfinity
    else
      match verifySignature curve aggregatePublicKey (certificateMessage context) signature
        leiosSignatureDST with
      | .error error => .error (.invalidSignature error)
      | .ok () => .ok ()

/-- The verdict on a certificate, and the cache it leaves. A nil threshold is `none`. -/
def verifyDijkstraCertificateForDomain (cache : KeyCache curve) (signers signature : List UInt8)
    (committeeSize : UInt16) (quorumStakeThreshold : Option ℚ) (context : CertificateContext)
    (domain : UInt8) : Except CertificateError Unit × KeyCache curve :=
  match proofDomainDST domain with
  | .error error => (.error error, cache)
  | .ok proofDST =>
    if context.committee.length ≠ committeeSize.toNat then
      (.error (.committeeSize context.committee.length committeeSize.toNat), cache)
    else if context.totalActiveStake = 0 then (.error .zeroTotalStake, cache)
    else
      match quorumStakeThreshold with
      | none => (.error .invalidThreshold, cache)
      | some threshold =>
        if threshold < 0 ∨ 1 < threshold then (.error .invalidThreshold, cache)
        else if signers.length ≠ leiosSignerBitfieldSize committeeSize.toNat then
          (.error (.bitfieldLength (leiosSignerBitfieldSize committeeSize.toNat) signers.length),
            cache)
        else
          match seatLoop curve signers context.totalActiveStake proofDST context.committee 0 {}
            cache with
          | (.error error, cache) => (.error error, cache)
          | (.ok loop, cache) => (checkQuorum curve signature threshold context loop, cache)

end Gouroboros.Ledger.Leios

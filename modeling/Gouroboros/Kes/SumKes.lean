import Gouroboros.Lib.Slices
import Gouroboros.Lib.ExceptFold
import Gouroboros.Ledger.Common.Types

/-!
# Key-evolving signatures

The sum composition over Ed25519 (`kes/sign.go`, `kes/kes.go`). A secret key is one flat byte
array: at every level of the tree it holds the key of the active subtree, the seed of the right
subtree and the public keys of both.

Ed25519 and Blake2b-256 are the parameter `Crypto`. The source writes into parts of an array in
place; here a function that does so returns the array, and its caller copies it back over the
part it passed. Wiping of temporary values is left out.
-/

namespace Gouroboros.Kes

open Slices
open Ledger (ByteString)

/-! ### Sizes -/

abbrev sigmaSize : Nat := 64
abbrev publicKeySize : Nat := 32
abbrev sum0KesSigSize : Nat := 64
abbrev maxDepth : Nat := 63
abbrev maxKeyGenDepth : Nat := 12
abbrev kesSeedSize : Nat := 32
abbrev kesEd25519KeySize : Nat := 32

abbrev maxInt : Nat := 2 ^ 63 - 1

/-- `uint64(1) << depth`; the number of periods of a tree of that depth. -/
def maxPeriod (depth : Nat) : Nat := 2 ^ depth % 2 ^ 64

def secretKeySize (depth : Nat) : Nat := kesEd25519KeySize + depth * 96

/-- The size of a signature, or `-1` where it does not fit an `int`. -/
def signatureSize (depth : Nat) : Int :=
  let bytesPerLevel := publicKeySize * 2
  let additionalBytes := depth * bytesPerLevel % 2 ^ 64
  -- the product wrapped around
  if depth > 0 ∧ additionalBytes / depth ≠ bytesPerLevel then -1
  else
    let totalBytes := (sigmaSize + additionalBytes) % 2 ^ 64
    if totalBytes < sigmaSize ∨ totalBytes > maxInt then -1 else totalBytes

/-! ### The primitives -/

/-- Ed25519 by seed, and Blake2b-256. The lengths are those of the types the source's libraries
return; a seed of another length makes them panic. -/
structure Crypto where
  ed25519PublicKey : ByteString → ByteString
  ed25519Sign : ByteString → ByteString → ByteString
  verifyEd25519Strict : ByteString → ByteString → ByteString → Bool
  blake2b256 : ByteString → ByteString
  length_publicKey : ∀ seed : ByteString, seed.length = kesSeedSize →
    (ed25519PublicKey seed).length = publicKeySize
  length_sign : ∀ seed msg : ByteString, seed.length = kesSeedSize →
    (ed25519Sign seed msg).length = sigmaSize
  length_blake2b256 : ∀ msg : ByteString, (blake2b256 msg).length = 32

/-- What a 32-byte seed's key signs verifies strictly under its public key. -/
def Crypto.SignaturesVerify (crypto : Crypto) : Prop :=
  ∀ seed msg : ByteString, seed.length = kesSeedSize →
    crypto.verifyEd25519Strict (crypto.ed25519PublicKey seed) msg (crypto.ed25519Sign seed msg)

def zeros (n : Nat) : ByteString := List.replicate n 0

/-- The hash of two public keys, each in its half of a 64-byte buffer. -/
def hashPair (crypto : Crypto) (l r : ByteString) : ByteString :=
  let input := copyInto (zeros 64) 0 32 l
  crypto.blake2b256 (copyInto input 32 64 r)

def expandSeed (crypto : Crypto) (seed : ByteString) (separator : UInt8) : ByteString :=
  crypto.blake2b256 (copyInto (separator :: zeros 32) 1 33 seed)

/-! ### Errors -/

inductive KesError where
  | seedSize (got : Nat)
  | keyGenDepth (depth : Nat)
  | secretKeyNil
  | secretKeyErased
  | depthExceedsMaximum (depth : Nat)
  | secretKeyBytes (depth expected got : Nat)
  | periodExceedsMaximum (period maximum depth : Nat)
  | otherPeriod (keyPeriod period : Nat)
  | exhausted (period maximum : Nat)
  | depthZero
  | signatureBytes (expected : Int) (got : Nat)
deriving DecidableEq

/-! ### Secret keys -/

/-- A secret key. `data` is `none` once it has been erased; `publicKey` is the cached one. -/
structure SecretKey where
  depth : Nat
  period : Nat
  data : Option ByteString
  publicKey : Option ByteString
deriving DecidableEq

def SecretKey.zeroize (sk : SecretKey) : SecretKey := { sk with data := none, period := 0 }

def publicKeyFromSeed (crypto : Crypto) : Nat → ByteString → ByteString
  | 0, seed => crypto.ed25519PublicKey seed
  | depth + 1, seed =>
    let leftSeed := expandSeed crypto seed 0x01
    let rightSeed := expandSeed crypto seed 0x02
    hashPair crypto (publicKeyFromSeed crypto depth leftSeed)
      (publicKeyFromSeed crypto depth rightSeed)

/-- Writes the key of a subtree into `data`; returns its public key and the array. -/
def keyGenInternal (crypto : Crypto) : Nat → ByteString → ByteString → ByteString × ByteString
  | 0, seed, data => (crypto.ed25519PublicKey seed, copyInto data 0 kesEd25519KeySize seed)
  | depth + 1, seed, data =>
    let leftSeed := expandSeed crypto seed 0x01
    let rightSeed := expandSeed crypto seed 0x02
    let childKeySize := secretKeySize depth
    -- the left subtree is the active one at first
    let left := keyGenInternal crypto depth leftSeed (slice data 0 childKeySize)
    let leftPubKey := left.1
    let data := copyInto data 0 childKeySize left.2
    let rightPubKey := publicKeyFromSeed crypto depth rightSeed
    let data := copyInto data childKeySize (childKeySize + 32) rightSeed
    let data := copyInto data (childKeySize + 32) (childKeySize + 64) leftPubKey
    let data := copyInto data (childKeySize + 64) (childKeySize + 96) rightPubKey
    (hashPair crypto leftPubKey rightPubKey, data)

def keyGen (crypto : Crypto) (depth : Nat) (seed : ByteString) :
    Except KesError (SecretKey × ByteString) :=
  if seed.length ≠ kesSeedSize then .error (.seedSize seed.length)
  else if depth > maxKeyGenDepth then .error (.keyGenDepth depth)
  else
    let generated := keyGenInternal crypto depth seed (zeros (secretKeySize depth))
    .ok ({ depth, period := 0, data := some generated.2, publicKey := some generated.1 },
      generated.1)

def validateSecretKeyStructure (depth : Nat) (data : ByteString) : Except KesError Unit :=
  if depth > maxDepth then .error (.depthExceedsMaximum depth)
  else if data.length ≠ secretKeySize depth then
    .error (.secretKeyBytes depth (secretKeySize depth) data.length)
  else .ok ()

/-- The checks that signing and updating share, up to the key's bytes. -/
def usableData : Option SecretKey → Except KesError (SecretKey × ByteString)
  | none => .error .secretKeyNil
  | some sk =>
    match sk.data with
    | none => .error .secretKeyErased
    | some data => do
        validateSecretKeyStructure sk.depth data
        .ok (sk, data)

/-! ### Signing -/

def signInternal (crypto : Crypto) :
    Nat → Nat → ByteString → ByteString → ByteString → ByteString
  | 0, _, data, message, sig =>
    copyInto sig 0 sigmaSize (crypto.ed25519Sign (slice data 0 kesEd25519KeySize) message)
  | depth + 1, period, data, message, sig =>
    let childKeySize := secretKeySize depth
    let halfPeriod := maxPeriod depth
    -- skip the child key and the seed
    let offset := childKeySize + 32
    let leftPubKey := slice data offset (offset + 32)
    let rightPubKey := slice data (offset + 32) (offset + 64)
    -- the signature is built from the leaf up
    let childSigSize := sigmaSize + depth * publicKeySize * 2
    let sig := copyInto sig childSigSize (childSigSize + 32) leftPubKey
    let sig := copyInto sig (childSigSize + 32) (childSigSize + 64) rightPubKey
    let nextPeriod := if period < halfPeriod then period else period - halfPeriod
    copyInto sig 0 childSigSize
      (signInternal crypto depth nextPeriod (slice data 0 childKeySize) message
        (slice sig 0 childSigSize))

def sign (crypto : Crypto) (sk : Option SecretKey) (period : Nat) (message : ByteString) :
    Except KesError ByteString := do
  let (sk, data) ← usableData sk
  if period ≥ maxPeriod sk.depth then
    .error (.periodExceedsMaximum period (maxPeriod sk.depth - 1) sk.depth)
  else if period ≠ sk.period then .error (.otherPeriod sk.period period)
  else
    let sigSize := sigmaSize + sk.depth * publicKeySize * 2
    .ok (signInternal crypto sk.depth period data message (zeros sigSize))

/-! ### Evolving -/

def updateInternal (crypto : Crypto) : Nat → Nat → ByteString → ByteString
  | 0, _, data => copyInto data 0 kesEd25519KeySize (zeros kesEd25519KeySize)
  | depth + 1, period, data =>
    let childKeySize := secretKeySize depth
    let halfPeriod := maxPeriod depth
    let seed := slice data childKeySize (childKeySize + 32)
    let child := slice data 0 childKeySize
    if period < halfPeriod - 1 then
      copyInto data 0 childKeySize (updateInternal crypto depth period child)
    else if period = halfPeriod - 1 then
      -- from the left subtree to the right one, whose seed is then spent
      let data := copyInto data 0 childKeySize (keyGenInternal crypto depth seed child).2
      copyInto data childKeySize (childKeySize + 32) (zeros 32)
    else copyInto data 0 childKeySize (updateInternal crypto depth (period - halfPeriod) child)

/-- The evolved key, and what the key passed in is afterwards. -/
def update (crypto : Crypto) (sk : Option SecretKey) :
    Except KesError SecretKey × Option SecretKey :=
  match usableData sk with
  | .error e => (.error e, sk)
  | .ok (key, data) =>
    let newPeriod := (key.period + 1) % 2 ^ 64
    if newPeriod ≥ maxPeriod key.depth then
      (.error (.exhausted key.period (maxPeriod key.depth - 1)), sk)
    else
      let newData := updateInternal crypto key.depth key.period data
      (.ok { key with period := newPeriod, data := some newData }, some key.zeroize)

def updates (crypto : Crypto) : Nat → SecretKey → Except KesError SecretKey
  | 0, sk => .ok sk
  | count + 1, sk => do
      let sk ← updates crypto count sk
      (update crypto (some sk)).1

/-! ### The public key of a secret key -/

def publicKeyInternal (crypto : Crypto) : Nat → ByteString → ByteString
  | 0, data => crypto.ed25519PublicKey (slice data 0 kesEd25519KeySize)
  | depth + 1, data =>
    let offset := secretKeySize depth + 32
    hashPair crypto (slice data offset (offset + 32)) (slice data (offset + 32) (offset + 64))

def publicKey (crypto : Crypto) : Option SecretKey → Option ByteString
  | none => none
  | some sk =>
    match sk.data with
    -- an erased key keeps its cached public key
    | none => sk.publicKey
    | some data =>
      match validateSecretKeyStructure sk.depth data with
      | .error _ => none
      | .ok () =>
        match sk.publicKey with
        | some cached => some cached
        | none => some (publicKeyInternal crypto sk.depth data)

/-! ### Signatures -/

/-- A signature: `Sum0KesSig`, or `SumXKesSig` over the signature of the active subtree. -/
inductive KesSig where
  | sum0 (bytes : ByteString)
  | sumX (depth : Nat) (sigma : KesSig) (leftHandSidePublicKey rightHandSidePublicKey : ByteString)
deriving DecidableEq

def sum0KesSigFromBytes (sigBytes : ByteString) : ByteString :=
  if sigBytes.length < sum0KesSigSize then [] else slice sigBytes 0 sum0KesSigSize

def newSumKesFromBytes : Nat → ByteString → Except KesError KesSig
  | 0, _ => .error .depthZero
  | depth + 1, fromByte =>
    if depth + 1 > maxDepth then .error (.depthExceedsMaximum (depth + 1))
    else if (fromByte.length : Int) ≠ signatureSize (depth + 1) then
      .error (.signatureBytes (signatureSize (depth + 1)) fromByte.length)
    else do
      let nextKesSize := (signatureSize depth).toNat
      let sigma ←
        if depth = 0 then .ok (.sum0 (sum0KesSigFromBytes fromByte))
        else newSumKesFromBytes depth (slice fromByte 0 nextKesSize)
      .ok (.sumX (depth + 1) sigma (slice fromByte nextKesSize (nextKesSize + publicKeySize))
        (slice fromByte (nextKesSize + publicKeySize) (nextKesSize + publicKeySize * 2)))

def KesSig.verify (crypto : Crypto) : KesSig → Nat → ByteString → ByteString → Bool
  | .sum0 bytes, period, pubKey, msg =>
    if period ≠ 0 then false else crypto.verifyEd25519Strict pubKey msg bytes
  | .sumX depth sigma left right, period, pubKey, msg =>
    if period ≥ maxPeriod depth then false
    else if hashPair crypto left right ≠ pubKey then false
    else
      -- `Depth - 1` wraps around at 0, and the shift then gives 0
      let half := if depth = 0 then 0 else maxPeriod (depth - 1)
      if period ≥ half then sigma.verify crypto (period - half) right msg
      else sigma.verify crypto period left msg

end Gouroboros.Kes

import Gouroboros.Kes.SumKes

/-!
# Signing through the evolution of a key

What the flat array of a secret key is at every period, said on the tree: `keyAt` and
`signatureAt` follow the path from the root to the leaf of the period. Generating a key gives
the array of period 0, one update takes the array of a period to that of the next, and signing
gives the signature of the path, which verification climbs again.
-/

namespace Gouroboros.Kes

open Slices ExceptFold
open Ledger (ByteString)

variable (crypto : Crypto)

/-! ### The tree -/

/-- The seed of the subtree that is active at a period, and the period within it. -/
def activeSubtree (depth : Nat) (seed : ByteString) (period : Nat) : ByteString × Nat :=
  if period < 2 ^ depth then (expandSeed crypto seed 0x01, period)
  else (expandSeed crypto seed 0x02, period - 2 ^ depth)

/-- The seed kept for the right subtree, wiped once that subtree is active. -/
def keptSeed (depth : Nat) (seed : ByteString) (period : Nat) : ByteString :=
  if period < 2 ^ depth then expandSeed crypto seed 0x02 else zeros 32

def leftPublicKey (depth : Nat) (seed : ByteString) : ByteString :=
  publicKeyFromSeed crypto depth (expandSeed crypto seed 0x01)

def rightPublicKey (depth : Nat) (seed : ByteString) : ByteString :=
  publicKeyFromSeed crypto depth (expandSeed crypto seed 0x02)

def keyAt : Nat → ByteString → Nat → ByteString
  | 0, seed, _ => seed
  | depth + 1, seed, period =>
    let active := activeSubtree crypto depth seed period
    keyAt depth active.1 active.2 ++ (keptSeed crypto depth seed period ++
      (leftPublicKey crypto depth seed ++ rightPublicKey crypto depth seed))

def signatureAt : Nat → ByteString → Nat → ByteString → ByteString
  | 0, seed, _, message => crypto.ed25519Sign seed message
  | depth + 1, seed, period, message =>
    let active := activeSubtree crypto depth seed period
    signatureAt depth active.1 active.2 message ++
      (leftPublicKey crypto depth seed ++ rightPublicKey crypto depth seed)

def decodedSignatureAt : Nat → ByteString → Nat → ByteString → KesSig
  | 0, seed, _, message => .sum0 (crypto.ed25519Sign seed message)
  | depth + 1, seed, period, message =>
    let active := activeSubtree crypto depth seed period
    .sumX (depth + 1) (decodedSignatureAt depth active.1 active.2 message)
      (leftPublicKey crypto depth seed) (rightPublicKey crypto depth seed)

variable {crypto}

variable {depth period n : Nat} {seed message child left right left' right' kept : ByteString}

theorem activeSubtree_left (h : period < 2 ^ depth) :
    activeSubtree crypto depth seed period = (expandSeed crypto seed 0x01, period) :=
  if_pos h

theorem activeSubtree_right (h : 2 ^ depth ≤ period) :
    activeSubtree crypto depth seed period = (expandSeed crypto seed 0x02, period - 2 ^ depth) :=
  if_neg (Nat.not_lt.mpr h)

theorem keptSeed_left (h : period < 2 ^ depth) :
    keptSeed crypto depth seed period = expandSeed crypto seed 0x02 :=
  if_pos h

theorem keptSeed_right (h : 2 ^ depth ≤ period) : keptSeed crypto depth seed period = zeros 32 :=
  if_neg (Nat.not_lt.mpr h)

/-! ### Sizes -/

theorem maxPeriod_eq (h : depth ≤ maxDepth) : maxPeriod depth = 2 ^ depth :=
  Nat.mod_eq_of_lt (Nat.pow_lt_pow_right (by decide) (Nat.lt_succ_of_le h))

theorem signatureSize_eq (h : depth ≤ maxDepth) :
    signatureSize depth = (sigmaSize + depth * publicKeySize * 2 : Nat) := by
  simp only [maxDepth, publicKeySize, sigmaSize, maxInt, signatureSize] at h ⊢
  have hmul : depth * (32 * 2) % 2 ^ 64 = depth * (32 * 2) := Nat.mod_eq_of_lt (by omega)
  have hwrap : ¬ (depth > 0 ∧ depth * (32 * 2) / depth ≠ 32 * 2) := by
    rintro ⟨hpos, hne⟩
    exact hne (Nat.mul_div_cancel_left _ hpos)
  have htotal : (64 + depth * (32 * 2)) % 2 ^ 64 = 64 + depth * (32 * 2) :=
    Nat.mod_eq_of_lt (by omega)
  rw [hmul, if_neg hwrap, htotal, if_neg (by omega), Nat.mul_assoc]

theorem sigSize_succ (depth : Nat) :
    sigmaSize + (depth + 1) * publicKeySize * 2 =
      sigmaSize + depth * publicKeySize * 2 + (32 + 32) := by
  simp only [sigmaSize, publicKeySize]
  omega

theorem secretKeySize_succ (depth : Nat) :
    secretKeySize (depth + 1) = secretKeySize depth + (32 + (32 + 32)) := by
  simp only [secretKeySize]
  omega

@[simp] theorem length_zeros (n : Nat) : (zeros n).length = n := List.length_replicate

@[simp] theorem length_expandSeed (seed : ByteString) (separator : UInt8) :
    (expandSeed crypto seed separator).length = 32 :=
  crypto.length_blake2b256 _

@[simp] theorem length_activeSubtree (depth : Nat) (seed : ByteString) (period : Nat) :
    (activeSubtree crypto depth seed period).1.length = 32 := by
  unfold activeSubtree
  split
  · exact length_expandSeed seed 0x01
  · exact length_expandSeed seed 0x02

@[simp] theorem length_keptSeed (depth : Nat) (seed : ByteString) (period : Nat) :
    (keptSeed crypto depth seed period).length = 32 := by
  unfold keptSeed
  split
  · exact length_expandSeed seed 0x02
  · exact length_zeros 32

theorem length_publicKeyFromSeed
    (hseed : seed.length = kesSeedSize) : (publicKeyFromSeed crypto depth seed).length = 32 := by
  cases depth with
  | zero => exact crypto.length_publicKey seed hseed
  | succ depth => exact crypto.length_blake2b256 _

@[simp] theorem length_leftPublicKey (depth : Nat) (seed : ByteString) :
    (leftPublicKey crypto depth seed).length = 32 :=
  length_publicKeyFromSeed (length_expandSeed seed 0x01)

@[simp] theorem length_rightPublicKey (depth : Nat) (seed : ByteString) :
    (rightPublicKey crypto depth seed).length = 32 :=
  length_publicKeyFromSeed (length_expandSeed seed 0x02)

theorem length_keyAt (hseed : seed.length = kesSeedSize) :
    (keyAt crypto depth seed period).length = secretKeySize depth := by
  induction depth generalizing seed period with
  | zero => exact hseed
  | succ depth ih =>
    rw [keyAt, secretKeySize_succ]
    simp only [List.length_append, ih (length_activeSubtree depth seed period),
      length_keptSeed, length_leftPublicKey, length_rightPublicKey]

theorem length_signatureAt (hseed : seed.length = kesSeedSize) :
    (signatureAt crypto depth seed period message).length =
      sigmaSize + depth * publicKeySize * 2 := by
  induction depth generalizing seed period with
  | zero => exact crypto.length_sign seed message hseed
  | succ depth ih =>
    rw [signatureAt, sigSize_succ]
    simp only [List.length_append, ih (length_activeSubtree depth seed period),
      length_leftPublicKey, length_rightPublicKey]

/-! ### Generating -/

theorem copyInto_pair (hchild : child.length = n) (hleft : left.length = 32)
    (hright : right.length = 32) (hleft' : left'.length = 32) (hright' : right'.length = 32) :
    copyInto (copyInto (child ++ (left ++ right)) n (n + 32) left') (n + 32) (n + 64) right' =
      child ++ (left' ++ right') := by
  rw [copyInto_middle hchild (by rw [hleft]) (hleft'.trans hleft.symm), copyInto_right hchild 32 64]
  exact congrArg (child ++ ·) ((copyInto_right hleft' 0 32).trans
    (congrArg (left' ++ ·) (copyInto_all hright hright')))

theorem copyInto_fields {kept' : ByteString} (hchild : child.length = n) (hkept : kept.length = 32)
    (hleft : left.length = 32) (hright : right.length = 32) (hkept' : kept'.length = 32)
    (hleft' : left'.length = 32) (hright' : right'.length = 32) :
    copyInto (copyInto (copyInto (child ++ (kept ++ (left ++ right))) n (n + 32) kept')
      (n + 32) (n + 64) left') (n + 64) (n + 96) right' =
        child ++ (kept' ++ (left' ++ right')) := by
  have hhead : (child ++ kept').length = n + 32 := by rw [List.length_append, hchild, hkept']
  rw [copyInto_middle hchild (by rw [hkept]) (hkept'.trans hkept.symm), ← List.append_assoc child,
    ← List.append_assoc child]
  exact copyInto_pair hhead hleft hright hleft' hright'

theorem keyGenInternal_eq {data : ByteString} (hseed : seed.length = kesSeedSize)
    (hdata : data.length = secretKeySize depth) :
    keyGenInternal crypto depth seed data =
      (publicKeyFromSeed crypto depth seed, keyAt crypto depth seed 0) := by
  induction depth generalizing seed data with
  | zero =>
    show (_, copyInto data 0 kesEd25519KeySize seed) = _
    rw [copyInto_all (n := kesEd25519KeySize) hdata hseed]
    rfl
  | succ depth ih =>
    rw [secretKeySize_succ] at hdata
    obtain ⟨child, rest, rfl, hchild, hrest⟩ := exists_append hdata
    obtain ⟨kept, keys, rfl, hkept, hkeys⟩ := exists_append hrest
    obtain ⟨left, right, rfl, hleft, hright⟩ := exists_append hkeys
    have hpos : 0 < 2 ^ depth := Nat.two_pow_pos depth
    have hseed₁ : (expandSeed crypto seed 0x01).length = kesSeedSize := length_expandSeed seed 0x01
    have hkey : (keyAt crypto depth (expandSeed crypto seed 0x01) 0).length =
        secretKeySize depth := length_keyAt hseed₁
    rw [keyGenInternal, keyAt, publicKeyFromSeed, activeSubtree_left hpos, keptSeed_left hpos]
    simp only [slice_left hchild, ih hseed₁ hchild, copyInto_left hchild hkey]
    exact congrArg (Prod.mk _) (copyInto_fields hkey hkept hleft hright
      (length_expandSeed seed 0x02) (length_leftPublicKey depth seed)
      (length_rightPublicKey depth seed))

/-! ### Evolving -/

theorem updateInternal_keyAt (hdepth : depth ≤ maxDepth) (hseed : seed.length = kesSeedSize)
    (hperiod : period + 1 < 2 ^ depth) :
    updateInternal crypto depth period (keyAt crypto depth seed period) =
      keyAt crypto depth seed (period + 1) := by
  induction depth generalizing seed period with
  | zero => omega
  | succ depth ih =>
    have hhalf : maxPeriod depth = 2 ^ depth := maxPeriod_eq (by omega)
    have hseed₁ : (expandSeed crypto seed 0x01).length = kesSeedSize := length_expandSeed seed 0x01
    have hseed₂ : (expandSeed crypto seed 0x02).length = kesSeedSize := length_expandSeed seed 0x02
    have hsize : ∀ p, (keyAt crypto depth (activeSubtree crypto depth seed p).1
        (activeSubtree crypto depth seed p).2).length = secretKeySize depth :=
      fun p => length_keyAt (length_activeSubtree depth seed p)
    rw [updateInternal, keyAt, keyAt]
    simp only [hhalf, slice_left (hsize period),
      slice_middle (hsize period) (congrArg _ (length_keptSeed depth seed period))]
    split
    next hleft =>
      -- still in the left subtree
      rw [activeSubtree_left (by omega), activeSubtree_left (by omega),
        keptSeed_left (by omega), keptSeed_left (by omega), ih (by omega) hseed₁ (by omega)]
      exact copyInto_left (length_keyAt hseed₁) (length_keyAt hseed₁)
    next hleft =>
      split
      next hcross =>
        -- the last period of the left subtree: the right one starts from the kept seed
        have hkept : period + 1 - 2 ^ depth = 0 := by omega
        rw [activeSubtree_left (by omega), activeSubtree_right (by omega),
          keptSeed_left (by omega), keptSeed_right (by omega), hkept,
          keyGenInternal_eq hseed₂ (length_keyAt hseed₁)]
        rw [copyInto_left (length_keyAt hseed₁) (length_keyAt hseed₂)]
        exact copyInto_middle (length_keyAt hseed₂) (by rw [length_expandSeed])
          ((length_zeros 32).trans (length_expandSeed seed 0x02).symm)
      next hcross =>
        -- in the right subtree already
        have hnext : period + 1 - 2 ^ depth = period - 2 ^ depth + 1 := by omega
        rw [activeSubtree_right (by omega), activeSubtree_right (by omega),
          keptSeed_right (by omega), keptSeed_right (by omega), hnext,
          ih (by omega) hseed₂ (by omega)]
        exact copyInto_left (length_keyAt hseed₂) (length_keyAt hseed₂)

/-! ### Signing -/

theorem slice_field_left (hchild : child.length = n) (hkept : kept.length = 32)
    (hleft : left.length = 32) :
    slice (child ++ (kept ++ (left ++ right))) (n + 32) (n + 32 + 32) = left := by
  rw [Nat.add_assoc, slice_right hchild]
  exact slice_middle hkept (by rw [hleft])

theorem slice_field_right (hchild : child.length = n) (hkept : kept.length = 32)
    (hleft : left.length = 32) (hright : right.length = 32) :
    slice (child ++ (kept ++ (left ++ right))) (n + 32 + 32) (n + 32 + 64) = right := by
  rw [Nat.add_assoc, Nat.add_assoc, slice_right hchild]
  exact (slice_right hkept 32 64).trans ((slice_right hleft 0 32).trans (slice_all hright))

theorem signInternal_keyAt {sig : ByteString} (hdepth : depth ≤ maxDepth)
    (hseed : seed.length = kesSeedSize)
    (hsig : sig.length = sigmaSize + depth * publicKeySize * 2) :
    signInternal crypto depth period (keyAt crypto depth seed period) message sig =
      signatureAt crypto depth seed period message := by
  induction depth generalizing seed period sig with
  | zero =>
    show copyInto sig 0 sigmaSize (crypto.ed25519Sign (slice seed 0 kesEd25519KeySize) message) = _
    rw [slice_all (n := kesEd25519KeySize) hseed,
      copyInto_all (n := sigmaSize) hsig (crypto.length_sign seed message hseed)]
    rfl
  | succ depth ih =>
    rw [sigSize_succ] at hsig
    obtain ⟨child, keys, rfl, hchild, hkeys⟩ := exists_append hsig
    obtain ⟨left, right, rfl, hleft, hright⟩ := exists_append hkeys
    have hactive : (activeSubtree crypto depth seed period).1.length = kesSeedSize :=
      length_activeSubtree depth seed period
    have hkey : (keyAt crypto depth (activeSubtree crypto depth seed period).1
        (activeSubtree crypto depth seed period).2).length = secretKeySize depth :=
      length_keyAt hactive
    have hnext : (if period < maxPeriod depth then period else period - maxPeriod depth) =
        (activeSubtree crypto depth seed period).2 := by
      rw [maxPeriod_eq (by omega), activeSubtree]
      split
      · rfl
      · rfl
    rw [signInternal, keyAt, signatureAt]
    simp only [hnext, slice_left hkey, slice_field_left hkey (length_keptSeed depth seed period)
      (length_leftPublicKey depth seed), slice_field_right hkey
      (length_keptSeed depth seed period) (length_leftPublicKey depth seed)
      (length_rightPublicKey depth seed), copyInto_pair hchild hleft hright
      (length_leftPublicKey depth seed) (length_rightPublicKey depth seed), slice_left hchild]
    rw [ih (by omega) hactive hchild]
    exact copyInto_left hchild (length_signatureAt hactive)

/-! ### Verifying -/

section

variable (hdepth : depth + 1 ≤ maxDepth)
include hdepth

theorem newSumKesFromBytes_append (hchild : child.length = sigmaSize + depth * publicKeySize * 2)
    (hleft : left.length = 32) (hright : right.length = 32) :
    newSumKesFromBytes (depth + 1) (child ++ (left ++ right)) =
      (if depth = 0 then .ok (.sum0 child) else newSumKesFromBytes depth child) >>= fun sigma =>
        .ok (.sumX (depth + 1) sigma left right) := by
  have hlength : ((child ++ (left ++ right)).length : Int) = signatureSize (depth + 1) := by
    rw [signatureSize_eq hdepth, sigSize_succ, List.length_append, List.length_append, hchild,
      hleft, hright]
  have hnext : (signatureSize depth).toNat = sigmaSize + depth * publicKeySize * 2 := by
    rw [signatureSize_eq (by omega), Int.toNat_natCast]
  have hright_end : slice (child ++ (left ++ right))
      (sigmaSize + depth * publicKeySize * 2 + publicKeySize)
      (sigmaSize + depth * publicKeySize * 2 + publicKeySize * 2) = right := by
    rw [slice_right hchild]
    exact (slice_right hleft 0 32).trans (slice_all hright)
  rw [newSumKesFromBytes, if_neg (by omega), if_neg (not_not_intro hlength)]
  simp only [hnext, slice_left hchild, slice_middle hchild (congrArg _ hleft), hright_end]
  split
  next hzero =>
    -- at depth 1 the child is the Ed25519 signature itself
    subst hzero
    have hlong : ¬ (child ++ (left ++ right)).length < sum0KesSigSize := by
      rw [List.length_append, hchild]
      exact Nat.not_lt.mpr (Nat.le_add_right 64 _)
    rw [sum0KesSigFromBytes, if_neg hlong, slice_left (n := sum0KesSigSize) hchild]
  next => rfl

theorem newSumKesFromBytes_signatureAt (hseed : seed.length = kesSeedSize) :
    newSumKesFromBytes (depth + 1) (signatureAt crypto (depth + 1) seed period message) =
      .ok (decodedSignatureAt crypto (depth + 1) seed period message) := by
  induction depth generalizing seed period with
  | zero =>
    rw [signatureAt, newSumKesFromBytes_append hdepth
      (length_signatureAt (length_activeSubtree 0 seed period)) (length_leftPublicKey 0 seed)
      (length_rightPublicKey 0 seed)]
    rfl
  | succ depth ih =>
    rw [signatureAt, newSumKesFromBytes_append hdepth
      (length_signatureAt (length_activeSubtree (depth + 1) seed period))
      (length_leftPublicKey (depth + 1) seed) (length_rightPublicKey (depth + 1) seed),
      if_neg (Nat.succ_ne_zero depth), ih (by omega) (length_activeSubtree (depth + 1) seed period)]
    rfl

/-- One level of verification: the period is in the tree, the pair hashes to the key, and the
subtree of the period verifies. -/
theorem verify_sumX {sigma : KesSig} {pubKey msg : ByteString} :
    (KesSig.sumX (depth + 1) sigma left right).verify crypto period pubKey msg ↔
      period < 2 ^ (depth + 1) ∧ hashPair crypto left right = pubKey ∧
        if period < 2 ^ depth then sigma.verify crypto period left msg
        else sigma.verify crypto (period - 2 ^ depth) right msg := by
  have hhalf : (if depth + 1 = 0 then 0 else maxPeriod (depth + 1 - 1)) = 2 ^ depth := by
    rw [if_neg (Nat.succ_ne_zero depth), Nat.add_sub_cancel, maxPeriod_eq (by omega)]
  rw [KesSig.verify, maxPeriod_eq hdepth]
  simp only [hhalf]
  by_cases hperiod : period < 2 ^ (depth + 1)
  · by_cases hroot : hashPair crypto left right = pubKey
    · rw [if_neg (Nat.not_le.mpr hperiod), if_neg (not_not_intro hroot)]
      by_cases hside : period < 2 ^ depth
      · rw [if_neg (Nat.not_le.mpr hside), if_pos hside]
        exact ⟨fun h => ⟨hperiod, hroot, h⟩, fun h => h.2.2⟩
      · rw [if_pos (Nat.not_lt.mp hside), if_neg hside]
        exact ⟨fun h => ⟨hperiod, hroot, h⟩, fun h => h.2.2⟩
    · simp [hroot]
  · simp [hperiod, Nat.not_lt.mp hperiod]

end

theorem verify_decodedSignatureAt (hverify : crypto.SignaturesVerify) (message : ByteString)
    (hdepth : depth ≤ maxDepth) (hseed : seed.length = kesSeedSize) (hperiod : period < 2 ^ depth) :
    (decodedSignatureAt crypto depth seed period message).verify crypto period
      (publicKeyFromSeed crypto depth seed) message := by
  induction depth generalizing seed period with
  | zero =>
    have hzero : period = 0 := by omega
    rw [decodedSignatureAt, KesSig.verify, if_neg (not_not_intro hzero)]
    exact hverify seed message hseed
  | succ depth ih =>
    rw [decodedSignatureAt, verify_sumX hdepth]
    refine ⟨hperiod, rfl, ?_⟩
    -- verification goes into the subtree that signed
    split
    next hleft =>
      rw [activeSubtree_left hleft]
      exact ih (by omega) (length_expandSeed seed 0x01) hleft
    next hright =>
      rw [activeSubtree_right (Nat.not_lt.mp hright)]
      exact ih (by omega) (length_expandSeed seed 0x02) (by omega)

/-! ### Runs of updates -/

def evolvedKey (crypto : Crypto) (depth : Nat) (seed : ByteString) (period : Nat) : SecretKey where
  depth := depth
  period := period
  data := some (keyAt crypto depth seed period)
  publicKey := some (publicKeyFromSeed crypto depth seed)

section
variable {depth period : Nat} {seed : ByteString}

theorem keyGen_eq (hdepth : depth ≤ maxKeyGenDepth) (hseed : seed.length = kesSeedSize) :
    keyGen crypto depth seed =
      .ok (evolvedKey crypto depth seed 0, publicKeyFromSeed crypto depth seed) := by
  rw [keyGen, if_neg (not_not_intro hseed), if_neg (Nat.not_lt.mpr hdepth)]
  rw [keyGenInternal_eq hseed (length_zeros (secretKeySize depth))]
  rfl

variable {sk evolved : SecretKey}

theorem keyGen_eq_ok {pubKey : ByteString} (h : keyGen crypto depth seed = .ok (sk, pubKey)) :
    depth ≤ maxKeyGenDepth ∧ seed.length = kesSeedSize ∧ sk = evolvedKey crypto depth seed 0 ∧
      pubKey = publicKeyFromSeed crypto depth seed := by
  have hguards := h
  rw [keyGen, guard_eq_ok, guard_eq_ok] at hguards
  rcases hguards with ⟨hseed, hdepth, -⟩
  have hseed := not_not.mp hseed
  have hdepth := Nat.not_lt.mp hdepth
  rw [keyGen_eq hdepth hseed] at h
  injection h with h
  injection h with hsk hpubKey
  exact ⟨hdepth, hseed, hsk.symm, hpubKey.symm⟩

section

variable (hdepth : depth ≤ maxDepth) (hseed : seed.length = kesSeedSize)
include hdepth hseed

theorem validateSecretKeyStructure_keyAt :
    validateSecretKeyStructure depth (keyAt crypto depth seed period) = .ok () := by
  rw [validateSecretKeyStructure, if_neg (Nat.not_lt.mpr hdepth),
    if_neg (not_not_intro (length_keyAt hseed))]

theorem usableData_evolvedKey :
    usableData (some (evolvedKey crypto depth seed period)) =
      .ok (evolvedKey crypto depth seed period, keyAt crypto depth seed period) := by
  show (validateSecretKeyStructure depth (keyAt crypto depth seed period) >>= fun _ => _) = _
  rw [validateSecretKeyStructure_keyAt hdepth hseed]
  rfl

theorem update_evolvedKey (hperiod : period + 1 < 2 ^ depth) :
    update crypto (some (evolvedKey crypto depth seed period)) =
      (.ok (evolvedKey crypto depth seed (period + 1)),
        some (evolvedKey crypto depth seed period).zeroize) := by
  have hbound : 2 ^ depth < 2 ^ 64 := Nat.pow_lt_pow_right (by decide) (Nat.lt_succ_of_le hdepth)
  have hnext : (period + 1) % 2 ^ 64 = period + 1 := Nat.mod_eq_of_lt (by omega)
  have hmax : ¬ period + 1 ≥ maxPeriod depth := by
    rw [maxPeriod_eq hdepth]
    omega
  rw [update, usableData_evolvedKey hdepth hseed]
  simp only [evolvedKey, updateInternal_keyAt hdepth hseed hperiod, hnext]
  exact if_neg hmax

theorem update_evolvedKey_last (hperiod : period + 1 = 2 ^ depth) :
    update crypto (some (evolvedKey crypto depth seed period)) =
      (.error (.exhausted period (maxPeriod depth - 1)),
        some (evolvedKey crypto depth seed period)) := by
  have hbound : 2 ^ depth < 2 ^ 64 := Nat.pow_lt_pow_right (by decide) (Nat.lt_succ_of_le hdepth)
  have hmax : (period + 1) % 2 ^ 64 ≥ maxPeriod depth := by
    rw [Nat.mod_eq_of_lt (by omega), maxPeriod_eq hdepth]
    omega
  rw [update, usableData_evolvedKey hdepth hseed]
  exact if_pos hmax

theorem updates_eq (hperiod : period < 2 ^ depth) :
    updates crypto period (evolvedKey crypto depth seed 0) =
      .ok (evolvedKey crypto depth seed period) := by
  induction period with
  | zero => rfl
  | succ period ih =>
    rw [updates, ih (by omega)]
    exact congrArg Prod.fst (update_evolvedKey hdepth hseed hperiod)

theorem publicKey_evolvedKey :
    publicKey crypto (some (evolvedKey crypto depth seed period)) =
      some (publicKeyFromSeed crypto depth seed) := by
  simp only [publicKey, evolvedKey, validateSecretKeyStructure_keyAt hdepth hseed]

theorem sign_evolvedKey (hperiod : period < 2 ^ depth) (message : ByteString) :
    sign crypto (some (evolvedKey crypto depth seed period)) period message =
      .ok (signatureAt crypto depth seed period message) := by
  have hmax : ¬ period ≥ maxPeriod depth := by
    rw [maxPeriod_eq hdepth]
    omega
  rw [sign, usableData_evolvedKey hdepth hseed]
  show (if period ≥ maxPeriod depth then _ else if period ≠ period then _ else _) = _
  rw [if_neg hmax, if_neg (not_not_intro rfl)]
  exact congrArg Except.ok (signInternal_keyAt hdepth hseed (length_zeros _))

end

theorem usableData_eq_ok {key : SecretKey} {data : ByteString}
    (h : usableData (some sk) = .ok (key, data)) : key = sk ∧ sk.data = some data := by
  unfold usableData at h
  simp only at h
  split at h
  next => cases h
  next bytes hbytes =>
    rw [seq_eq_ok] at h
    injection h.2 with h
    injection h with hkey hdata
    exact ⟨hkey.symm, hdata ▸ hbytes⟩

theorem period_of_sign {period : Nat} {message sig : ByteString}
    (h : sign crypto (some sk) period message = .ok sig) : period = sk.period := by
  rw [sign, bind_eq_ok] at h
  obtain ⟨⟨key, data⟩, husable, h⟩ := h
  obtain ⟨rfl, _⟩ := usableData_eq_ok husable
  rw [guard_eq_ok, guard_eq_ok] at h
  exact not_not.mp h.2.1

theorem sign_other_period {other : Nat} (hother : other ≠ sk.period)
    (message : ByteString) : ∃ e, sign crypto (some sk) other message = .error e := by
  cases hsign : sign crypto (some sk) other message with
  | error e => exact ⟨e, rfl⟩
  | ok sig => exact absurd (period_of_sign hsign) hother

section

variable {spent : Option SecretKey} (h : update crypto (some sk) = (.ok evolved, spent))
include h

theorem spent_of_update : spent = some sk.zeroize := by
  unfold update at h
  split at h
  next => cases h
  next key data husable =>
    obtain ⟨rfl, _⟩ := usableData_eq_ok husable
    simp only at h
    split at h
    next => cases h
    next =>
      injection h with _ hspent
      exact hspent.symm

end

/-- Correctness through the whole life of a key: at every period the evolved key has the public
key it was generated with, signs for this period and no other, and what it signs decodes and
verifies; past the last period the update fails and leaves the key as it is. -/
theorem sign_verifies_through_evolution (hverify : crypto.SignaturesVerify)
    (hdepth : depth ≤ maxKeyGenDepth) (hseed : seed.length = kesSeedSize) :
    ∃ sk₀ pubKey, keyGen crypto depth seed = .ok (sk₀, pubKey) ∧
      (∀ period < 2 ^ depth, ∃ sk, updates crypto period sk₀ = .ok sk ∧
        publicKey crypto (some sk) = some pubKey ∧
        (∀ message, ∃ sig, sign crypto (some sk) period message = .ok sig ∧
          (sig.length : Int) = signatureSize depth ∧
          (1 ≤ depth → ∃ decoded, newSumKesFromBytes depth sig = .ok decoded ∧
            decoded.verify crypto period pubKey message = true)) ∧
        (∀ other ≠ period, ∀ message, ∃ e, sign crypto (some sk) other message = .error e)) ∧
      ∃ last e, updates crypto (2 ^ depth - 1) sk₀ = .ok last ∧
        update crypto (some last) = (.error e, some last) := by
  have hmax : depth ≤ maxDepth := Nat.le_trans hdepth (by decide)
  have hpos : 0 < 2 ^ depth := Nat.two_pow_pos depth
  refine ⟨_, _, keyGen_eq hdepth hseed, ?_, ?_⟩
  · intro period hperiod
    refine ⟨_, updates_eq hmax hseed hperiod, publicKey_evolvedKey hmax hseed, ?_, ?_⟩
    · intro message
      refine ⟨_, sign_evolvedKey hmax hseed hperiod message, ?_, ?_⟩
      · rw [signatureSize_eq hmax, length_signatureAt hseed]
      · intro hone
        obtain ⟨below, rfl⟩ := Nat.exists_eq_add_of_le' hone
        exact ⟨_, newSumKesFromBytes_signatureAt hmax hseed,
          verify_decodedSignatureAt hverify message hmax hseed hperiod⟩
    · intro other hother message
      exact sign_other_period hother message
  · exact ⟨_, _, updates_eq hmax hseed (by omega), update_evolvedKey_last hmax hseed (by omega)⟩

end

/-- Stand-ins of the right lengths: the public key is the seed, a signature starts with it, and
the hash keeps the first 32 bytes. -/
def seedCrypto : Crypto where
  ed25519PublicKey seed := seed
  ed25519Sign seed _ := seed ++ zeros 32
  verifyEd25519Strict pubKey _ sig := decide (sig = pubKey ++ zeros 32)
  blake2b256 msg := (msg ++ zeros 32).take 32
  length_publicKey _ h := h
  length_sign seed _ h := by rw [List.length_append, h, length_zeros]
  length_blake2b256 msg := by
    rw [List.length_take, List.length_append, length_zeros]
    omega

theorem seedCrypto_signaturesVerify : seedCrypto.SignaturesVerify := fun _ _ _ => decide_eq_true rfl

theorem sign_verifies_through_evolution_zeros :
    seedCrypto.SignaturesVerify ∧ 2 ≤ maxKeyGenDepth ∧ (zeros 32).length = kesSeedSize ∧
      ∃ sk₀ pubKey, keyGen seedCrypto 2 (zeros 32) = .ok (sk₀, pubKey) ∧
        ∃ sk, updates seedCrypto 3 sk₀ = .ok sk ∧ ∀ message, ∃ sig decoded,
          sign seedCrypto (some sk) 3 message = .ok sig ∧
            newSumKesFromBytes 2 sig = .ok decoded ∧
            decoded.verify seedCrypto 3 pubKey message = true := by
  refine ⟨seedCrypto_signaturesVerify, by decide, length_zeros 32, ?_⟩
  obtain ⟨sk₀, pubKey, hgen, hperiods, -⟩ := @sign_verifies_through_evolution seedCrypto 2
    (zeros 32) seedCrypto_signaturesVerify (by decide) (length_zeros 32)
  obtain ⟨sk, hsk, -, hsign, -⟩ := hperiods 3 (by decide)
  refine ⟨sk₀, pubKey, hgen, sk, hsk, fun message => ?_⟩
  obtain ⟨sig, hsig, -, hdecode⟩ := hsign message
  obtain ⟨decoded, hdecoded, hverified⟩ := hdecode (by decide)
  exact ⟨sig, decoded, hsig, hdecoded, hverified⟩

end Gouroboros.Kes

import Gouroboros.Kes.ForwardSecurity

/-!
# Verification binds a signature to the leaf of its period

A signature carries the public keys of both children at every level, so whoever made it chose
them. Verification recomputes the hash of each pair on the way down (`kes/kes.go`), so that with a
generated tree another pair than the tree's is a collision (`verify_binds_leaf`).
-/

namespace Gouroboros.Kes

open Slices ExceptFold
open Ledger (ByteString)

variable {crypto : Crypto}

def treePair (crypto : Crypto) (depth : Nat) (seed : ByteString) (node : Node) : ByteString :=
  nodePublicKey crypto depth seed (node ++ [false]) ++
    nodePublicKey crypto depth seed (node ++ [true])

/-- The two public keys that a signature carries for a level, counted from the root. -/
def signaturePair (depth : Nat) (sig : ByteString) (level : Nat) : ByteString :=
  slice sig (64 + 64 * (depth - 1 - level)) (64 + 64 * (depth - level))

/-- Two distinct 64-byte inputs of one hash: the pair of the tree and that of the signature at a
level on the way to the leaf of the period. -/
def PairCollision (crypto : Crypto) (depth : Nat) (seed : ByteString) (period : Nat)
    (sig : ByteString) : Prop :=
  ∃ level < depth,
    let ofTree := treePair crypto depth seed ((leafOf depth period).take level)
    let ofSig := signaturePair depth sig level
    ofTree.length = 64 ∧ ofSig.length = 64 ∧ ofTree ≠ ofSig ∧
      crypto.blake2b256 ofTree = crypto.blake2b256 ofSig

theorem hashPair_eq {l r : ByteString} (hl : l.length = 32) (hr : r.length = 32) :
    hashPair crypto l r = crypto.blake2b256 (l ++ r) := by
  have hzeros : zeros 64 = zeros 32 ++ zeros 32 := rfl
  rw [hashPair, hzeros, copyInto_left (length_zeros 32) hl]
  exact congrArg crypto.blake2b256 ((copyInto_right hl 0 32).trans
    (congrArg (l ++ ·) (copyInto_all (length_zeros 32) hr)))

/-! ## Decoding, inverted -/

/-- The bytes of a subtree's signature and what they decode to; a leaf's are the signature. -/
def DecodesTo : Nat → ByteString → KesSig → Prop
  | 0, bytes, decoded => decoded = .sum0 (slice bytes 0 64)
  | depth + 1, bytes, decoded => newSumKesFromBytes (depth + 1) bytes = .ok decoded

variable {depth period : Nat} {bytes seed : ByteString}

theorem DecodesTo.succ {decoded : KesSig} (h : DecodesTo (depth + 1) bytes decoded) :
    ∃ child left right sigma, bytes = child ++ (left ++ right) ∧ depth + 1 ≤ maxDepth ∧
      child.length = 64 + 64 * depth ∧ left.length = 32 ∧ right.length = 32 ∧
      DecodesTo depth child sigma ∧ decoded = .sumX (depth + 1) sigma left right := by
  have hguards := h
  rw [DecodesTo, newSumKesFromBytes, guard_eq_ok, guard_eq_ok] at hguards
  rcases hguards with ⟨hdepth, hlength, -⟩
  have hdepth : depth + 1 ≤ maxDepth := Nat.not_lt.mp hdepth
  have hlength : bytes.length = 64 + depth * 32 * 2 + (32 + 32) := by
    have hsize := not_not.mp hlength
    rw [signatureSize_eq hdepth, sigSize_succ] at hsize
    exact Int.ofNat_inj.mp hsize
  rcases exists_append hlength with ⟨child, keys, rfl, hchild, hkeys⟩
  rcases exists_append hkeys with ⟨left, right, rfl, hleft, hright⟩
  rw [DecodesTo, newSumKesFromBytes_append hdepth hchild hleft hright, bind_eq_ok] at h
  rcases h with ⟨sigma, hsigma, hdecoded⟩
  injection hdecoded with hdecoded
  refine ⟨child, left, right, sigma, rfl, hdepth, by omega, hleft, hright, ?_, hdecoded.symm⟩
  cases depth with
  | zero =>
    injection hsigma with hsigma
    rw [DecodesTo, slice_all hchild, hsigma]
  | succ depth => exact hsigma

/-! ## One level -/

theorem treePair_cons (depth : Nat) (seed : ByteString) (right : Bool) (node : Node) :
    treePair crypto (depth + 1) seed (right :: node) =
      treePair crypto depth (childSeed crypto seed right) node :=
  congrArg₂ (· ++ ·) (bytes_under depth seed right (.publicKey (node ++ [false])))
    (bytes_under depth seed right (.publicKey (node ++ [true])))

section
variable {depth : Nat} {child left right : ByteString} (hchild : child.length = 64 + 64 * depth)
  (hleft : left.length = 32) (hright : right.length = 32)

include hchild hleft hright in
theorem signaturePair_root :
    signaturePair (depth + 1) (child ++ (left ++ right)) 0 = left ++ right := by
  have hpair : (left ++ right).length = 64 := by rw [List.length_append, hleft, hright]
  exact (slice_right hchild 0 64).trans (slice_all hpair)

include hchild in
theorem signaturePair_succ {level : Nat} (hlevel : level < depth) :
    signaturePair (depth + 1) (child ++ (left ++ right)) (level + 1) =
      signaturePair depth child level := by
  have hstart : depth + 1 - 1 - (level + 1) = depth - 1 - level := by omega
  have hstop : depth + 1 - (level + 1) = depth - level := by omega
  rw [signaturePair, signaturePair, hstart, hstop]
  exact slice_append_left _ (by omega)

end

theorem PairCollision.of_child {rest : Nat} {child left right : ByteString} {side : Bool}
    (hchild : child.length = 64 + 64 * depth)
    (hleaf : leafOf (depth + 1) period = side :: leafOf depth rest)
    (h : PairCollision crypto depth (childSeed crypto seed side) rest child) :
    PairCollision crypto (depth + 1) seed period (child ++ (left ++ right)) := by
  rcases h with ⟨level, hlevel, hcollision⟩
  refine ⟨level + 1, Nat.succ_lt_succ hlevel, ?_⟩
  rw [hleaf, List.take_succ_cons, treePair_cons, signaturePair_succ hchild hlevel]
  exact hcollision

/-! ## The whole path -/

def leafPublicKey (crypto : Crypto) (depth : Nat) (seed : ByteString) (period : Nat) : ByteString :=
  crypto.ed25519PublicKey (nodeSeed crypto seed (leafOf depth period))

theorem binds_of_verify {msg : ByteString} {decoded : KesSig}
    (hdecode : DecodesTo depth bytes decoded)
    (hverify : decoded.verify crypto period (publicKeyFromSeed crypto depth seed) msg) :
    period < 2 ^ depth ∧
      (crypto.verifyEd25519Strict (leafPublicKey crypto depth seed period) msg
          (slice bytes 0 64) ∨ PairCollision crypto depth seed period bytes) := by
  induction depth generalizing period seed bytes decoded with
  | zero =>
    subst hdecode
    rw [KesSig.verify] at hverify
    split at hverify
    next => cases hverify
    next hzero => exact ⟨by omega, .inl hverify⟩
  | succ depth ih =>
    rcases hdecode.succ with
      ⟨child, left, right, sigma, rfl, hdepth, hchild, hleft, hright, hsigma, rfl⟩
    have hfront : slice (child ++ (left ++ right)) 0 64 = slice child 0 64 :=
      slice_append_left 0 (by omega)
    rw [verify_sumX hdepth] at hverify
    rcases hverify with ⟨hperiod, hroot, hverify⟩
    refine ⟨hperiod, ?_⟩
    have htree : publicKeyFromSeed crypto (depth + 1) seed =
        crypto.blake2b256 (treePair crypto (depth + 1) seed []) :=
      hashPair_eq (length_leftPublicKey depth seed) (length_rightPublicKey depth seed)
    rw [hashPair_eq hleft hright, htree] at hroot
    have hlength : ∀ {l r : ByteString}, l.length = 32 → r.length = 32 → (l ++ r).length = 64 := by
      intro l r hl hr
      rw [List.length_append, hl, hr]
    by_cases hpair : left ++ right = treePair crypto (depth + 1) seed []
    · -- the keys of the signature are those of the tree, so the subtree's own key is checked
      rcases List.append_inj hpair (hleft.trans (length_leftPublicKey depth seed).symm)
        with ⟨rfl, rfl⟩
      rw [hfront]
      by_cases hside : period < 2 ^ depth
      · rw [if_pos hside] at hverify
        rcases (ih hsigma hverify).2 with hleaf | hcollision
        · refine .inl ?_
          rw [leafPublicKey, leafOf_left hside]
          exact hleaf
        · exact .inr (hcollision.of_child hchild (leafOf_left hside))
      · rw [if_neg hside] at hverify
        have hside := Nat.not_lt.mp hside
        rcases (ih hsigma hverify).2 with hleaf | hcollision
        · refine .inl ?_
          rw [leafPublicKey, leafOf_right hside]
          exact hleaf
        · exact .inr (hcollision.of_child hchild (leafOf_right hside))
    · -- the two pairs of the root collide
      refine .inr ⟨0, Nat.succ_pos depth, ?_⟩
      rw [List.take_zero, signaturePair_root hchild hleft hright]
      exact ⟨hlength (length_leftPublicKey depth seed) (length_rightPublicKey depth seed),
        hlength hleft hright, fun h => hpair h.symm, hroot.symm⟩

/-- What verification against a generated key accepts is an Ed25519 signature under the key of
the period's leaf, or shows two inputs on which the hash collides. -/
theorem verify_binds_leaf {depth period : Nat} {seed pubKey sig msg : ByteString} {sk : SecretKey}
    {decoded : KesSig} (hgen : keyGen crypto depth seed = .ok (sk, pubKey))
    (hdecode : newSumKesFromBytes depth sig = .ok decoded)
    (hverify : decoded.verify crypto period pubKey msg = true) :
    period < 2 ^ depth ∧
      (crypto.verifyEd25519Strict (leafPublicKey crypto depth seed period) msg
          (slice sig 0 64) = true ∨ PairCollision crypto depth seed period sig) := by
  rcases keyGen_eq_ok hgen with ⟨-, -, -, rfl⟩
  cases depth with
  | zero => cases hdecode
  | succ depth => exact binds_of_verify hdecode hverify

/-- The signature of the last of four periods. -/
theorem verify_binds_leaf_last :
    ∃ sk pubKey sig decoded, keyGen seedCrypto 2 (zeros 32) = .ok (sk, pubKey) ∧
      newSumKesFromBytes 2 sig = .ok decoded ∧ decoded.verify seedCrypto 3 pubKey [] = true ∧
      (seedCrypto.verifyEd25519Strict (leafPublicKey seedCrypto 2 (zeros 32) 3) []
          (slice sig 0 64) = true ∨ PairCollision seedCrypto 2 (zeros 32) 3 sig) := by
  have hgen := @keyGen_eq seedCrypto 2 (zeros 32) (by decide) (length_zeros 32)
  have hdecode := @newSumKesFromBytes_signatureAt seedCrypto 1 3 (zeros 32) [] (by decide)
    (length_zeros 32)
  have hverify := @verify_decodedSignatureAt seedCrypto 2 3 (zeros 32) seedCrypto_signaturesVerify []
    (by decide) (length_zeros 32) (by decide)
  exact ⟨_, _, _, _, hgen, hdecode, hverify, (verify_binds_leaf hgen hdecode hverify).2⟩

end Gouroboros.Kes

import Gouroboros.Lib.CborItems
import Gouroboros.Lib.ExceptFold
import Gouroboros.Ledger.Byron.Merkle

/-!
# The transaction proof of a Byron block

What the header of a main block says about its transactions (`ledger/byron/bodyproof.go`): their
number, the Merkle root over the preserved encodings of their bodies, and the hash of the list of
their preserved witness encodings. The other three parts of the body proof are not modelled.

That the proof binds the witnesses rests on CBOR: their list is hashed as the bare concatenation of
its elements, which only well-formed elements can be told apart in.
-/

namespace Gouroboros.Ledger.Byron

open ExceptFold

open Cbor (WellFormedItem)

/-! ## Decoded header values -/

/-- A value that the header's decoder leaves untyped. -/
inductive ProofValue where
  | list (values : List ProofValue)
  | bytes (value : ByteString)
  | uint64 (value : Nat)
  | uint32 (value : Nat)
  | uint (value : Nat)
  | int64 (value : Int)
  | int (value : Int)
  | other (typeName : String)

def ProofValue.typeName : ProofValue → String
  | .list _ => "[]interface \x7b\x7d"
  | .bytes _ => "[]uint8"
  | .uint64 _ => "uint64"
  | .uint32 _ => "uint32"
  | .uint _ => "uint"
  | .int64 _ => "int64"
  | .int _ => "int"
  | .other typeName => typeName

/-- `len(proof)` after the type assertion, 0 where it fails. -/
def ProofValue.elements : ProofValue → Nat
  | .list values => values.length
  | _ => 0

inductive BodyProofError where
  | blockNil
  | bodyProofShape (typeName : String) (elements : Nat)
  | txProofShape (typeName : String) (elements : Nat)
  | txCountNegative (count : Int)
  | txCountType (typeName : String)
  | txCountMismatch (declared carried : Nat)
  | noBodyCbor (index : Nat)
  | noWitnessCbor (index : Nat)
  | notAHash (label : String)
  | hashMismatch (label : String) (expected actual : ByteString)
deriving DecidableEq

def asUint : ProofValue → Except BodyProofError Nat
  | .uint64 n => .ok n
  | .uint n => .ok n
  | .int64 n => if n < 0 then .error (.txCountNegative n) else .ok n.toNat
  | .int n => if n < 0 then .error (.txCountNegative n) else .ok n.toNat
  | value => .error (.txCountType value.typeName)

def checkHashShapeBytes (label : String) : ProofValue → Except BodyProofError ByteString
  | .bytes expected => if expected.length ≠ 32 then .error (.notAHash label) else .ok expected
  | _ => .error (.notAHash label)

def checkHash (label : String) (expected : ProofValue) (actual : ByteString) :
    Except BodyProofError Unit := do
  let expectedBytes ← checkHashShapeBytes label expected
  if expectedBytes ≠ actual then .error (.hashMismatch label expectedBytes actual) else .ok ()

/-! ## Blocks -/

/-- A transaction's preserved encodings; `none` is a nil slice. -/
structure ByronTransaction where
  bodyCbor : Option ByteString
  witnessesCbor : Option ByteString
deriving DecidableEq

/-- A main block: its header's body proof, absent with a nil header, and its transactions. -/
structure ByronMainBlock where
  bodyProof : Option ProofValue
  txPayload : List ByronTransaction

structure BodyProofArray where
  txProof : ProofValue
  sscProof : ProofValue
  dlgProof : ProofValue
  updProof : ProofValue

def bodyProofArray (b : ByronMainBlock) : Except BodyProofError BodyProofArray :=
  match b.bodyProof with
  | none => .error .blockNil
  | some (.list [txProof, sscProof, dlgProof, updProof]) =>
    .ok { txProof, sscProof, dlgProof, updProof }
  | some value => .error (.bodyProofShape value.typeName value.elements)

/-- The bodies and the witnesses, from the transaction with the index on. -/
def preservedCbor : Nat → List ByronTransaction →
    Except BodyProofError (List ByteString × List ByteString)
  | _, [] => .ok ([], [])
  | i, tx :: txs =>
    let body := tx.bodyCbor.getD []
    if body.length = 0 then .error (.noBodyCbor i)
    else
      let witness := tx.witnessesCbor.getD []
      if witness.length = 0 then .error (.noWitnessCbor i)
      else do
        let (bodies, witnesses) ← preservedCbor (i + 1) txs
        .ok (body :: bodies, witness :: witnesses)

/-- The witnesses as an array of indefinite length, their bytes untouched. -/
def encodeWitnessList (witnesses : List ByteString) : ByteString :=
  0x9f :: (witnesses.flatten ++ [0xff])

def validateTxProof (H : Hash256) (b : ByronMainBlock) (rawProof : ProofValue) :
    Except BodyProofError Unit :=
  match rawProof with
  | .list [count, merkle, witnessesHash] => do
      let expectedCount ← asUint count
      let actualCount := b.txPayload.length
      if expectedCount ≠ actualCount then .error (.txCountMismatch expectedCount actualCount)
      else do
        let (bodies, witnesses) ← preservedCbor 0 b.txPayload
        checkHash "tx merkle root" merkle (merkleRoot H bodies)
        checkHash "witnesses hash" witnessesHash (H.hash (encodeWitnessList witnesses))
  | value => .error (.txProofShape value.typeName value.elements)

/-- The transaction part of `ValidateBodyProof`. -/
def validateTransactionPart (H : Hash256) (b : ByronMainBlock) : Except BodyProofError Unit := do
  let proof ← bodyProofArray b
  validateTxProof H b proof.txProof

/-! ## What passing means -/

def ByronMainBlock.bodies (b : ByronMainBlock) : List ByteString :=
  b.txPayload.map fun tx => tx.bodyCbor.getD []

def ByronMainBlock.witnesses (b : ByronMainBlock) : List ByteString :=
  b.txPayload.map fun tx => tx.witnessesCbor.getD []

theorem preservedCbor_eq_ok {i : Nat} {txs : List ByronTransaction}
    {bodies witnesses : List ByteString} (h : preservedCbor i txs = .ok (bodies, witnesses)) :
    bodies = (txs.map fun tx => tx.bodyCbor.getD []) ∧
      witnesses = (txs.map fun tx => tx.witnessesCbor.getD []) := by
  induction txs generalizing i bodies witnesses with
  | nil =>
    injection h with h
    injection h with hbodies hwitnesses
    exact ⟨hbodies.symm, hwitnesses.symm⟩
  | cons tx txs ih =>
    rw [preservedCbor, guard_eq_ok, guard_eq_ok, bind_eq_ok] at h
    rcases h with ⟨-, -, ⟨restBodies, restWitnesses⟩, hrest, hok⟩
    rcases ih hrest with ⟨hbodies, hwitnesses⟩
    injection hok with hok
    injection hok with hbodies' hwitnesses'
    rw [← hbodies', ← hwitnesses', hbodies, hwitnesses]
    exact ⟨rfl, rfl⟩

theorem checkHash_eq_ok {label : String} {expected : ProofValue} {actual : ByteString} :
    checkHash label expected actual = .ok () → expected = .bytes actual := by
  intro h
  rw [checkHash, bind_eq_ok] at h
  rcases h with ⟨expectedBytes, hshape, hequal⟩
  rw [guard_eq_ok] at hequal
  have hequal := not_not.mp hequal.1
  cases expected with
  | bytes value =>
    rw [checkHashShapeBytes, guard_eq_ok] at hshape
    injection hshape.2 with hvalue
    rw [hvalue, hequal]
  | list | uint64 | uint32 | uint | int64 | int | other => cases hshape

theorem validateTxProof_eq_ok {H : Hash256} {b : ByronMainBlock} {rawProof : ProofValue}
    (h : validateTxProof H b rawProof = .ok ()) :
    ∃ count, rawProof = .list [count, .bytes (merkleRoot H b.bodies),
      .bytes (H.hash (encodeWitnessList b.witnesses))] := by
  unfold validateTxProof at h
  split at h
  next count merkle witnessesHash =>
    rw [bind_eq_ok] at h
    rcases h with ⟨expectedCount, -, h⟩
    rw [guard_eq_ok, bind_eq_ok] at h
    rcases h with ⟨-, ⟨bodies, witnesses⟩, hpreserved, h⟩
    rw [seq_eq_ok] at h
    rcases preservedCbor_eq_ok hpreserved with ⟨rfl, rfl⟩
    exact ⟨count, by rw [checkHash_eq_ok h.1, checkHash_eq_ok h.2]; rfl⟩
  next => cases h

theorem bodyProofArray_congr {b₁ b₂ : ByronMainBlock} (h : b₁.bodyProof = b₂.bodyProof) :
    bodyProofArray b₁ = bodyProofArray b₂ := by
  rw [bodyProofArray, bodyProofArray, h]

theorem witnesses_eq_of_encodeWitnessList {ws vs : List ByteString}
    (hws : ∀ w ∈ ws, WellFormedItem w) (hvs : ∀ w ∈ vs, WellFormedItem w)
    (h : encodeWitnessList ws = encodeWitnessList vs) : ws = vs := by
  injection h with _ hlist
  exact Cbor.flatten_inj hws hvs hlist

/-- The transaction proof binds the transactions. Lists with one Merkle root are equal, or a
collision is among the byte strings hashed in their trees. Blocks that pass the transaction part
against one body proof carry the same bodies and witnesses, or there is a collision in the trees
of their bodies or of their witness lists. -/
theorem body_proof_binds_transactions (H : Hash256) :
    (∀ xs ys : List ByteString, merkleRoot H xs = merkleRoot H ys →
      xs = ys ∨ MerkleCollision H xs ys) ∧
    ∀ b₁ b₂ : ByronMainBlock, b₁.bodyProof = b₂.bodyProof →
      validateTransactionPart H b₁ = .ok () → validateTransactionPart H b₂ = .ok () →
      (∀ w ∈ b₁.witnesses, WellFormedItem w) → (∀ w ∈ b₂.witnesses, WellFormedItem w) →
        (b₁.bodies = b₂.bodies ∧ b₁.witnesses = b₂.witnesses) ∨
          MerkleCollision H b₁.bodies b₂.bodies ∨
          (encodeWitnessList b₁.witnesses ≠ encodeWitnessList b₂.witnesses ∧
            H.hash (encodeWitnessList b₁.witnesses) = H.hash (encodeWitnessList b₂.witnesses)) := by
  refine ⟨fun xs ys h => merkleRoot_eq_or_collision h, ?_⟩
  intro b₁ b₂ hproof hvalid₁ hvalid₂ hwell₁ hwell₂
  rw [validateTransactionPart, bind_eq_ok] at hvalid₁ hvalid₂
  rcases hvalid₁ with ⟨proof, harray₁, hvalid₁⟩
  rcases hvalid₂ with ⟨proof', harray₂, hvalid₂⟩
  rw [bodyProofArray_congr hproof, harray₂] at harray₁
  injection harray₁ with hsame
  subst hsame
  rcases validateTxProof_eq_ok hvalid₁ with ⟨count₁, htx₁⟩
  rcases validateTxProof_eq_ok hvalid₂ with ⟨count₂, htx₂⟩
  rw [htx₁] at htx₂
  injection htx₂ with hentries
  injection hentries with _ hentries
  injection hentries with hroot hentries
  injection hentries with hwitnesses _
  injection hroot with hroot
  injection hwitnesses with hwitnesses
  rcases merkleRoot_eq_or_collision hroot with hbodies | hcollision
  · by_cases hlist : encodeWitnessList b₁.witnesses = encodeWitnessList b₂.witnesses
    · exact .inl ⟨hbodies, witnesses_eq_of_encodeWitnessList hwell₁ hwell₂ hlist⟩
    · exact .inr (.inr ⟨hlist, hwitnesses⟩)
  · exact .inr (.inl hcollision)

/-- A checksum in place of the hash: it does not see the order of the bytes. -/
def checksum : Hash256 where
  hash bytes := bytes.foldl (· + ·) 0 :: List.replicate 31 0
  length_hash _ := rfl

theorem merkleRoot_pair (H : Hash256) (first second : ByteString) :
    merkleRoot H [first, second] = H.hash (merkleBranchTag ::
      (H.hash (merkleLeafTag :: first) ++ H.hash (merkleLeafTag :: second))) := by
  rw [merkleRoot_eq, merkleNode_eq]
  change H.hash (merkleBranchTag :: (merkleNode H [first] ++ merkleNode H [second])) = _
  rw [merkleNode_eq, merkleNode_eq]
  rfl

def twoTransactionBlock (first second : ByteString) : ByronMainBlock where
  bodyProof := some (.list [.list [.uint64 2, .bytes (4 :: List.replicate 31 0),
    .bytes (0x9e :: List.replicate 31 0)], .list [], .bytes [], .bytes []])
  txPayload := [⟨some first, some [0x80]⟩, ⟨some second, some [0x80]⟩]

theorem validateTransactionPart_of_root {first second : ByteString} (hfirst : first ≠ [])
    (hsecond : second ≠ [])
    (hroot : merkleRoot checksum [first, second] = 4 :: List.replicate 31 0) :
    validateTransactionPart checksum (twoTransactionBlock first second) = .ok () := by
  have hwitnesses : checksum.hash (encodeWitnessList [[0x80], [0x80]]) =
      0x9e :: List.replicate 31 0 := by decide
  simp [validateTransactionPart, bodyProofArray, twoTransactionBlock, validateTxProof, asUint,
    preservedCbor, checkHash, checkHashShapeBytes, hroot, hwitnesses, hfirst, hsecond, bind,
    Except.bind]

theorem wellFormedItem_emptyArray : WellFormedItem [0x80] := by
  let head : Cbor.Head := ⟨4, 0, [], by decide, by decide, rfl⟩
  have hitem : Cbor.Items 1 (0 + 1) (head.bytes ++ ([] ++ ([] ++ []))) :=
    .definite head [] rfl (fun _ => Nat.one_pos) .nil .nil
  exact ⟨1, hitem⟩

/-- The transactions in either order pass against one proof, so the checksums collide. -/
theorem body_proof_binds_transactions_swapped :
    validateTransactionPart checksum (twoTransactionBlock [1] [2]) = .ok () ∧
      validateTransactionPart checksum (twoTransactionBlock [2] [1]) = .ok () ∧
      MerkleCollision checksum [[1], [2]] [[2], [1]] := by
  have hroot₁ : merkleRoot checksum [[1], [2]] = 4 :: List.replicate 31 0 := by
    rw [merkleRoot_pair]
    decide +kernel
  have hroot₂ : merkleRoot checksum [[2], [1]] = 4 :: List.replicate 31 0 := by
    rw [merkleRoot_pair]
    decide +kernel
  have hvalid₁ := validateTransactionPart_of_root (by decide) (by decide) hroot₁
  have hvalid₂ := validateTransactionPart_of_root (by decide) (by decide) hroot₂
  have hwell : ∀ w ∈ [[0x80], [0x80]], WellFormedItem w := by
    intro w hw
    have hw : w = [0x80] := List.eq_of_mem_replicate (n := 2) hw
    rw [hw]
    exact wellFormedItem_emptyArray
  refine ⟨hvalid₁, hvalid₂, ?_⟩
  rcases (body_proof_binds_transactions checksum).2 (twoTransactionBlock [1] [2])
    (twoTransactionBlock [2] [1]) rfl hvalid₁ hvalid₂ hwell hwell with hsame | hcollision | hlist
  · exact absurd hsame.1 (by decide)
  · exact hcollision
  · exact absurd rfl hlist.1

end Gouroboros.Ledger.Byron

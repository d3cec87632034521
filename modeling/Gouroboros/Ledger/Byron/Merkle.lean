import Gouroboros.Ledger.Common.Types

/-!
# The Byron Merkle tree

The root over the preserved encodings of a block's transactions (`ledger/byron/merkle.go`). A
node of several items splits them at the largest power of two below their number; leaves and
branches are told apart by a leading tag.

The root binds the list, unless byte strings that were hashed collide
(`merkleRoot_eq_or_collision`): because of the tags also for lists of different
lengths, whose trees have different shapes.
-/

namespace Gouroboros.Ledger.Byron

/-- Blake2b-256, a parameter: only the length of its digests is assumed. -/
structure Hash256 where
  hash : ByteString → ByteString
  length_hash : ∀ bytes, (hash bytes).length = 32

def merkleLeafTag : UInt8 := 0

def merkleBranchTag : UInt8 := 1

/-! ## Where a node splits -/

/-- `for power*2 < n { power *= 2 }`, for at most `fuel` rounds. -/
def doublePower (n : Nat) : Nat → Nat → Nat
  | 0, power => power
  | fuel + 1, power => if power * 2 < n then doublePower n fuel (power * 2) else power

/-- `n` rounds are more than the loop makes, see `largestPowerOfTwoBelow_spec`. -/
def largestPowerOfTwoBelow (n : Nat) : Nat := doublePower n n 1

theorem doublePower_spec {n fuel power : Nat} (hfuel : n ≤ power + fuel) (hpos : 0 < power)
    (hbelow : power < n) :
    ∃ k, doublePower n fuel power = power * 2 ^ k ∧ power * 2 ^ k < n ∧ n ≤ power * 2 ^ k * 2 := by
  induction fuel generalizing power with
  | zero => omega
  | succ fuel ih =>
    unfold doublePower
    split
    next hdouble =>
      rcases ih (by omega) (by omega) hdouble with ⟨k, hk, hlt, hle⟩
      have hpow : power * 2 * 2 ^ k = power * 2 ^ (k + 1) := by ring
      rw [hpow] at hk hlt hle
      exact ⟨k + 1, hk, hlt, hle⟩
    next hdone => exact ⟨0, by simp, by simpa using hbelow, by simpa using Nat.not_lt.mp hdone⟩

theorem largestPowerOfTwoBelow_spec {n : Nat} (hn : 2 ≤ n) :
    ∃ k, largestPowerOfTwoBelow n = 2 ^ k ∧ 2 ^ k < n ∧ n ≤ 2 ^ k * 2 := by
  have h := @doublePower_spec n n 1 (by omega) (by decide) (by omega)
  simpa [largestPowerOfTwoBelow] using h

theorem largestPowerOfTwoBelow_lt {n : Nat} (hn : 2 ≤ n) :
    0 < largestPowerOfTwoBelow n ∧ largestPowerOfTwoBelow n < n := by
  rcases largestPowerOfTwoBelow_spec hn with ⟨k, hk, hlt, -⟩
  rw [hk]
  exact ⟨Nat.two_pow_pos k, hlt⟩

/-! ## The tree -/

section
variable (H : Hash256)

/-- The hash of a node. `MerkleRoot` does not call it on an empty list. -/
def merkleNode : List ByteString → ByteString
  | [] => H.hash []
  | [item] => H.hash (merkleLeafTag :: item)
  | first :: second :: rest =>
    let items := first :: second :: rest
    let split := largestPowerOfTwoBelow items.length
    H.hash (merkleBranchTag :: (merkleNode (items.take split) ++ merkleNode (items.drop split)))
termination_by items => items.length
decreasing_by
  · have := largestPowerOfTwoBelow_lt (n := (first :: second :: rest).length) (by simp)
    rw [List.length_take]
    omega
  · have := largestPowerOfTwoBelow_lt (n := (first :: second :: rest).length) (by simp)
    rw [List.length_drop]
    omega

def merkleRoot (items : List ByteString) : ByteString :=
  if items.length = 0 then H.hash [] else merkleNode H items

/-! ## What is hashed -/

def nodeInput (items : List ByteString) : ByteString :=
  match items with
  | [] => []
  | [item] => merkleLeafTag :: item
  | _ :: _ :: _ =>
    let split := largestPowerOfTwoBelow items.length
    merkleBranchTag :: (merkleNode H (items.take split) ++ merkleNode H (items.drop split))

def merkleInputs : List ByteString → List ByteString
  | [] => [[]]
  | [item] => [merkleLeafTag :: item]
  | first :: second :: rest =>
    let items := first :: second :: rest
    let split := largestPowerOfTwoBelow items.length
    nodeInput H items :: (merkleInputs (items.take split) ++ merkleInputs (items.drop split))
termination_by items => items.length
decreasing_by
  · have := largestPowerOfTwoBelow_lt (n := (first :: second :: rest).length) (by simp)
    rw [List.length_take]
    omega
  · have := largestPowerOfTwoBelow_lt (n := (first :: second :: rest).length) (by simp)
    rw [List.length_drop]
    omega

variable {H}

theorem merkleNode_eq (items : List ByteString) :
    merkleNode H items = H.hash (nodeInput H items) := by
  unfold merkleNode nodeInput
  split
  · rfl
  · rfl
  · rfl

theorem merkleRoot_eq (items : List ByteString) : merkleRoot H items = merkleNode H items := by
  cases items with
  | nil =>
    rw [merkleNode_eq]
    rfl
  | cons item items => rfl

theorem nodeInput_mem_merkleInputs (items : List ByteString) :
    nodeInput H items ∈ merkleInputs H items := by
  unfold merkleInputs
  split
  · exact List.mem_singleton.mpr rfl
  · exact List.mem_singleton.mpr rfl
  · exact List.mem_cons_self

/-- Two distinct byte strings with one hash, among those hashed in the trees of two lists. -/
def MerkleCollision (H : Hash256) (xs ys : List ByteString) : Prop :=
  ∃ a ∈ merkleInputs H xs, ∃ b ∈ merkleInputs H ys, a ≠ b ∧ H.hash a = H.hash b

variable {xs ys : List ByteString}

theorem nodeInput_eq_or_collision (h : merkleNode H xs = merkleNode H ys) :
    nodeInput H xs = nodeInput H ys ∨ MerkleCollision H xs ys := by
  rw [merkleNode_eq, merkleNode_eq] at h
  by_cases hinput : nodeInput H xs = nodeInput H ys
  · exact .inl hinput
  · exact .inr ⟨_, nodeInput_mem_merkleInputs xs, _, nodeInput_mem_merkleInputs ys, hinput, h⟩

theorem length_merkleNode (items : List ByteString) : (merkleNode H items).length = 32 := by
  rw [merkleNode_eq]
  exact H.length_hash _

theorem merkleInputs_branch (first second : ByteString) (rest : List ByteString) :
    let items := first :: second :: rest
    let split := largestPowerOfTwoBelow items.length
    merkleInputs H items =
      nodeInput H items :: (merkleInputs H (items.take split) ++ merkleInputs H (items.drop split)) := by
  intro items split
  rw [merkleInputs]

theorem MerkleCollision.of_halves {first second first' second' : ByteString}
    {rest rest' : List ByteString} (left : Bool) :
    let xs := first :: second :: rest
    let ys := first' :: second' :: rest'
    let half := fun (items : List ByteString) =>
      if left then items.take (largestPowerOfTwoBelow items.length)
      else items.drop (largestPowerOfTwoBelow items.length)
    MerkleCollision H (half xs) (half ys) → MerkleCollision H xs ys := by
  rintro xs ys half ⟨a, ha, b, hb, hne, heq⟩
  have hsub : ∀ (first second : ByteString) (rest : List ByteString) {c : ByteString},
      c ∈ merkleInputs H (half (first :: second :: rest)) →
        c ∈ merkleInputs H (first :: second :: rest) := by
    intro first second rest c hc
    rw [merkleInputs_branch]
    cases left with
    | true => exact List.mem_cons_of_mem _ (List.mem_append_left _ hc)
    | false => exact List.mem_cons_of_mem _ (List.mem_append_right _ hc)
  exact ⟨a, hsub _ _ _ ha, b, hsub _ _ _ hb, hne, heq⟩

theorem merkleNode_binds (h : merkleNode H xs = merkleNode H ys) :
    xs = ys ∨ MerkleCollision H xs ys := by
  -- by the number of items of the first tree; the second is taken apart beside it
  induction hn : xs.length using Nat.strong_induction_on generalizing xs ys with
  | _ n ih =>
    rcases nodeInput_eq_or_collision h with hinput | hcollision
    · rcases xs with - | ⟨x, - | ⟨x', xs⟩⟩
      · rcases ys with - | ⟨y, - | ⟨y', ys⟩⟩
        · exact .inl rfl
        · cases hinput
        · cases hinput
      · rcases ys with - | ⟨y, - | ⟨y', ys⟩⟩
        · cases hinput
        · injection hinput with _ hitem
          exact .inl (by rw [hitem])
        · -- a leaf and a branch have different tags
          injection hinput with htag _
          exact absurd htag (by decide)
      · rcases ys with - | ⟨y, - | ⟨y', ys⟩⟩
        · cases hinput
        · injection hinput with htag _
          exact absurd htag (by decide)
        · -- the halves have the same hashes, whatever the two lengths are
          injection hinput with _ hchildren
          rcases List.append_inj hchildren
            ((length_merkleNode _).trans (length_merkleNode _).symm) with ⟨hleft, hright⟩
          have hsplit := largestPowerOfTwoBelow_lt (n := (x :: x' :: xs).length) (by simp)
          have hleft := ih _ (by rw [List.length_take]; omega) hleft rfl
          have hright := ih _ (by rw [List.length_drop]; omega) hright rfl
          rcases hleft with hleft | hcollision
          · rcases hright with hright | hcollision
            · refine .inl ?_
              rw [← List.take_append_drop _ (x :: x' :: xs), hleft, hright, List.take_append_drop]
            · exact .inr (MerkleCollision.of_halves false hcollision)
          · exact .inr (MerkleCollision.of_halves true hcollision)
    · exact .inr hcollision

/-- The root binds the list of items, of any length. -/
theorem merkleRoot_eq_or_collision (h : merkleRoot H xs = merkleRoot H ys) :
    xs = ys ∨ MerkleCollision H xs ys := by
  rw [merkleRoot_eq, merkleRoot_eq] at h
  exact merkleNode_binds h

end

end Gouroboros.Ledger.Byron

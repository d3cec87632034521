import Gouroboros.Kes.KeyEvolution

/-!
# Forward security of the key's bytes

Which seeds of the tree a secret key holds at every period (`kes/sign.go`). A node of the seed
tree is the path that leads to it. The array of a key is read as a list of slots, from the leaf
up to the root: the seed of the period's leaf, and at each level the seed of the right child
(wiped once the period lies under it) and the public keys of both children.
-/

namespace Gouroboros.Kes

open Slices
open Ledger (ByteString)

/-! ## The seed tree -/

/-- A node of the tree, as the path from the root; `true` is the right child. -/
abbrev Node := List Bool

def childSeed (crypto : Crypto) (seed : ByteString) (right : Bool) : ByteString :=
  expandSeed crypto seed (if right then 0x02 else 0x01)

def nodeSeed (crypto : Crypto) : ByteString → Node → ByteString
  | seed, [] => seed
  | seed, right :: path => nodeSeed crypto (childSeed crypto seed right) path

def nodePublicKey (crypto : Crypto) (depth : Nat) (seed : ByteString) (node : Node) : ByteString :=
  publicKeyFromSeed crypto (depth - node.length) (nodeSeed crypto seed node)

def leafOf : Nat → Nat → Node
  | 0, _ => []
  | depth + 1, period =>
    if period < 2 ^ depth then false :: leafOf depth period
    else true :: leafOf depth (period - 2 ^ depth)

/-- A leaf of an earlier period is the node or lies below it. -/
def Spent (depth period : Nat) (node : Node) : Prop :=
  ∃ earlier < period, node <+: leafOf depth earlier

/-! ## The slots of a key -/

/-- What 32 bytes of a secret key hold. -/
inductive Slot where
  | seed (node : Node)
  | wiped
  | publicKey (node : Node)
deriving DecidableEq

def Slot.bytes (crypto : Crypto) (depth : Nat) (seed : ByteString) : Slot → ByteString
  | .seed node => nodeSeed crypto seed node
  | .wiped => zeros 32
  | .publicKey node => nodePublicKey crypto depth seed node

def levelSlots (leaf : Node) (level : Nat) : List Slot :=
  let node := leaf.take level
  [if leaf.getD level false then .wiped else .seed (node ++ [true]),
    .publicKey (node ++ [false]), .publicKey (node ++ [true])]

def keyLayout (depth period : Nat) : List Slot :=
  let leaf := leafOf depth period
  .seed leaf :: (List.range depth).reverse.flatMap (levelSlots leaf)

def Slot.under (right : Bool) : Slot → Slot
  | .seed node => .seed (right :: node)
  | .wiped => .wiped
  | .publicKey node => .publicKey (right :: node)

variable {depth period : Nat}

theorem leafOf_left (h : period < 2 ^ depth) :
    leafOf (depth + 1) period = false :: leafOf depth period :=
  if_pos h

theorem leafOf_right (h : 2 ^ depth ≤ period) :
    leafOf (depth + 1) period = true :: leafOf depth (period - 2 ^ depth) :=
  if_neg (Nat.not_lt.mpr h)

theorem levelSlots_succ (right : Bool) (leaf : Node) (level : Nat) :
    levelSlots (right :: leaf) (level + 1) = (levelSlots leaf level).map (Slot.under right) := by
  simp only [levelSlots, List.take_succ_cons, List.getD_cons_succ, List.map_cons, List.map_nil,
    Slot.under, List.cons_append]
  split
  · rfl
  · rfl

theorem keyLayout_succ {rest : Nat} {right : Bool}
    (hleaf : leafOf (depth + 1) period = right :: leafOf depth rest) :
    keyLayout (depth + 1) period =
      (keyLayout depth rest).map (Slot.under right) ++ levelSlots (right :: leafOf depth rest) 0 := by
  have hlevels : (List.range (depth + 1)).reverse = (List.range depth).reverse.map (· + 1) ++ [0] := by
    rw [List.range_succ_eq_map, List.reverse_cons, ← List.map_reverse]
  simp only [keyLayout, hleaf, hlevels, List.flatMap_append, List.flatMap_map, levelSlots_succ,
    List.flatMap_singleton, List.map_cons, List.cons_append, List.map_flatMap]
  rfl

/-! ## The array is its slots -/

variable {crypto : Crypto}

theorem bytes_under (depth : Nat) (seed : ByteString) (right : Bool) (slot : Slot) :
    (slot.under right).bytes crypto (depth + 1) seed =
      slot.bytes crypto depth (childSeed crypto seed right) := by
  cases slot with
  | seed node => rfl
  | wiped => rfl
  | publicKey node =>
    show publicKeyFromSeed crypto (depth + 1 - (node.length + 1)) _ = _
    rw [Nat.add_sub_add_right]
    rfl

theorem flatMap_bytes_under (depth : Nat) (seed : ByteString) (right : Bool) (slots : List Slot) :
    (slots.map (Slot.under right)).flatMap (Slot.bytes crypto (depth + 1) seed) =
      slots.flatMap (Slot.bytes crypto depth (childSeed crypto seed right)) := by
  rw [List.flatMap_map]
  exact congrArg (slots.flatMap ·) (funext (bytes_under depth seed right))

theorem keyAt_eq_layout (depth period : Nat) (seed : ByteString) :
    keyAt crypto depth seed period =
      (keyLayout depth period).flatMap (Slot.bytes crypto depth seed) := by
  induction depth generalizing seed period with
  | zero =>
    show seed = seed ++ []
    rw [List.append_nil]
  | succ depth ih =>
    rw [keyAt]
    by_cases hside : period < 2 ^ depth
    · rw [activeSubtree_left hside, keptSeed_left hside, keyLayout_succ (leafOf_left hside),
        List.flatMap_append, flatMap_bytes_under, ih]
      simp [levelSlots, Slot.bytes, nodeSeed, nodePublicKey, childSeed, leftPublicKey,
        rightPublicKey]
    · have hside := Nat.not_lt.mp hside
      rw [activeSubtree_right hside, keptSeed_right hside, keyLayout_succ (leafOf_right hside),
        List.flatMap_append, flatMap_bytes_under, ih]
      simp [levelSlots, Slot.bytes, nodeSeed, nodePublicKey, childSeed, leftPublicKey,
        rightPublicKey]

variable {seed : ByteString}

theorem length_nodeSeed (hseed : seed.length = kesSeedSize) (node : Node) :
    (nodeSeed crypto seed node).length = 32 := by
  induction node generalizing seed with
  | nil => exact hseed
  | cons right path ih => exact ih (length_expandSeed seed _)

theorem length_bytes (hseed : seed.length = kesSeedSize)
    (slot : Slot) : (slot.bytes crypto depth seed).length = 32 := by
  cases slot with
  | seed node => exact length_nodeSeed hseed node
  | wiped => exact length_zeros 32
  | publicKey node => exact length_publicKeyFromSeed (length_nodeSeed hseed node)

/-! ## Spent nodes -/

theorem Spent.of_cons {right : Bool} {node : Node} (h : Spent (depth + 1) period (right :: node)) :
    (right = false ∧ ∃ earlier < period, earlier < 2 ^ depth ∧ node <+: leafOf depth earlier) ∨
      (right ∧ 2 ^ depth ≤ period ∧ Spent depth (period - 2 ^ depth) node) := by
  rcases h with ⟨earlier, hearlier, hleaf⟩
  by_cases hside : earlier < 2 ^ depth
  · rw [leafOf_left hside, List.cons_prefix_cons] at hleaf
    exact .inl ⟨hleaf.1, earlier, hearlier, hside, hleaf.2⟩
  · have hside := Nat.not_lt.mp hside
    rw [leafOf_right hside, List.cons_prefix_cons] at hleaf
    exact .inr ⟨hleaf.1, by omega, earlier - 2 ^ depth, by omega, hleaf.2⟩

theorem not_spent_of_mem_keyLayout {node : Node} (hperiod : period < 2 ^ depth)
    (hmem : Slot.seed node ∈ keyLayout depth period) : ¬ Spent depth period node := by
  induction depth generalizing period node with
  | zero =>
    rintro ⟨earlier, hearlier, -⟩
    omega
  | succ depth ih =>
    intro hspent
    by_cases hside : period < 2 ^ depth
    · rw [keyLayout_succ (leafOf_left hside), List.mem_append, List.mem_map] at hmem
      rcases hmem with ⟨slot, hslot, hunder⟩ | hroot
      · -- a slot of the left subtree
        cases slot with
        | seed path =>
          injection hunder with hnode
          subst hnode
          rcases hspent.of_cons with ⟨-, earlier, hearlier, -, hleaf⟩ | ⟨hfalse, -, -⟩
          · exact ih hside hslot ⟨earlier, hearlier, hleaf⟩
          · cases hfalse
        | wiped | publicKey => cases hunder
      · -- the root keeps the seed of the right child, whose leaves are all to come
        have hnode : node = [true] := by simpa [levelSlots] using hroot
        subst hnode
        rcases hspent.of_cons with ⟨hfalse, -⟩ | ⟨-, hle, -⟩
        · cases hfalse
        · omega
    · have hside := Nat.not_lt.mp hside
      rw [keyLayout_succ (leafOf_right hside), List.mem_append, List.mem_map] at hmem
      rcases hmem with ⟨slot, hslot, hunder⟩ | hroot
      · -- a slot of the right subtree
        cases slot with
        | seed path =>
          injection hunder with hnode
          subst hnode
          rcases hspent.of_cons with ⟨hfalse, -⟩ | ⟨-, -, hsub⟩
          · cases hfalse
          · exact ih (by omega) hslot hsub
        | wiped | publicKey => cases hunder
      · -- the seed of the right child has been wiped
        simp [levelSlots] at hroot

theorem length_leafOf (depth period : Nat) : (leafOf depth period).length = depth := by
  induction depth generalizing period with
  | zero => rfl
  | succ depth ih =>
    unfold leafOf
    split
    · rw [List.length_cons, ih]
    · rw [List.length_cons, ih]

/-- The node that a slot is about; the root for a wiped one. -/
def Slot.node : Slot → Node
  | .seed node => node
  | .wiped => []
  | .publicKey node => node

theorem length_node_le {slot : Slot} (hmem : slot ∈ keyLayout depth period) :
    slot.node.length ≤ depth := by
  rcases List.mem_cons.mp hmem with hleaf | hlevels
  · subst hleaf
    exact Nat.le_of_eq (length_leafOf depth period)
  · rcases List.mem_flatMap.mp hlevels with ⟨level, hlevel, hslot⟩
    have hlt : level < depth := List.mem_range.mp (List.mem_reverse.mp hlevel)
    have hchild : ∀ right : Bool, ((leafOf depth period).take level ++ [right]).length ≤ depth := by
      intro right
      rw [List.length_append, List.length_take, length_leafOf, List.length_singleton]
      omega
    simp only [levelSlots, List.mem_cons, List.not_mem_nil, or_false] at hslot
    rcases hslot with hkept | hleft | hright
    · subst hkept
      split
      · exact Nat.zero_le depth
      · exact hchild true
    · subst hleft
      exact hchild false
    · subst hright
      exact hchild true

/-- A chance equality that would put the bytes of a node's seed into a key that does not hold
this seed: with the seed of a node still to be used, with zeros, or with a public key. -/
def SeedCoincidence (crypto : Crypto) (depth period : Nat) (seed : ByteString) (node : Node) :
    Prop :=
  (∃ other : Node, other.length ≤ depth ∧ ¬ Spent depth period other ∧
      nodeSeed crypto seed other = nodeSeed crypto seed node) ∨
    zeros 32 = nodeSeed crypto seed node ∨
    ∃ other : Node, other.length ≤ depth ∧
      nodePublicKey crypto depth seed other = nodeSeed crypto seed node

theorem coincidence_of_bytes_eq {node : Node} {slot : Slot} (hperiod : period < 2 ^ depth)
    (hslot : slot ∈ keyLayout depth period)
    (heq : slot.bytes crypto depth seed = nodeSeed crypto seed node) :
    SeedCoincidence crypto depth period seed node := by
  cases slot with
  | seed other =>
    exact .inl ⟨other, length_node_le hslot, not_spent_of_mem_keyLayout hperiod hslot, heq⟩
  | wiped => exact .inr (.inl heq)
  | publicKey other => exact .inr (.inr ⟨other, length_node_le hslot, heq⟩)

/-- What a key holds after every number of updates. The array is the list of slots of the period;
no slot is for the seed of a spent node, so that the 32 bytes at a slot's place are such a seed
only by a chance equality; and the key that an update consumed has no data left. -/
theorem spent_seeds_erased {depth period : Nat} {seed : ByteString}
    (hdepth : depth ≤ maxKeyGenDepth) (hseed : seed.length = kesSeedSize)
    (hperiod : period < 2 ^ depth) :
    ∃ sk₀ pubKey sk data, keyGen crypto depth seed = .ok (sk₀, pubKey) ∧
      updates crypto period sk₀ = .ok sk ∧ sk.data = some data ∧
      data = (keyLayout depth period).flatMap (Slot.bytes crypto depth seed) ∧
      (∀ node, Spent depth period node → Slot.seed node ∉ keyLayout depth period ∧
        ∀ i < (keyLayout depth period).length,
          slice data (32 * i) (32 * i + 32) = nodeSeed crypto seed node →
            SeedCoincidence crypto depth period seed node) ∧
      ∀ key evolved after, update crypto (some key) = (.ok evolved, after) →
        ∃ consumed, after = some consumed ∧ consumed.data = none := by
  have hmax : depth ≤ maxDepth := Nat.le_trans hdepth (by decide)
  refine ⟨_, _, _, _, keyGen_eq hdepth hseed, updates_eq hmax hseed hperiod, rfl,
    keyAt_eq_layout depth period seed, ?_, ?_⟩
  · intro node hspent
    refine ⟨fun hmem => not_spent_of_mem_keyLayout hperiod hmem hspent, ?_⟩
    intro i hi hslice
    rw [keyAt_eq_layout, slice_flatMap (length_bytes hseed) (List.getElem?_eq_getElem hi)] at hslice
    exact coincidence_of_bytes_eq hperiod (List.getElem_mem hi) hslice
  · intro key evolved after hupdate
    exact ⟨key.zeroize, spent_of_update hupdate, rfl⟩

/-- A tree of four leaves at its third period: the left half is spent. -/
theorem spent_seeds_erased_third :
    keyLayout 2 2 = [.seed [true, false], .seed [true, true], .publicKey [true, false],
        .publicKey [true, true], .wiped, .publicKey [false], .publicKey [true]] ∧
      Spent 2 2 [false] ∧
      ∃ sk₀ pubKey sk data, keyGen seedCrypto 2 (List.replicate 32 7) = .ok (sk₀, pubKey) ∧
        updates seedCrypto 2 sk₀ = .ok sk ∧ sk.data = some data ∧
        data = (keyLayout 2 2).flatMap (Slot.bytes seedCrypto 2 (List.replicate 32 7)) := by
  refine ⟨by decide, ⟨0, by decide, ⟨[false], rfl⟩⟩, ?_⟩
  rcases @spent_seeds_erased seedCrypto 2 2 (List.replicate 32 7) (by decide)
    List.length_replicate (by decide) with ⟨sk₀, pubKey, sk, data, hgen, hupdates, hdata, hlayout, -⟩
  exact ⟨sk₀, pubKey, sk, data, hgen, hupdates, hdata, hlayout⟩

/-- The seed of 32 zeros: after one update of a tree of two leaves the root is spent, and the wiped
slot still holds the bytes of its seed. -/
theorem zero_seed_not_erased :
    ∃ sk₀ pubKey sk data, keyGen seedCrypto 1 (zeros 32) = .ok (sk₀, pubKey) ∧
      updates seedCrypto 1 sk₀ = .ok sk ∧ sk.data = some data ∧ Spent 1 1 [] ∧
      slice data 32 64 = nodeSeed seedCrypto (zeros 32) [] := by
  refine ⟨_, _, _, _, keyGen_eq (by decide) (length_zeros 32),
    updates_eq (by decide) (length_zeros 32) (by decide), rfl, ?_, ?_⟩
  · exact ⟨0, Nat.one_pos, List.nil_prefix⟩
  · rw [keyAt_eq_layout]
    exact slice_flatMap (length_bytes (length_zeros 32)) (b := Slot.wiped) (i := 1) rfl

end Gouroboros.Kes

import Gouroboros.Lib.RankedChoice
import Gouroboros.Ledger.Common.Types

/-!
# Praos chain selection

`PraosChainSelector` compares chain tips (`consensus/selection.go`). A fork at most `k` blocks
deep is decided by length, then by the lower VRF output; a deeper one by the density over the
genesis window first. The choice keeps a running best, which does not depend on the order of the
candidates: each regime ranks the tips in a linear order, and the comparison follows the rank.

A tip is the record of its methods, a `WindowBlockCounter` one that has `blocksInWindow?`; a
nil tip is `none`. A `float64` is NaN or a value of some linear order `F`, and the float
operations of the projection onto the window are the parameters `FloatOps`. The warning about
the legacy metric is left out.
-/

namespace Gouroboros.Consensus

open Ledger (ByteString)
open RankedChoice

/-- A `float64`, its other values in the order that `<` gives them. -/
inductive Float64 (F : Type) where
  | nan
  | value (x : F)
deriving DecidableEq

/-- What `windowBlocks` does with a positive density. -/
structure FloatOps (F : Type) where
  roundProduct : F → UInt64 → F
  isPosInf : F → Bool
  maxUint64 : F
  toUInt64 : F → UInt64

structure ChainTip (F : Type) where
  slot : UInt64
  blockNumber : UInt64
  vrfOutput : ByteString
  density : UInt64 → Float64 F
  blocksInWindow? : Option (UInt64 → UInt64 → UInt64)

structure PraosChainSelector where
  securityParam : UInt64
  genesisWindowSlots : UInt64
deriving DecidableEq

structure ForkPoint where
  slot : UInt64
  blockNumber : UInt64
deriving DecidableEq

/-- The value of a big-endian byte string, `big.Int.SetBytes`. -/
def bigIntOfBytes (bs : ByteString) : Nat := Nat.ofDigits 256 (bs.reverse.map UInt8.toNat)

variable {F : Type}

def compareUint64 (a b : UInt64) : Int := if b < a then 1 else if a < b then -1 else 0

/-- Only called with results of `legacyDensity`, so never with NaN. -/
def compareFloat64 [LinearOrder F] (a b : F) : Int := if b < a then 1 else if a < b then -1 else 0

/-- NaN is taken for zero. -/
def legacyDensity [Zero F] (tip : ChainTip F) (forkSlot : UInt64) : F :=
  match tip.density forkSlot with
  | .nan => 0
  | .value density => density

namespace PraosChainSelector

variable (p : PraosChainSelector)

/-- The longer chain, then the lower VRF output; a missing output loses. -/
def compare (a b : Option (ChainTip F)) : Int :=
  match a, b with
  | none, none => 0
  | none, some _ => -1
  | some _, none => 1
  | some a, some b =>
    if a.blockNumber ≠ b.blockNumber then
      if b.blockNumber < a.blockNumber then 1 else -1
    else if a.vrfOutput.length = 0 ∧ b.vrfOutput.length = 0 then 0
    else if a.vrfOutput.length = 0 then -1
    else if b.vrfOutput.length = 0 then 1
    else
      let aVRF := bigIntOfBytes a.vrfOutput
      let bVRF := bigIntOfBytes b.vrfOutput
      if aVRF < bVRF then 1 else if bVRF < aVRF then -1 else 0

/-- Adopting a candidate would roll back more than `k` blocks. -/
def isDeepFork (fork : ForkPoint) (tipBlockNumber : UInt64) : Bool :=
  if tipBlockNumber ≤ fork.blockNumber then false
  else decide (p.securityParam < tipBlockNumber - fork.blockNumber)

/-- A nil tip for no candidates. -/
def selectPreferred (candidates : List (Option (ChainTip F)))
    (compare : Option (ChainTip F) → Option (ChainTip F) → Int) : Option (ChainTip F) :=
  match candidates with
  | [] => none
  | first :: rest =>
    rest.foldl (fun preferred candidate =>
      if 0 < compare candidate preferred then candidate else preferred) first

def preferred (candidates : List (Option (ChainTip F))) : Option (ChainTip F) :=
  selectPreferred candidates compare

section density

variable [LinearOrder F] [Zero F] (ops : FloatOps F)

def windowBlocks (tip : ChainTip F) (fork : ForkPoint) : UInt64 :=
  match tip.blocksInWindow? with
  | some blocksInWindow => blocksInWindow fork.slot p.genesisWindowSlots
  | none =>
    let density := legacyDensity tip fork.slot
    if density ≤ 0 then 0
    else
      let projected := ops.roundProduct density p.genesisWindowSlots
      if ops.isPosInf projected ∨ ops.maxUint64 ≤ projected then UInt64.ofNat (2 ^ 64 - 1)
      else ops.toUInt64 projected

def compareDensity (a b : ChainTip F) (fork : ForkPoint) : Int :=
  if 0 < p.genesisWindowSlots then
    compareUint64 (p.windowBlocks ops a fork) (p.windowBlocks ops b fork)
  else compareFloat64 (legacyDensity a fork.slot) (legacyDensity b fork.slot)

/-- Density first for a deep fork only. -/
def compareWithDensity (fork : ForkPoint) (tipBlockNumber : UInt64)
    (a b : Option (ChainTip F)) : Int :=
  match a, b with
  | none, none => 0
  | none, some _ => -1
  | some _, none => 1
  | some a, some b =>
    if !p.isDeepFork fork tipBlockNumber then compare (some a) (some b)
    else
      let result := p.compareDensity ops a b fork
      if result ≠ 0 then result else compare (some a) (some b)

def preferredWithDensity (fork : ForkPoint) (tipBlockNumber : UInt64)
    (candidates : List (Option (ChainTip F))) : Option (ChainTip F) :=
  selectPreferred candidates (p.compareWithDensity ops fork tipBlockNumber)

end density

end PraosChainSelector

/-! ## Ranks -/

/-- A VRF output: none is least, and the lower of two values is the higher rank. -/
def vrfRank (vrfOutput : ByteString) : WithBot ℕᵒᵈ :=
  if vrfOutput.length = 0 then ⊥ else ((OrderDual.toDual (bigIntOfBytes vrfOutput) : ℕᵒᵈ) : WithBot ℕᵒᵈ)

def lengthRank (tip : ChainTip F) : ℕ ×ₗ WithBot ℕᵒᵈ :=
  toLex (tip.blockNumber.toNat, vrfRank tip.vrfOutput)

def tipRank {K : Type} (rank : ChainTip F → K) : Option (ChainTip F) → WithBot K
  | none => ⊥
  | some tip => rank tip

theorem compareUint64_eq (a b : UInt64) : compareUint64 a b = cmpInt a.toNat b.toNat := by
  unfold compareUint64 cmpInt
  simp only [UInt64.lt_iff_toNat_lt]

theorem compare_vrf_eq (a b : ByteString) :
    (if a.length = 0 ∧ b.length = 0 then (0 : Int)
      else if a.length = 0 then -1
      else if b.length = 0 then 1
      else if bigIntOfBytes a < bigIntOfBytes b then 1
      else if bigIntOfBytes b < bigIntOfBytes a then -1 else 0) =
    cmpInt (vrfRank a) (vrfRank b) := by
  unfold vrfRank
  by_cases ha : a.length = 0
  · by_cases hb : b.length = 0
    · rw [if_pos ⟨ha, hb⟩, if_pos ha, if_pos hb, cmpInt_self]
    · rw [if_neg fun h => hb h.2, if_pos ha, if_pos ha, if_neg hb, cmpInt_bot_coe]
  · rw [if_neg fun h => ha h.1, if_neg ha, if_neg ha]
    by_cases hb : b.length = 0
    · rw [if_pos hb, if_pos hb, cmpInt_coe_bot]
    · rw [if_neg hb, if_neg hb, cmpInt_coe, cmpInt_toDual]
      rfl

theorem compare_some_eq (a b : ChainTip F) :
    PraosChainSelector.compare (some a) (some b) = cmpInt (lengthRank a) (lengthRank b) := by
  unfold lengthRank
  rw [cmpInt_toLex, ← compare_vrf_eq]
  unfold PraosChainSelector.compare
  dsimp only
  by_cases hblock : a.blockNumber = b.blockNumber
  · rw [if_neg (not_not.mpr hblock), hblock, cmpInt_self, if_neg (not_not.mpr rfl)]
  · have hne : a.blockNumber.toNat ≠ b.blockNumber.toNat := fun h => hblock (UInt64.toNat_inj.mp h)
    rw [if_pos hblock, if_pos fun h => hne (cmpInt_eq_zero.mp h)]
    rcases Nat.lt_or_gt_of_ne hne with hlt | hgt
    · rw [cmpInt_of_lt hlt, if_neg]
      exact Nat.lt_asymm hlt
    · rw [cmpInt_of_gt hgt, if_pos (UInt64.lt_iff_toNat_lt.mpr hgt)]

section

variable {K : Type} [LinearOrder K]
  {compare : Option (ChainTip F) → Option (ChainTip F) → Int}

structure NilLeast (compare : Option (ChainTip F) → Option (ChainTip F) → Int) : Prop where
  both : compare none none = 0
  left : ∀ b, compare none (some b) = -1
  right : ∀ a, compare (some a) none = 1

theorem NilLeast.eq_cmpInt (h : NilLeast compare) (rank : ChainTip F → K)
    (hsome : ∀ a b, compare (some a) (some b) = cmpInt (rank a) (rank b))
    (a b : Option (ChainTip F)) : compare a b = cmpInt (tipRank rank a) (tipRank rank b) := by
  cases a with
  | none =>
    cases b with
    | none => exact h.both.trans (cmpInt_self _).symm
    | some b => exact (h.left b).trans (cmpInt_bot_coe _).symm
  | some a =>
    cases b with
    | none => exact (h.right a).trans (cmpInt_coe_bot _).symm
    | some b => exact (hsome a b).trans (cmpInt_coe _ _).symm

/-- What makes a selection independent of the order of the candidates: the comparison is a total
preorder with nil least, and the chosen candidate is beaten by none. -/
structure SelectionOrder (compare : Option (ChainTip F) → Option (ChainTip F) → Int)
    (preferred : List (Option (ChainTip F)) → Option (ChainTip F)) : Prop where
  opposite : ∀ a b, compare b a = -compare a b
  trans_pos : ∀ a b c, 0 < compare a b → 0 < compare b c → 0 < compare a c
  trans_eq : ∀ a b c, compare a b = 0 → compare b c = 0 → compare a c = 0
  trans_nonneg : ∀ a b c, 0 ≤ compare a b → 0 ≤ compare b c → 0 ≤ compare a c
  nil_least : ∀ a, 0 < compare (some a) none
  mem : ∀ candidates, candidates ≠ [] → preferred candidates ∈ candidates
  unbeaten : ∀ candidates, ∀ c ∈ candidates, compare c (preferred candidates) ≤ 0
  perm : ∀ candidates candidates', candidates.Perm candidates' →
    compare (preferred candidates) (preferred candidates') = 0

section

variable {rank : Option (ChainTip F) → K} (h : ∀ a b, compare a b = cmpInt (rank a) (rank b))
include h

theorem selectPreferred_best {candidates : List (Option (ChainTip F))} (hne : candidates ≠ []) :
    PraosChainSelector.selectPreferred candidates compare ∈ candidates ∧
      ∀ c ∈ candidates, rank c ≤ rank (PraosChainSelector.selectPreferred candidates compare) := by
  cases candidates with
  | nil => exact absurd rfl hne
  | cons first rest => exact foldl_keepBest h first rest

theorem selectionOrder_of_rank (hnil : NilLeast compare) :
    SelectionOrder compare fun candidates =>
      PraosChainSelector.selectPreferred candidates compare := by
  refine ⟨fun a b => ?_, fun a b c => ?_, fun a b c => ?_, fun a b c => ?_, fun a => ?_,
    fun candidates hne => (selectPreferred_best h hne).1, fun candidates c hc => ?_,
    fun candidates candidates' hperm => ?_⟩
  · rw [h, h, cmpInt_swap]
  · simp only [h, cmpInt_pos]
    exact fun hab hbc => lt_trans hbc hab
  · simp only [h, cmpInt_eq_zero]
    exact Eq.trans
  · simp only [h, cmpInt_nonneg]
    exact fun hab hbc => le_trans hbc hab
  · rw [hnil.right a]
    decide
  · have hbest := (selectPreferred_best h (List.ne_nil_of_mem hc)).2 c hc
    rw [← not_lt, h, cmpInt_pos, not_lt]
    exact hbest
  · cases candidates with
    | nil =>
      rw [← hperm.nil_eq]
      exact hnil.both
    | cons first rest =>
      have hne' : candidates' ≠ [] := fun hnil => by
        rw [hnil] at hperm
        cases hperm.eq_nil
      obtain ⟨hmem, hbest⟩ := selectPreferred_best h (List.cons_ne_nil first rest)
      obtain ⟨hmem', hbest'⟩ := selectPreferred_best h hne'
      rw [h, cmpInt_eq_zero]
      exact le_antisymm (hbest' _ (hperm.mem_iff.mp hmem)) (hbest _ (hperm.mem_iff.mpr hmem'))

end

end

/-! ## The two comparisons -/

theorem selectionOrder_compare :
    SelectionOrder (F := F) PraosChainSelector.compare PraosChainSelector.preferred := by
  have hnil : NilLeast (F := F) PraosChainSelector.compare := ⟨rfl, fun _ => rfl, fun _ => rfl⟩
  exact selectionOrder_of_rank (hnil.eq_cmpInt lengthRank compare_some_eq) hnil

section

variable [LinearOrder F] [Zero F]

/-- Density first: a lexicographic rank over the same scale for all tips. -/
theorem selectionOrder_compareWithDensity (p : PraosChainSelector) (ops : FloatOps F)
    (fork : ForkPoint) (tipBlockNumber : UInt64) :
    SelectionOrder (p.compareWithDensity ops fork tipBlockNumber)
      (p.preferredWithDensity ops fork tipBlockNumber) := by
  have hnil : NilLeast (p.compareWithDensity ops fork tipBlockNumber) :=
    ⟨rfl, fun _ => rfl, fun _ => rfl⟩
  cases hdeep : p.isDeepFork fork tipBlockNumber with
  | false =>
    refine selectionOrder_of_rank (hnil.eq_cmpInt lengthRank fun a b => ?_) hnil
    rw [← compare_some_eq]
    unfold PraosChainSelector.compareWithDensity
    rw [hdeep]
    rfl
  | true =>
    have hdensity : ∀ a b, p.compareWithDensity ops fork tipBlockNumber (some a) (some b) =
        if p.compareDensity ops a b fork ≠ 0 then p.compareDensity ops a b fork
        else cmpInt (lengthRank a) (lengthRank b) := by
      intro a b
      rw [← compare_some_eq]
      unfold PraosChainSelector.compareWithDensity
      rw [hdeep]
      rfl
    -- The selector's window decides the scale, for every pair the same.
    by_cases hwindow : 0 < p.genesisWindowSlots
    · refine selectionOrder_of_rank (hnil.eq_cmpInt
        (fun tip => toLex ((p.windowBlocks ops tip fork).toNat, lengthRank tip)) fun a b => ?_) hnil
      rw [hdensity, cmpInt_toLex]
      unfold PraosChainSelector.compareDensity
      rw [if_pos hwindow, compareUint64_eq]
    · refine selectionOrder_of_rank (hnil.eq_cmpInt
        (fun tip => toLex (legacyDensity tip fork.slot, lengthRank tip)) fun a b => ?_) hnil
      rw [hdensity, cmpInt_toLex]
      unfold PraosChainSelector.compareDensity
      rw [if_neg hwindow]
      rfl

/-- Selection does not depend on the order in which candidates arrive, with density and
without: for every selector, fork and tip the comparison is a total preorder in which nil is
least, and every order of the candidates gives an unbeaten candidate of the same rank. -/
theorem chain_selection_order (p : PraosChainSelector) (ops : FloatOps F) (fork : ForkPoint)
    (tipBlockNumber : UInt64) :
    SelectionOrder (p.compareWithDensity ops fork tipBlockNumber)
        (p.preferredWithDensity ops fork tipBlockNumber) ∧
      SelectionOrder (F := F) PraosChainSelector.compare PraosChainSelector.preferred :=
  ⟨selectionOrder_compareWithDensity p ops fork tipBlockNumber, selectionOrder_compare⟩

end

end Gouroboros.Consensus

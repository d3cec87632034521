import Mathlib.Algebra.BigOperators.Ring.Finset
import Gouroboros.Lib.ExceptFold
import Gouroboros.Lib.LargestRemainder
import Gouroboros.Ledger.Common.Rewards

/-!
# The split of the reward pot

`apportionRewardPot` is largest-remainder rounding of the pools' exact parts
(`lookup_apportionRewardPot`): when the shares are not negative and sum to the
total share, the clamps of its first loop never apply (`Assigned.step`) and its
second loop hands out every lovelace left over.
-/

namespace Gouroboros.Ledger.Rewards

open LargestRemainder

variable {pot : UInt64} {shares : GoMap PoolKeyHash ℚ} {total : ℚ}

/-- Shares that are not negative and sum to a positive total. A Go map has fewer
than `2 ^ 63` entries, its length being an `int`. -/
structure ProperShares (shares : GoMap PoolKeyHash ℚ) (total : ℚ) : Prop where
  nonneg : ∀ pool share, shares.lookup pool = some share → 0 ≤ share
  sum_eq : shares.values.sum = total
  pos : 0 < total
  length_lt : shares.keys.length < 2 ^ 63

def exactPart (pot : UInt64) (shares : GoMap PoolKeyHash ℚ) (total : ℚ) (pool : PoolKeyHash) : ℚ :=
  pot.toNat * (shares.lookup pool).getD 0 / total

section

variable (h : ProperShares shares total)
include h

theorem ProperShares.share_nonneg (pool : PoolKeyHash) : 0 ≤ (shares.lookup pool).getD 0 := by
  cases hl : shares.lookup pool with
  | none => exact le_refl _
  | some share => exact h.nonneg pool share hl

theorem ProperShares.exactPart_nonneg (pot : UInt64) (pool : PoolKeyHash) :
    0 ≤ exactPart pot shares total pool :=
  div_nonneg (mul_nonneg (Nat.cast_nonneg _) (h.share_nonneg pool)) h.pos.le

theorem ProperShares.exactReward_eq :
    exactReward pot shares total = exactPart pot shares total := by
  funext pool
  have heq : (shares.lookup pool).getD 0 / total * pot.toNat = exactPart pot shares total pool := by
    rw [exactPart]
    ring
  have hnot : ¬ exactPart pot shares total pool < 0 := not_lt.mpr (h.exactPart_nonneg pot pool)
  rw [exactReward, heq]
  exact if_neg hnot

end

theorem perm_sortedPoolIDs {V : Type} (m : GoMap PoolKeyHash V) : (sortedPoolIDs m).Perm m.keys :=
  List.perm_insertionSort _ _

theorem nodup_sortedPoolIDs {V : Type} (m : GoMap PoolKeyHash V) : (sortedPoolIDs m).Nodup :=
  (perm_sortedPoolIDs m).nodup_iff.mpr m.keys_nodup

theorem ProperShares.sum_exactPart (h : ProperShares shares total) (pot : UInt64) :
    ((sortedPoolIDs shares).map (exactPart pot shares total)).sum = ((pot.toNat : ℤ) : ℚ) := by
  have hsum : ((sortedPoolIDs shares).map fun pool => (shares.lookup pool).getD 0).sum = total := by
    have hvalues := GoMap.sum_values_eq shares id (perm_sortedPoolIDs shares)
    simp only [List.map_id, Option.map_id, id_eq] at hvalues
    rw [← hvalues, h.sum_eq]
  have hparts : (sortedPoolIDs shares).map (exactPart pot shares total) =
      ((sortedPoolIDs shares).map fun pool => (shares.lookup pool).getD 0).map
        fun share => (pot.toNat / total) * share := by
    rw [List.map_map]
    apply List.map_congr_left
    intro pool _
    rw [Function.comp_apply, exactPart]
    ring
  rw [hparts, List.sum_map_mul_left, List.map_id', hsum, div_mul_cancel₀ _ h.pos.ne']
  simp

/-! ## The first loop -/

/-- The pools visited so far hold the floors of their exact parts. -/
structure Assigned (exact : PoolKeyHash → ℚ) (visited : List PoolKeyHash) (acc : Apportionment) :
    Prop where
  amounts : ∀ pool, acc.amounts.lookup pool =
    if pool ∈ visited then some (bigUint64 ⌊exact pool⌋) else none
  remainders : ∀ pool, acc.remainders.lookup pool =
    if pool ∈ visited then some (Int.fract (exact pool)) else none
  assigned : acc.assigned = (visited.map fun pool => ⌊exact pool⌋).sum

theorem tdiv_num_den {x : ℚ} (hx : 0 ≤ x) : x.num.tdiv x.den = ⌊x⌋ := by
  rw [Int.tdiv_eq_ediv_of_nonneg (Rat.num_nonneg.mpr hx), Rat.floor_def']

variable {visited rest : List PoolKeyHash} {pool : PoolKeyHash}

theorem Assigned.step {acc : Apportionment} (hshares : ProperShares shares total)
    (h : Assigned (exactPart pot shares total) visited acc)
    (hids : sortedPoolIDs shares = visited ++ pool :: rest) :
    Assigned (exactPart pot shares total) (visited ++ [pool])
      (assignFloor pot shares total acc pool) := by
  have hnonneg := hshares.exactPart_nonneg pot pool
  have hfloor : 0 ≤ ⌊exactPart pot shares total pool⌋ := Int.floor_nonneg.mpr hnonneg
  have hle := floor_le_remaining (fun k _ => hshares.exactPart_nonneg pot k)
    (hshares.sum_exactPart pot) hids
  rw [← h.assigned] at hle
  have hclamp : (if (pot.toNat : ℤ) - acc.assigned ≤ 0 then 0
      else if (pot.toNat : ℤ) - acc.assigned < ⌊exactPart pot shares total pool⌋ then
        (pot.toNat : ℤ) - acc.assigned
      else ⌊exactPart pot shares total pool⌋) = ⌊exactPart pot shares total pool⌋ := by
    split
    · omega
    · exact if_neg (not_lt.mpr hle)
  have hstep : assignFloor pot shares total acc pool =
      { amounts := acc.amounts.insert pool (bigUint64 ⌊exactPart pot shares total pool⌋)
        remainders := acc.remainders.insert pool (Int.fract (exactPart pot shares total pool))
        assigned := acc.assigned + ⌊exactPart pot shares total pool⌋ } := by
    unfold assignFloor
    rw [hshares.exactReward_eq]
    dsimp only
    rw [tdiv_num_den hnonneg, hclamp]
    rfl
  rw [hstep]
  refine ⟨fun k => ?_, fun k => ?_, ?_⟩
  · rw [GoMap.lookup_insert_ite, h.amounts]
    by_cases hk : k = pool
    · simp [hk]
    · simp [hk]
  · rw [GoMap.lookup_insert_ite, h.remainders]
    by_cases hk : k = pool
    · simp [hk]
    · simp [hk]
  · rw [h.assigned]
    simp

/-! ## The second loop -/

theorem lookup_addOnes {extra : List PoolKeyHash} (hnodup : extra.Nodup)
    (amounts : GoMap PoolKeyHash UInt64) (pool : PoolKeyHash) :
    (extra.foldl addOne amounts).lookup pool =
      if pool ∈ extra then some ((amounts.lookup pool).getD 0 + 1) else amounts.lookup pool := by
  induction extra generalizing amounts with
  | nil => simp
  | cons first extra ih =>
    obtain ⟨hfirst, hnodup⟩ := List.nodup_cons.mp hnodup
    rw [List.foldl_cons, ih hnodup, addOne, GoMap.lookup_insert_ite]
    by_cases hpool : pool = first
    · subst hpool
      simp [hfirst]
    · simp [hpool]

theorem perm_remainderOrder (remainders : GoMap PoolKeyHash ℚ) (ids : List PoolKeyHash) :
    (remainderOrder remainders ids).Perm ids :=
  List.perm_insertionSort _ _

theorem pairwise_remainderOrder (remainders : GoMap PoolKeyHash ℚ) (ids : List PoolKeyHash) :
    (remainderOrder remainders ids).Pairwise fun a b =>
      (remainders.lookup b).getD 0 ≤ (remainders.lookup a).getD 0 := by
  let remainder := fun pool => (remainders.lookup pool).getD 0
  let before : PoolKeyHash → PoolKeyHash → Prop := fun a b =>
    remainder b < remainder a ∨ remainder a = remainder b ∧ a.toNat ≤ b.toNat
  have htotal : Std.Total before := by
    refine ⟨fun a b => ?_⟩
    rcases lt_trichotomy (remainder a) (remainder b) with hlt | heq | hgt
    · exact .inr (.inl hlt)
    · rcases le_total a.toNat b.toNat with hle | hle
      · exact .inl (.inr ⟨heq, hle⟩)
      · exact .inr (.inr ⟨heq.symm, hle⟩)
    · exact .inl (.inl hgt)
  have htrans : IsTrans PoolKeyHash before := by
    refine ⟨fun a b c hab hbc => ?_⟩
    rcases hab with hab | ⟨hab, hle⟩
    · rcases hbc with hbc | ⟨hbc, _⟩
      · exact .inl (hbc.trans hab)
      · exact .inl (hbc ▸ hab)
    · rcases hbc with hbc | ⟨hbc, hle'⟩
      · exact .inl (hab ▸ hbc)
      · exact .inr ⟨hab.trans hbc, hle.trans hle'⟩
  have hsorted : (remainderOrder remainders ids).Pairwise before :=
    List.pairwise_insertionSort before ids
  refine hsorted.imp fun {a b} hab => ?_
  rcases hab with hlt | ⟨heq, _⟩
  · exact hlt.le
  · exact heq.ge

def floorsOf (pot : UInt64) (shares : GoMap PoolKeyHash ℚ) (total : ℚ) : Apportionment :=
  (sortedPoolIDs shares).foldl (assignFloor pot shares total) {}

def handOutOrder (pot : UInt64) (shares : GoMap PoolKeyHash ℚ) (total : ℚ) : List PoolKeyHash :=
  remainderOrder (floorsOf pot shares total).remainders (sortedPoolIDs shares)

theorem ProperShares.assigned (h : ProperShares shares total) (pot : UInt64) :
    Assigned (exactPart pot shares total) (sortedPoolIDs shares) (floorsOf pot shares total) := by
  have hempty : Assigned (exactPart pot shares total) [] {} :=
    ⟨fun pool => by simp, fun pool => by simp, rfl⟩
  refine ExceptFold.foldl_visited (fun visited pool acc hvisited hacc => ?_) hempty
  rcases hvisited with ⟨rest, hids⟩
  rw [List.append_assoc] at hids
  exact hacc.step h hids.symm

theorem perm_handOutOrder : (handOutOrder pot shares total).Perm shares.keys :=
  (perm_remainderOrder _ _).trans (perm_sortedPoolIDs shares)

theorem ProperShares.pairwise_handOutOrder (h : ProperShares shares total) :
    (handOutOrder pot shares total).Pairwise fun a b =>
      Int.fract (exactPart pot shares total b) ≤ Int.fract (exactPart pot shares total a) := by
  have hsorted := pairwise_remainderOrder (floorsOf pot shares total).remainders
    (sortedPoolIDs shares)
  refine hsorted.imp_of_mem fun {a b} ha hb hab => ?_
  have hmem : ∀ pool ∈ handOutOrder pot shares total, pool ∈ sortedPoolIDs shares := fun pool hp =>
    (perm_remainderOrder _ _).mem_iff.mp hp
  rw [(h.assigned pot).remainders, (h.assigned pot).remainders, if_pos (hmem a ha),
    if_pos (hmem b hb)] at hab
  exact hab

def bumped (pot : UInt64) (shares : GoMap PoolKeyHash ℚ) (total : ℚ) : List PoolKeyHash :=
  (handOutOrder pot shares total).take
    (unitsLeft (exactPart pot shares total) (sortedPoolIDs shares) pot.toNat).toNat

theorem apportionRewardPot_unfold (pot : UInt64) (shares : GoMap PoolKeyHash ℚ) (total : ℚ) :
    apportionRewardPot pot shares total =
      if (pot.toNat : ℤ) - (floorsOf pot shares total).assigned ≤ 0 then
        (floorsOf pot shares total).amounts
      else
        ((handOutOrder pot shares total).take
          (min (bigInt64 (pot.toNat - (floorsOf pot shares total).assigned))
            (sortedPoolIDs shares).length).toNat).foldl addOne
          (floorsOf pot shares total).amounts :=
  rfl

theorem ProperShares.apportionRewardPot_eq (h : ProperShares shares total) (pot : UInt64) :
    apportionRewardPot pot shares total =
      (bumped pot shares total).foldl addOne (floorsOf pot shares total).amounts := by
  have hleft : (pot.toNat : ℤ) - (floorsOf pot shares total).assigned =
      unitsLeft (exactPart pot shares total) (sortedPoolIDs shares) pot.toNat := by
    rw [(h.assigned pot).assigned]
    rfl
  have hnonneg := unitsLeft_nonneg (h.sum_exactPart pot)
  have hle := unitsLeft_le_length (h.sum_exactPart pot)
  have hlen : (sortedPoolIDs shares).length < 2 ^ 63 := by
    rw [(perm_sortedPoolIDs shares).length_eq]
    exact h.length_lt
  rw [apportionRewardPot_unfold, hleft, bumped]
  generalize unitsLeft (exactPart pot shares total) (sortedPoolIDs shares) pot.toNat =
    units at *
  split
  · have hzero : units = 0 := by omega
    rw [hzero]
    rfl
  · -- fewer than 2 ^ 63 lovelace are left, so reading them as an int64 is exact
    have hint : bigInt64 units = units := by
      exact Int.bmod_eq_of_le (by omega) (by omega)
    rw [hint, min_eq_left hle]

theorem rounded_le_pot (h : ProperShares shares total) (pot : UInt64)
    (hpool : pool ∈ sortedPoolIDs shares) :
    rounded (exactPart pot shares total) (bumped pot shares total) pool ≤ pot.toNat := by
  have hsum := sum_rounded (nodup_sortedPoolIDs shares) (perm_remainderOrder
    (floorsOf pot shares total).remainders (sortedPoolIDs shares)) (h.sum_exactPart pot)
  have hmem : rounded (exactPart pot shares total) (bumped pot shares total) pool ∈
      (sortedPoolIDs shares).map (rounded (exactPart pot shares total) (bumped pot shares total)) :=
    List.mem_map_of_mem hpool
  have hle := List.single_le_sum (fun n hn => ?_) _ hmem
  · exact hle.trans_eq hsum
  · obtain ⟨k, _, rfl⟩ := List.mem_map.mp hn
    have hfloor : 0 ≤ ⌊exactPart pot shares total k⌋ :=
      Int.floor_nonneg.mpr (h.exactPart_nonneg pot k)
    unfold rounded
    split <;> omega

/-! ## The amounts -/

theorem toNat_bigUint64 {n : ℤ} (hnonneg : 0 ≤ n) (hlt : n < 2 ^ 64) :
    ((bigUint64 n).toNat : ℤ) = n := by
  unfold bigUint64
  rw [UInt64.toNat_ofNat_of_lt' (by rw [UInt64.size]; omega)]
  omega

section

variable (h : ProperShares shares total)
include h

theorem ProperShares.lookup_apportion (pot : UInt64) (hpool : pool ∈ shares.keys) :
    ∃ amount, (apportionRewardPot pot shares total).lookup pool = some amount ∧
      (amount.toNat : ℤ) = rounded (exactPart pot shares total) (bumped pot shares total) pool := by
  have hmem : pool ∈ sortedPoolIDs shares := (perm_sortedPoolIDs shares).mem_iff.mpr hpool
  have hle := rounded_le_pot h pot hmem
  have hpot : pot.toNat < 2 ^ 64 := pot.toNat_lt
  have hfloor : 0 ≤ ⌊exactPart pot shares total pool⌋ :=
    Int.floor_nonneg.mpr (h.exactPart_nonneg pot pool)
  have hbumped : (bumped pot shares total).Nodup :=
    (perm_handOutOrder.nodup_iff.mpr shares.keys_nodup).sublist (List.take_sublist _ _)
  rw [h.apportionRewardPot_eq, lookup_addOnes hbumped, (h.assigned pot).amounts, if_pos hmem]
  unfold rounded at hle ⊢
  split at hle
  · rename_i hin
    rw [if_pos hin, if_pos hin]
    refine ⟨_, rfl, ?_⟩
    have hbase := toNat_bigUint64 hfloor (by omega)
    rw [Option.getD_some, UInt64.toNat_add, UInt64.toNat_one, Nat.mod_eq_of_lt (by omega)]
    omega
  · rename_i hout
    rw [if_neg hout, if_neg hout]
    refine ⟨_, rfl, ?_⟩
    rw [toNat_bigUint64 hfloor (by omega), add_zero]

theorem ProperShares.lookup_apportion_of_notMem (pot : UInt64)
    (hpool : pool ∉ shares.keys) : (apportionRewardPot pot shares total).lookup pool = none := by
  have hsorted : pool ∉ sortedPoolIDs shares := fun hmem =>
    hpool ((perm_sortedPoolIDs shares).mem_iff.mp hmem)
  have hbumped : pool ∉ bumped pot shares total := fun hmem =>
    hpool (perm_handOutOrder.mem_iff.mp (List.mem_of_mem_take hmem))
  have hnodup : (bumped pot shares total).Nodup :=
    (perm_handOutOrder.nodup_iff.mpr shares.keys_nodup).sublist (List.take_sublist _ _)
  rw [h.apportionRewardPot_eq, lookup_addOnes hnodup, if_neg hbumped, (h.assigned pot).amounts,
    if_neg hsorted]

theorem ProperShares.perm_keys_apportion (pot : UInt64) :
    (apportionRewardPot pot shares total).keys.Perm shares.keys := by
  rw [List.perm_ext_iff_of_nodup (apportionRewardPot pot shares total).keys_nodup
    shares.keys_nodup]
  intro pool
  rw [GoMap.mem_keys_iff]
  constructor
  · rintro ⟨amount, hamount⟩
    by_contra hpool
    rw [h.lookup_apportion_of_notMem pot hpool] at hamount
    cases hamount
  · intro hpool
    obtain ⟨amount, hamount, _⟩ := h.lookup_apportion pot hpool
    exact ⟨amount, hamount⟩

theorem ProperShares.sum_apportion (pot : UInt64) :
    ((apportionRewardPot pot shares total).values.map UInt64.toNat).sum = pot.toNat := by
  have hperm : (sortedPoolIDs shares).Perm (apportionRewardPot pot shares total).keys :=
    (perm_sortedPoolIDs shares).trans (h.perm_keys_apportion pot).symm
  have hvalues := GoMap.sum_values_eq (apportionRewardPot pot shares total)
    (fun amount => (amount.toNat : ℤ)) hperm
  have hrounded := sum_rounded (nodup_sortedPoolIDs shares) (perm_remainderOrder
    (floorsOf pot shares total).remainders (sortedPoolIDs shares)) (h.sum_exactPart pot)
  have hpools : (sortedPoolIDs shares).map (fun pool =>
      (((apportionRewardPot pot shares total).lookup pool).map
        fun amount => (amount.toNat : ℤ)).getD 0) = (sortedPoolIDs shares).map
        (rounded (exactPart pot shares total) (bumped pot shares total)) := by
    apply List.map_congr_left
    intro pool hpool
    obtain ⟨amount, hamount, heq⟩ :=
      h.lookup_apportion pot ((perm_sortedPoolIDs shares).mem_iff.mp hpool)
    rw [hamount]
    exact heq
  rw [hpools] at hvalues
  have hcast : ((((apportionRewardPot pot shares total).values.map UInt64.toNat).sum : ℕ) : ℤ) =
      ((apportionRewardPot pot shares total).values.map fun amount => (amount.toNat : ℤ)).sum := by
    rw [Nat.cast_list_sum, List.map_map]
    rfl
  have hsum := hcast.trans (hvalues.trans hrounded)
  exact_mod_cast hsum

end

/-- Largest-remainder rounding of a pot over shares: every pool with a share
gets the floor of its exact part or one more, the amounts sum to the pot, the
lovelace left over are handed out along `order`, larger fractional remainders
first, so that none goes to a pool while one with a larger remainder goes
without. -/
structure IsLargestRemainderSplit (pot : UInt64) (shares : GoMap PoolKeyHash ℚ) (total : ℚ)
    (order : List PoolKeyHash) (amounts : GoMap PoolKeyHash UInt64) : Prop where
  pools : amounts.keys.Perm shares.keys
  floor_or_succ : ∀ pool amount, amounts.lookup pool = some amount →
    (amount.toNat : ℤ) = ⌊exactPart pot shares total pool⌋ ∨
      (amount.toNat : ℤ) = ⌊exactPart pot shares total pool⌋ + 1
  sum_eq : (amounts.values.map UInt64.toNat).sum = pot.toNat
  order_perm : order.Perm shares.keys
  order_desc : order.Pairwise fun a b =>
    Int.fract (exactPart pot shares total b) ≤ Int.fract (exactPart pot shares total a)
  larger_first : ∀ a b amountA amountB, amounts.lookup a = some amountA →
    amounts.lookup b = some amountB →
    Int.fract (exactPart pot shares total b) < Int.fract (exactPart pot shares total a) →
    (amountB.toNat : ℤ) = ⌊exactPart pot shares total b⌋ + 1 →
    (amountA.toNat : ℤ) = ⌊exactPart pot shares total a⌋ + 1

theorem ProperShares.isLargestRemainderSplit (h : ProperShares shares total) (pot : UInt64) :
    IsLargestRemainderSplit pot shares total (handOutOrder pot shares total)
      (apportionRewardPot pot shares total) := by
  -- what a recorded amount says about its pool
  have hamount : ∀ pool amount, (apportionRewardPot pot shares total).lookup pool = some amount →
      pool ∈ shares.keys ∧ (amount.toNat : ℤ) =
        rounded (exactPart pot shares total) (bumped pot shares total) pool := by
    intro pool amount hlookup
    have hpool : pool ∈ shares.keys :=
      (h.perm_keys_apportion pot).mem_iff.mp (GoMap.mem_keys_iff.mpr ⟨amount, hlookup⟩)
    obtain ⟨amount', hlookup', heq⟩ := h.lookup_apportion pot hpool
    rw [hlookup] at hlookup'
    cases hlookup'
    exact ⟨hpool, heq⟩
  refine ⟨h.perm_keys_apportion pot, ?_, h.sum_apportion pot, perm_handOutOrder,
    h.pairwise_handOutOrder, ?_⟩
  · intro pool amount hlookup
    rw [(hamount pool amount hlookup).2, rounded]
    split
    · exact .inr rfl
    · exact .inl (add_zero _)
  · intro a b amountA amountB ha hb hlt hextra
    obtain ⟨hpoolA, hA⟩ := hamount a amountA ha
    rw [(hamount b amountB hb).2, rounded] at hextra
    have hbumpedB : b ∈ bumped pot shares total := by
      by_contra hout
      rw [if_neg hout] at hextra
      omega
    have hbumpedA : a ∈ bumped pot shares total :=
      mem_take_of_fract_lt h.pairwise_handOutOrder (perm_handOutOrder.mem_iff.mpr hpoolA) hbumpedB
        hlt
    rw [hA, rounded, if_pos hbumpedA]

end Gouroboros.Ledger.Rewards

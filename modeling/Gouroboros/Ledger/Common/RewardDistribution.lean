import Mathlib.Tactic.Positivity
import Gouroboros.Ledger.Common.RewardApportion

/-!
# Reward distribution is exact

What `calculateRewards` pays out and what it leaves in the pot add up to the pot it
started from (`rewards_exact`). The shares it splits the pot by are proper
(`properShares_of_pass`, `properShares_equalShares`); inside a pool, the delegators'
floors stay within the stakeholders' part, because the stakes are parts of the
pool's stake (`Split.step`), and the operator gets the rest.
-/

namespace Gouroboros.Ledger.Rewards

open ExceptFold

/-! ## Inside a pool -/

theorem toNat_sumStake {stakes : List UInt64} (h : (stakes.map UInt64.toNat).sum < 2 ^ 64) :
    (sumStake stakes).toNat = (stakes.map UInt64.toNat).sum := by
  have hgen : ∀ (l : List UInt64) (acc : UInt64), acc.toNat + (l.map UInt64.toNat).sum < 2 ^ 64 →
      (l.foldl (· + ·) acc).toNat = acc.toNat + (l.map UInt64.toNat).sum := by
    intro l
    induction l with
    | nil => simp
    | cons x l ih =>
      intro acc hacc
      rw [List.map_cons, List.sum_cons] at hacc ⊢
      have hadd : (acc + x).toNat = acc.toNat + x.toNat := by
        rw [UInt64.toNat_add, Nat.mod_eq_of_lt (by omega)]
      rw [List.foldl_cons, ih _ (by omega), hadd]
      omega
  have hzero := hgen stakes 0 (by simpa using h)
  simpa [sumStake] using hzero

theorem toNat_ratFloorUint64 {value : ℚ} (hpos : 0 < value) (hlt : value < 2 ^ 64) :
    ((ratFloorUint64 value).toNat : ℤ) = ⌊value⌋ := by
  have hfloor : 0 ≤ ⌊value⌋ := Int.floor_nonneg.mpr hpos.le
  have hfloorlt : ⌊value⌋ < 2 ^ 64 := by
    rw [Int.floor_lt]
    exact_mod_cast hlt
  have hfits : uint64? ⌊value⌋ = some (UInt64.ofNat ⌊value⌋.toNat) := by
    rw [uint64?, if_pos ⟨hfloor, hfloorlt⟩]
  unfold ratFloorUint64
  rw [if_neg (not_le.mpr hpos), tdiv_num_den hpos.le, hfits]
  exact toNat_of_uint64? hfits

variable {totalPoolRewards pot total : UInt64}

theorem operatorRewardsOf_le {poolCost : UInt64} (hcost : poolCost < totalPoolRewards)
    (ownerStake totalPoolStake : UInt64) (margin : ℚ) :
    operatorRewardsOf totalPoolRewards poolCost ownerStake totalPoolStake margin ≤
      totalPoolRewards := by
  have hsub : (totalPoolRewards - poolCost).toNat = totalPoolRewards.toNat - poolCost.toNat :=
    UInt64.toNat_sub_of_le _ _ (UInt64.le_of_lt hcost)
  have htotal : totalPoolRewards.toNat < 2 ^ 64 := totalPoolRewards.toNat_lt
  unfold operatorRewardsOf
  split
  · dsimp only
    generalize hv : ((totalPoolRewards - poolCost).toNat : ℚ) *
      ((1 - margin) * (ownerStake.toNat / totalPoolStake.toNat) + margin) = variableRewards
    split
    · exact UInt64.le_refl _
    · rename_i hlt
      rw [not_le] at hlt
      split
      · rename_i hpos
        -- the floor of less than what is above the cost
        have hbound : variableRewards < 2 ^ 64 := by
          have hnat : ((totalPoolRewards - poolCost).toNat : ℚ) < 2 ^ 64 := by
            exact_mod_cast (totalPoolRewards - poolCost).toNat_lt
          exact hlt.trans hnat
        have hfloor := toNat_ratFloorUint64 hpos hbound
        have hfloorlt : ⌊variableRewards⌋ < ((totalPoolRewards - poolCost).toNat : ℤ) := by
          rw [Int.floor_lt]
          exact_mod_cast hlt
        rw [UInt64.le_iff_toNat_le, UInt64.toNat_add, Nat.mod_eq_of_lt (by omega)]
        omega
      · exact (UInt64.le_of_lt hcost)
  · exact UInt64.le_refl _

/-- The rewards of the delegators visited so far: what was assigned is what the
map holds, and it is within the visited stakes' part of the pot. -/
structure Split (pot total : UInt64) (visited : List (AddrKeyHash × UInt64))
    (acc : DelegatorSplit) : Prop where
  keys : ∀ key, acc.delegatorRewards.lookup (keyRewardCredential key) ≠ none →
    key ∈ visited.map Prod.fst
  sum_eq : (acc.delegatorRewards.values.map UInt64.toNat).sum = acc.assigned.toNat
  bound : acc.assigned.toNat * total.toNat ≤ (visited.map fun e => e.2.toNat).sum * pot.toNat

variable {snapshot : RewardSnapshot}

theorem Split.step {visited : List (AddrKeyHash × UInt64)} {acc : DelegatorSplit}
    {e : AddrKeyHash × UInt64} (h : Split pot total visited acc) (htotal : 0 < total.toNat)
    (hnew : e.1 ∉ visited.map Prod.fst)
    (hstake : (visited.map fun e => e.2.toNat).sum + e.2.toNat ≤ total.toNat) :
    Split pot total (visited ++ [e]) (rewardDelegator snapshot pot total acc e) := by
  have hpot : pot.toNat < 2 ^ 64 := pot.toNat_lt
  unfold rewardDelegator
  split
  · -- a registered key: its floor fits, and so does the sum
    have hquot : e.2.toNat * pot.toNat / total.toNat * total.toNat ≤ e.2.toNat * pot.toNat :=
      Nat.div_mul_le_self _ _
    generalize hreward : e.2.toNat * pot.toNat / total.toNat = reward at hquot ⊢
    have hboth : (acc.assigned.toNat + reward) * total.toNat ≤
        ((visited.map fun e => e.2.toNat).sum + e.2.toNat) * pot.toNat := by
      have := h.bound
      rw [add_mul, add_mul]
      omega
    have hle : acc.assigned.toNat + reward ≤ pot.toNat := by
      have hmul : ((visited.map fun e => e.2.toNat).sum + e.2.toNat) * pot.toNat ≤
          total.toNat * pot.toNat := Nat.mul_le_mul_right _ hstake
      have hcomm : (acc.assigned.toNat + reward) * total.toNat ≤ pot.toNat * total.toNat := by
        rw [mul_comm pot.toNat]
        exact hboth.trans hmul
      exact Nat.le_of_mul_le_mul_right hcomm htotal
    have hfits : (UInt64.ofNat reward).toNat = reward :=
      UInt64.toNat_ofNat_of_lt' (by rw [UInt64.size]; omega)
    have hsum : (acc.assigned + UInt64.ofNat reward).toNat = acc.assigned.toNat + reward := by
      rw [UInt64.toNat_add, hfits, Nat.mod_eq_of_lt (by omega)]
    have hfresh : acc.delegatorRewards.lookup (keyRewardCredential e.1) = none := by
      by_contra hsome
      exact hnew (h.keys e.1 hsome)
    refine ⟨?_, ?_, ?_⟩
    · intro key hkey
      rw [GoMap.lookup_insert_ite] at hkey
      rw [List.map_append, List.mem_append]
      by_cases heq : keyRewardCredential key = keyRewardCredential e.1
      · injection heq with _ heq
        exact .inr (by simp [heq])
      · rw [if_neg heq] at hkey
        exact .inl (h.keys key hkey)
    · rw [GoMap.sum_values_insert_new hfresh, h.sum_eq, hsum, hfits, add_comm]
    · rw [hsum, List.map_append, List.sum_append]
      simpa using hboth
  · refine ⟨fun key hkey => ?_, h.sum_eq, ?_⟩
    · rw [List.map_append]
      exact List.mem_append_left _ (h.keys key hkey)
    · rw [List.map_append, List.sum_append, add_mul]
      exact h.bound.trans (Nat.le_add_right _ _)

theorem delegatorSplit_le (snapshot : RewardSnapshot) (pot : UInt64)
    {stakes : GoMap AddrKeyHash UInt64} (hfits : (stakes.values.map UInt64.toNat).sum < 2 ^ 64)
    (htotal : 0 < sumStake stakes.values) :
    let split := stakes.toPairs.foldl
      (rewardDelegator snapshot pot (sumStake stakes.values)) {}
    (split.delegatorRewards.values.map UInt64.toNat).sum = split.assigned.toNat ∧
      split.assigned.toNat ≤ pot.toNat := by
  have hsum := toNat_sumStake hfits
  have hpos : 0 < (sumStake stakes.values).toNat := UInt64.lt_iff_toNat_lt.mp htotal
  have hpairs : (stakes.toPairs.map fun e => e.2.toNat).sum = (sumStake stakes.values).toNat := by
    rw [hsum]
    simp [GoMap.toPairs, GoMap.values, Function.comp_def]
  have hempty : Split pot (sumStake stakes.values) [] {} := by
    refine ⟨fun key hkey => absurd ?_ hkey, rfl, ?_⟩
    · simp
    · simp
  have hrun : Split pot (sumStake stakes.values) stakes.toPairs
      (stakes.toPairs.foldl (rewardDelegator snapshot pot (sumStake stakes.values)) {}) := by
    refine foldl_visited (fun visited e acc hvisited h => h.step hpos ?_ ?_) hempty
    · have hkeys := hvisited.map Prod.fst
      rw [List.map_append] at hkeys
      exact not_mem_visited hkeys stakes.toPairs_fst_nodup
    · have hle := (hvisited.map fun e => e.2.toNat).sublist.sum_le_sum fun _ _ => Nat.zero_le _
      rw [hpairs, List.map_append, List.sum_append] at hle
      exact hle
  refine ⟨hrun.sum_eq, ?_⟩
  have hbound := hrun.bound
  rw [hpairs, mul_comm (sumStake stakes.values).toNat] at hbound
  exact Nat.le_of_mul_le_mul_right hbound hpos

/-- Within a pool nothing is lost and nothing wraps around. -/
theorem distributePoolRewards_exact {stakes : GoMap AddrKeyHash UInt64}
    (hfits : (stakes.values.map UInt64.toNat).sum < 2 ^ 64) (poolParams : PoolRewardParams)
    (snapshot : RewardSnapshot) (params : RewardParameters) :
    let rewards := distributePoolRewards totalPoolRewards stakes poolParams snapshot params
    rewards.operatorRewards.toNat + (rewards.delegatorRewards.values.map UInt64.toNat).sum =
      rewards.totalRewards.toNat := by
  unfold distributePoolRewards
  dsimp only
  split
  · rfl
  · rename_i hcost
    have hle := operatorRewardsOf_le (UInt64.not_le.mp hcost)
      (sumStake (poolParams.poolOwners.filterMap stakes.lookup)) (sumStake stakes.values)
      (effectivePoolMargin poolParams.margin params)
    generalize operatorRewardsOf totalPoolRewards poolParams.cost
      (sumStake (poolParams.poolOwners.filterMap stakes.lookup)) (sumStake stakes.values)
      (effectivePoolMargin poolParams.margin params) = operator at hle ⊢
    have hleNat : operator.toNat ≤ totalPoolRewards.toNat := UInt64.le_iff_toNat_le.mp hle
    have htop : totalPoolRewards.toNat < 2 ^ 64 := totalPoolRewards.toNat_lt
    -- the stakeholders' part, and the operator's before the rounding remainder
    have hparts : (if operator < totalPoolRewards then operator else totalPoolRewards) = operator ∧
        (if operator < totalPoolRewards then totalPoolRewards - operator else 0).toNat =
          totalPoolRewards.toNat - operator.toNat := by
      split
      · exact ⟨rfl, UInt64.toNat_sub_of_le _ _ hle⟩
      · rename_i hnot
        have heq : operator = totalPoolRewards := UInt64.le_antisymm hle (UInt64.not_lt.mp hnot)
        exact ⟨heq.symm, by simp [heq]⟩
    obtain ⟨hoperator, hstakeholders⟩ := hparts
    rw [hoperator]
    generalize (if operator < totalPoolRewards then totalPoolRewards - operator else 0) =
      stakeholders at hstakeholders ⊢
    have hsplit : ∀ split : DelegatorSplit,
        (split.delegatorRewards.values.map UInt64.toNat).sum = split.assigned.toNat →
        split.assigned.toNat ≤ stakeholders.toNat →
        (if split.assigned < stakeholders then operator + (stakeholders - split.assigned)
          else operator).toNat + (split.delegatorRewards.values.map UInt64.toNat).sum =
          totalPoolRewards.toNat := by
      intro split hsum hassigned
      split
      · rename_i hlt
        rw [UInt64.toNat_add, UInt64.toNat_sub_of_le _ _ (UInt64.le_of_lt hlt),
          Nat.mod_eq_of_lt (by omega)]
        omega
      · rename_i hnot
        have hge := UInt64.le_iff_toNat_le.mp (UInt64.not_lt.mp hnot)
        omega
    split
    · rename_i hpos
      obtain ⟨hsum, hassigned⟩ := delegatorSplit_le snapshot stakeholders hfits hpos.1
      exact hsplit _ hsum hassigned
    · exact hsplit {} rfl (Nat.zero_le _)

/-! ## Shares -/

theorem marginRat_mem (margin : Option ℚ) : 0 ≤ marginRat margin ∧ marginRat margin ≤ 1 := by
  unfold marginRat
  split
  · exact ⟨le_refl _, zero_le_one⟩
  · rename_i margin
    split
    · exact ⟨le_refl _, zero_le_one⟩
    · rename_i hpos
      split
      · exact ⟨zero_le_one, le_refl _⟩
      · rename_i hlt
        rw [not_le] at hpos hlt
        refine ⟨(Rat.num_pos.mp hpos).le, ?_⟩
        rw [← Rat.num_div_den margin, div_le_one (by exact_mod_cast margin.den_pos)]
        exact_mod_cast hlt.le

theorem calculatePoolPerformance_nonneg (pool : PoolKeyHash) (snapshot : RewardSnapshot) :
    0 ≤ calculatePoolPerformance pool snapshot := by
  unfold calculatePoolPerformance
  dsimp only
  split_ifs
  · exact zero_le_one
  · exact le_refl _
  · exact le_refl _
  · positivity

theorem minimumRewardRatio_nonneg {a b : ℚ} (ha : 0 ≤ a) (hb : 0 ≤ b) :
    0 ≤ minimumRewardRatio a b := by
  unfold minimumRewardRatio
  split
  · exact ha
  · exact hb

variable {params : RewardParameters}

theorem leverage_nonneg (h : validateDijkstraRewardParameters params = .ok ())
    (hactive : pledgeLeverageActive params) : 0 ≤ params.maxPledgeLeverage.getD 0 := by
  unfold pledgeLeverageActive at hactive
  rw [Bool.and_eq_true, decide_eq_true_eq] at hactive
  obtain ⟨hversion, hsome⟩ := hactive
  obtain ⟨leverage, hleverage⟩ := Option.isSome_iff_exists.mp hsome
  unfold validateDijkstraRewardParameters at h
  rw [if_neg (not_lt.mpr hversion), hleverage] at h
  dsimp only at h
  split at h
  · cases h
  · rename_i hbounds
    rw [not_or, not_lt] at hbounds
    rw [hleverage]
    exact zero_le_one.trans hbounds.1

theorem calculatePoolShare_nonneg (h : validateDijkstraRewardParameters params = .ok ())
    (poolStake : UInt64) (poolParams : PoolRewardParams) (snapshot : RewardSnapshot)
    (pool : PoolKeyHash) : 0 ≤ calculatePoolShare poolStake poolParams snapshot params pool := by
  have hratio : 0 ≤ rewardStakeRatio poolStake poolParams snapshot params := by
    unfold rewardStakeRatio
    split
    · rename_i hactive
      have hleverage := leverage_nonneg h hactive
      have hthreshold : 0 ≤ poolSaturationThreshold := by norm_num [poolSaturationThreshold]
      apply minimumRewardRatio_nonneg
      · exact minimumRewardRatio_nonneg (by positivity) hthreshold
      · exact mul_nonneg (by positivity) hleverage
    · positivity
  unfold calculatePoolShare
  split
  · exact le_refl _
  · dsimp only
    generalize poolInfluenceOf params * _ + 1 = denominator
    split
    · exact le_refl _
    · rename_i hden
      refine div_nonneg (mul_nonneg (mul_nonneg hratio ?_) ?_) (not_le.mp hden).le
      · exact calculatePoolPerformance_nonneg pool snapshot
      · exact sub_nonneg.mpr (marginRat_mem poolParams.margin).2

structure Shares (visited : List PoolKeyHash) (acc : ShareState) : Prop where
  visited_of_share : ∀ pool ∈ acc.poolShares.keys, pool ∈ visited
  nonneg : ∀ pool share, acc.poolShares.lookup pool = some share → 0 ≤ share
  sum_eq : acc.poolShares.values.sum = acc.totalShare
  eligible_nodup : acc.leverageEligiblePools.Nodup
  eligible_share : ∀ pool ∈ acc.leverageEligiblePools, pool ∈ acc.poolShares.keys

variable {acc' shares : ShareState}

section

variable (hparams : validateDijkstraRewardParameters params = .ok ())
include hparams

theorem Shares.step {visited : List PoolKeyHash} {acc : ShareState} {pool : PoolKeyHash}
    (h : Shares visited acc)
    (hnew : pool ∉ visited) (hstep : addPoolShare snapshot params acc pool = .ok acc') :
    Shares (visited ++ [pool]) acc' := by
  have hfresh : acc.poolShares.lookup pool = none := by
    by_contra hsome
    obtain ⟨share, hshare⟩ := Option.ne_none_iff_exists'.mp hsome
    exact hnew (h.visited_of_share pool (GoMap.mem_keys_iff.mpr ⟨share, hshare⟩))
  unfold addPoolShare at hstep
  split at hstep
  · cases hstep
    exact { h with
      visited_of_share := fun k hk => List.mem_append_left _ (h.visited_of_share k hk) }
  · cases hstep
  · rename_i poolParams _
    split at hstep
    · cases hstep
    · cases hstep
      have hshare := calculatePoolShare_nonneg hparams ((snapshot.poolStake.lookup pool).getD 0)
        poolParams snapshot pool
      generalize calculatePoolShare ((snapshot.poolStake.lookup pool).getD 0) poolParams snapshot
        params pool = share at hshare ⊢
      have hkeys : ∀ k, k ∈ AList.keys (acc.poolShares.insert pool share) ↔
          k = pool ∨ k ∈ acc.poolShares.keys := by
        intro k
        rw [← AList.mem_keys, AList.mem_insert, AList.mem_keys]
      refine ⟨?_, ?_, ?_, ?_, ?_⟩
      · intro k hk
        rw [hkeys] at hk
        rw [List.mem_append, List.mem_singleton]
        exact hk.elim .inr fun hk => .inl (h.visited_of_share k hk)
      · intro k v hv
        rw [GoMap.lookup_insert_ite] at hv
        split at hv
        · cases hv
          exact hshare
        · exact h.nonneg k v hv
      · have hsum := GoMap.sum_values_insert_new hfresh share id
        rw [List.map_id, List.map_id, h.sum_eq, add_comm] at hsum
        exact hsum
      · split
        · rw [List.nodup_append]
          refine ⟨h.eligible_nodup, List.nodup_singleton _, ?_⟩
          intro a ha b hb hab
          rw [List.mem_singleton.mp hb] at hab
          exact hnew (h.visited_of_share pool (hab ▸ h.eligible_share a ha))
        · exact h.eligible_nodup
      · intro k hk
        rw [hkeys]
        split at hk
        · rcases List.mem_append.mp hk with hk | hk
          · exact .inr (h.eligible_share k hk)
          · exact .inl (List.mem_singleton.mp hk)
        · exact .inr (h.eligible_share k hk)

theorem shares_of_pass
    (hrun : (sortedPoolIDs snapshot.poolStake).foldlM (addPoolShare snapshot params) {} = .ok shares) :
    Shares (sortedPoolIDs snapshot.poolStake) shares := by
  have hempty : Shares [] {} :=
    ⟨fun pool hpool => absurd hpool (by simp), fun pool share hshare => by simp at hshare, rfl,
      List.nodup_nil, fun pool hpool => absurd hpool (by simp)⟩
  refine foldlM_visited (fun visited pool acc acc' hvisited h hstep => ?_) hempty hrun
  exact h.step hparams (not_mem_visited hvisited (nodup_sortedPoolIDs _)) hstep

end

theorem sortedPoolIDs_length {V : Type} (m : GoMap PoolKeyHash V) :
    (sortedPoolIDs m).length = m.keys.length :=
  (perm_sortedPoolIDs m).length_eq

variable {stake : GoMap PoolKeyHash UInt64}

theorem Shares.length_le (h : Shares (sortedPoolIDs stake) shares) :
    shares.poolShares.keys.length ≤ stake.keys.length := by
  rw [← sortedPoolIDs_length stake]
  exact (shares.poolShares.keys_nodup.subperm h.visited_of_share).length_le

theorem Shares.properShares (h : Shares (sortedPoolIDs stake) shares)
    (hlen : stake.keys.length < 2 ^ 63)
    (hne : shares.totalShare ≠ 0) : ProperShares shares.poolShares shares.totalShare := by
  have hnonneg : 0 ≤ shares.poolShares.values.sum := by
    apply List.sum_nonneg
    intro share hshare
    obtain ⟨e, he, rfl⟩ := List.mem_map.mp hshare
    exact h.nonneg e.1 e.2 (AList.mem_lookup_iff.mpr he)
  rw [h.sum_eq] at hnonneg
  exact ⟨h.nonneg, h.sum_eq, lt_of_le_of_ne hnonneg (Ne.symm hne), by have := h.length_le; omega⟩

def fallbackPools (params : RewardParameters) (shares : ShareState) : List PoolKeyHash :=
  if pledgeLeverageActive params then shares.leverageEligiblePools
  else sortedPoolIDs shares.poolShares

theorem lookup_equalShares (params : RewardParameters) (shares : ShareState) (pool : PoolKeyHash) :
    (equalShares params shares).lookup pool =
      if pool ∈ fallbackPools params shares then
        some (1 / ((fallbackPools params shares).length : ℚ))
      else (shares.poolShares.lookup pool).map fun _ => 0 := by
  have hfold : ∀ (ids : List PoolKeyHash) (c : ℚ) (m : GoMap PoolKeyHash ℚ),
      (ids.foldl (fun m pool => m.insert pool c) m).lookup pool =
        if pool ∈ ids then some c else m.lookup pool := by
    intro ids c
    induction ids with
    | nil => simp
    | cons first ids ih =>
      intro m
      rw [List.foldl_cons, ih, GoMap.lookup_insert_ite]
      by_cases hpool : pool = first
      · simp [hpool]
      · simp [hpool]
  unfold equalShares
  rw [hfold, GoMap.lookup_mapVals]
  rfl

theorem Shares.properShares_equalShares (h : Shares (sortedPoolIDs stake) shares)
    (hlen : stake.keys.length < 2 ^ 63) (hne : fallbackPools params shares ≠ []) :
    ProperShares (equalShares params shares) 1 := by
  have hfallback : (fallbackPools params shares).Nodup ∧
      ∀ pool ∈ fallbackPools params shares, pool ∈ shares.poolShares.keys := by
    unfold fallbackPools
    split
    · exact ⟨h.eligible_nodup, h.eligible_share⟩
    · exact ⟨nodup_sortedPoolIDs _, fun pool hpool => (perm_sortedPoolIDs _).mem_iff.mp hpool⟩
  obtain ⟨hnodup, hsub⟩ := hfallback
  have hpos : (0 : ℚ) < (fallbackPools params shares).length := by
    exact_mod_cast List.length_pos_iff.mpr hne
  -- zero shares overwritten on pools that already have one: the same keys
  have hkeys : shares.poolShares.keys.Perm (equalShares params shares).keys := by
    rw [List.perm_ext_iff_of_nodup shares.poolShares.keys_nodup (AList.keys_nodup _)]
    intro pool
    rw [GoMap.mem_keys_iff (m := equalShares params shares), lookup_equalShares]
    constructor
    · intro hpool
      obtain ⟨share, hshare⟩ := GoMap.mem_keys_iff.mp hpool
      rw [hshare]
      split
      · exact ⟨_, rfl⟩
      · exact ⟨0, rfl⟩
    · rintro ⟨share, hshare⟩
      split at hshare
      · rename_i hpool
        exact hsub pool hpool
      · obtain ⟨old, hold, _⟩ := Option.map_eq_some_iff.mp hshare
        exact GoMap.mem_keys_iff.mpr ⟨old, hold⟩
  refine ⟨?_, ?_, zero_lt_one, ?_⟩
  · intro pool share hshare
    rw [lookup_equalShares] at hshare
    split at hshare
    · cases hshare
      positivity
    · obtain ⟨_, _, hzero⟩ := Option.map_eq_some_iff.mp hshare
      exact hzero.le
  · have hvalues := GoMap.sum_values_eq (equalShares params shares) id hkeys
    rw [List.map_id] at hvalues
    have hshares : (shares.poolShares.keys.map fun pool =>
        (((equalShares params shares).lookup pool).map id).getD 0) =
        shares.poolShares.keys.map fun pool => if pool ∈ fallbackPools params shares then
          1 / ((fallbackPools params shares).length : ℚ) else 0 := by
      apply List.map_congr_left
      intro pool _
      rw [lookup_equalShares]
      split
      · rfl
      · cases shares.poolShares.lookup pool with
        | none => rfl
        | some share => rfl
    rw [hvalues, hshares, LargestRemainder.sum_map_ite_mem shares.poolShares.keys_nodup hnodup hsub,
      nsmul_eq_mul, mul_one_div_cancel hpos.ne']
  · rw [← hkeys.length_eq]
    have := h.length_le
    omega

/-! ## Paying out -/

section PayOut

variable {amounts : GoMap PoolKeyHash UInt64} {snapshot : RewardSnapshot}
  {params : RewardParameters}

theorem totalRewards_distributePoolRewards (totalPoolRewards : UInt64)
    (stakes : GoMap AddrKeyHash UInt64) (poolParams : PoolRewardParams)
    (snapshot : RewardSnapshot) (params : RewardParameters) :
    (distributePoolRewards totalPoolRewards stakes poolParams snapshot params).totalRewards =
      totalPoolRewards := by
  unfold distributePoolRewards
  dsimp only
  split
  · rfl
  · rfl

structure PaidOut (amounts : GoMap PoolKeyHash UInt64) (snapshot : RewardSnapshot)
    (params : RewardParameters) (visited : List PoolKeyHash)
    (acc : GoMap PoolKeyHash PoolRewards) : Prop where
  pools : ∀ pool, pool ∈ acc.keys ↔ pool ∈ visited
  paid : ∀ pool rewards, acc.lookup pool = some rewards → ∃ poolParams,
    rewards = distributePoolRewards ((amounts.lookup pool).getD 0)
      ((snapshot.delegatorStake.lookup pool).getD ∅) poolParams snapshot params

variable {acc acc' : GoMap PoolKeyHash PoolRewards}

theorem PaidOut.step {visited : List PoolKeyHash} {pool : PoolKeyHash}
    (h : PaidOut amounts snapshot params visited acc)
    (hstep : addPoolRewards amounts snapshot params acc pool = .ok acc') :
    PaidOut amounts snapshot params (visited ++ [pool]) acc' := by
  unfold addPoolRewards at hstep
  split at hstep
  · cases hstep
  · rename_i poolParams _
    cases hstep
    constructor
    · intro other
      rw [← AList.mem_keys, AList.mem_insert, AList.mem_keys, h.pools, List.mem_append,
        List.mem_singleton]
      exact or_comm
    · intro other rewards hlookup
      rw [GoMap.lookup_insert_ite] at hlookup
      split at hlookup
      · rename_i heq
        cases hlookup
        exact ⟨poolParams, by rw [heq]⟩
      · exact h.paid other rewards hlookup

theorem PaidOut.sum_totalRewards (h : PaidOut amounts snapshot params (sortedPoolIDs amounts) acc) :
    (acc.values.map fun rewards => rewards.totalRewards.toNat).sum =
      (amounts.values.map UInt64.toNat).sum := by
  have hkeys : amounts.keys.Perm acc.keys := by
    rw [List.perm_ext_iff_of_nodup amounts.keys_nodup acc.keys_nodup]
    intro pool
    rw [h.pools, (perm_sortedPoolIDs amounts).mem_iff]
  rw [GoMap.sum_values_eq acc _ hkeys, GoMap.sum_values_eq amounts _ (List.Perm.refl _)]
  congr 1
  apply List.map_congr_left
  intro pool hpool
  obtain ⟨rewards, hrewards⟩ := GoMap.mem_keys_iff.mp (hkeys.mem_iff.mp hpool)
  obtain ⟨amount, hamount⟩ := GoMap.mem_keys_iff.mp hpool
  obtain ⟨poolParams, rfl⟩ := h.paid pool rewards hrewards
  rw [hrewards, hamount, Option.map_some, Option.getD_some, totalRewards_distributePoolRewards]
  rfl

end PayOut

/-! ## The calculation -/

/-- What an accepted calculation does to the pots: paid out and left over add up
to the rewards pot, and the others are untouched. The sums are of natural
numbers, so nothing wraps around. -/
structure PotSpent (pots : AdaPots) (result : RewardCalculationResult) : Prop where
  pot : (result.poolRewards.values.map fun rewards => rewards.totalRewards.toNat).sum +
    result.updatedPots.rewards.toNat = pots.rewards.toNat
  reserves : result.updatedPots.reserves = pots.reserves
  treasury : result.updatedPots.treasury = pots.treasury

/-- And each pool's total is its operator's and delegators' rewards. -/
structure ExactRewards (pots : AdaPots) (result : RewardCalculationResult) : Prop extends
    PotSpent pots result where
  pools : ∀ pool rewards, result.poolRewards.lookup pool = some rewards →
    rewards.operatorRewards.toNat + (rewards.delegatorRewards.values.map UInt64.toNat).sum =
      rewards.totalRewards.toNat

/-- The stakes delegated to each pool add up to a `uint64`. -/
def DelegatedStakeFits (snapshot : RewardSnapshot) : Prop :=
  ∀ pool stakes, snapshot.delegatorStake.lookup pool = some stakes →
    (stakes.values.map UInt64.toNat).sum < 2 ^ 64

variable {pots : AdaPots} {result : RewardCalculationResult}

theorem calculateRewards_cases (hrun : calculateRewards pots snapshot params = .ok result)
    (hlen : snapshot.poolStake.keys.length < 2 ^ 63) :
    result = { totalRewards := 0, poolRewards := ∅, updatedPots := pots } ∨
      ∃ shares total, ProperShares shares total ∧
        payOut pots snapshot params shares total = .ok result := by
  obtain ⟨hparams, hrun⟩ := seq_eq_ok.mp hrun
  split at hrun
  · cases hrun
    exact .inl rfl
  · obtain ⟨shares, hpass, hrun⟩ := bind_eq_ok.mp hrun
    have hshares := shares_of_pass hparams hpass
    split at hrun
    · cases hrun
    · rename_i hpools
      split at hrun
      · split at hrun
        · cases hrun
          exact .inl rfl
        · -- every share is zero: the fallback has a pool to pay
          rename_i heligible
          have hne : fallbackPools params shares ≠ [] := by
            unfold fallbackPools
            intro hnil
            split at hnil
            · rename_i hactive
              exact heligible (by simp [hactive, hnil])
            · apply hpools
              rw [← sortedPoolIDs_length, hnil]
              rfl
          exact .inr ⟨_, _, hshares.properShares_equalShares hlen hne, hrun⟩
      · rename_i hne
        exact .inr ⟨_, _, hshares.properShares hlen hne, hrun⟩

theorem payOut_cases {shares : GoMap PoolKeyHash ℚ} {total : ℚ}
    (hrun : payOut pots snapshot params shares total = .ok result) :
    result.updatedPots = { pots with rewards := 0 } ∧
      PaidOut (apportionRewardPot pots.rewards shares total) snapshot params
        (sortedPoolIDs (apportionRewardPot pots.rewards shares total)) result.poolRewards := by
  obtain ⟨poolRewards, hpaid, hresult⟩ := bind_eq_ok.mp hrun
  cases hresult
  have hempty : PaidOut (apportionRewardPot pots.rewards shares total) snapshot params [] ∅ :=
    ⟨fun pool => by simp, fun pool rewards hlookup => by simp at hlookup⟩
  exact ⟨rfl, foldlM_visited (fun _ _ _ _ _ h hstep => h.step hstep) hempty hpaid⟩

section

variable (hrun : calculateRewards pots snapshot params = .ok result)
  (hlen : snapshot.poolStake.keys.length < 2 ^ 63)
include hrun hlen

theorem potSpent_of_calculateRewards : PotSpent pots result := by
  rcases calculateRewards_cases hrun hlen with rfl | ⟨shares, total, hproper, hpay⟩
  · exact ⟨Nat.zero_add _, rfl, rfl⟩
  · obtain ⟨hpots, hpaid⟩ := payOut_cases hpay
    refine ⟨?_, by rw [hpots], by rw [hpots]⟩
    rw [hpaid.sum_totalRewards, hproper.sum_apportion, hpots]
    rfl

theorem exactRewards_of_calculateRewards (hfits : DelegatedStakeFits snapshot) :
    ExactRewards pots result := by
  refine ⟨potSpent_of_calculateRewards hrun hlen, ?_⟩
  intro pool rewards hlookup
  rcases calculateRewards_cases hrun hlen with rfl | ⟨shares, total, _, hpay⟩
  · simp at hlookup
  · obtain ⟨_, hpaid⟩ := payOut_cases hpay
    obtain ⟨poolParams, rfl⟩ := hpaid.paid pool rewards hlookup
    apply distributePoolRewards_exact
    cases hstakes : snapshot.delegatorStake.lookup pool with
    | none => simp [GoMap.values]
    | some stakes => exact hfits pool stakes hstakes

end

/-- The calculation distributes the pot exactly, and the split of a pot over
shares that are not negative is largest-remainder rounding. A Go map has fewer
than `2 ^ 63` entries, since its length is an `int`. -/
theorem rewards_exact :
    (∀ pots snapshot params result, calculateRewards pots snapshot params = .ok result →
      snapshot.poolStake.keys.length < 2 ^ 63 → DelegatedStakeFits snapshot →
      ExactRewards pots result) ∧
    ∀ (pot : UInt64) (shares : GoMap PoolKeyHash ℚ) (total : ℚ), ProperShares shares total →
      IsLargestRemainderSplit pot shares total (handOutOrder pot shares total)
        (apportionRewardPot pot shares total) :=
  ⟨fun _ _ _ _ hrun hlen hfits => exactRewards_of_calculateRewards hrun hlen hfits,
    fun pot _ _ h => h.isLargestRemainderSplit pot⟩

def twoPools : RewardSnapshot where
  totalActiveStake := 300
  poolStake := List.toAList [⟨1, 200⟩, ⟨2, 100⟩]
  delegatorStake := List.toAList
    [⟨1, List.toAList [⟨11, 150⟩, ⟨12, 50⟩]⟩, ⟨2, List.toAList [⟨21, 70⟩, ⟨22, 30⟩]⟩]
  poolParams := List.toAList
    [⟨1, some ⟨10, 5, some (1 / 10), ⟨0, 11⟩, [11]⟩⟩, ⟨2, some ⟨10, 5, some 0, ⟨0, 21⟩, [21]⟩⟩]
  stakeRegistrations := List.toAList [⟨11, true⟩, ⟨12, true⟩, ⟨21, true⟩]
  poolBlocks := List.toAList [⟨1, 3⟩, ⟨2, 2⟩]
  totalBlocksInEpoch := 5

def twoPoolsParameters : RewardParameters where
  monetaryExpansion := 3000
  treasuryGrowth := 2000
  protocolMajorVersion := 10
  maxPledgeLeverage := none
  minPoolMargin := none
  poolInfluence := some (3 / 10)
  activeSlotsCoeff := some (1 / 20)
  expectedSlotsPerEpoch := 100

theorem rewards_exact_twoPools :
    ∃ result, calculateRewards ⟨1000, 50, 101⟩ twoPools twoPoolsParameters = .ok result ∧
      result.poolRewards.keys.length = 2 ∧ ExactRewards ⟨1000, 50, 101⟩ result ∧
      ∃ shares : GoMap PoolKeyHash ℚ, IsLargestRemainderSplit 101 shares 3
        (handOutOrder 101 shares 3) (apportionRewardPot 101 shares 3) := by
  have hpaid : ((calculateRewards ⟨1000, 50, 101⟩ twoPools twoPoolsParameters).toOption.map
      fun result => result.poolRewards.keys.length) = some 2 := by decide +kernel
  cases hrun : calculateRewards ⟨1000, 50, 101⟩ twoPools twoPoolsParameters with
  | error cause =>
    rw [hrun] at hpaid
    cases hpaid
  | ok result =>
    rw [hrun] at hpaid
    have hfits : DelegatedStakeFits twoPools := by
      have hall : ∀ e ∈ twoPools.delegatorStake.toPairs,
          (e.2.values.map UInt64.toNat).sum < 2 ^ 64 := by decide
      intro pool stakes hlookup
      exact hall _ (GoMap.mem_toPairs_of_lookup hlookup)
    have hshares : ProperShares ((∅ : GoMap PoolKeyHash ℚ).insert 1 2 |>.insert 2 1) 3 := by
      have hall : ∀ e ∈ GoMap.toPairs ((∅ : GoMap PoolKeyHash ℚ).insert 1 2 |>.insert 2 1),
          0 ≤ e.2 := by decide
      refine ⟨fun pool share hlookup => ?_, by decide +kernel, by decide, by decide +kernel⟩
      exact hall _ (GoMap.mem_toPairs_of_lookup hlookup)
    exact ⟨result, rfl, Option.some.inj hpaid,
      rewards_exact.1 _ _ _ _ hrun (by decide) hfits, _, rewards_exact.2 101 _ 3 hshares⟩

end Gouroboros.Ledger.Rewards

import Mathlib.Algebra.Order.Floor.Div
import Mathlib.Data.List.Chain
import Mathlib.Tactic.FieldSimp
import Gouroboros.Lib.ExceptFold
import Gouroboros.Lib.SortSearch
import Gouroboros.Consensus.Selection

/-!
# Tachys leader selection

`TachysLeaderSelector` (`consensus/tachys.go`) orders the pools by their ids and
keeps the cumulative stake of each; a sample is the leader's if, scaled by the total
stake, it lies between the cumulative stakes before and after the pool
(`leaders_partition_samples`).

Ids compare as big-endian numbers. A selector may be nil; an index out of range, where the source
would panic, is an error of its own here.
-/

namespace Gouroboros.Consensus

open Ledger (ByteString PoolKeyHash)
open SortSearch ExceptFold

structure TachysPool where
  id : PoolKeyHash
  stake : UInt64
deriving DecidableEq

structure TachysInterval where
  id : PoolKeyHash
  upperStake : UInt64
deriving DecidableEq

structure TachysLeaderSelector where
  intervals : List TachysInterval
  totalStake : UInt64
deriving DecidableEq

inductive TachysError where
  | emptyDistribution
  | totalStakeZero
  | zeroStake (id : PoolKeyHash)
  | duplicateId (id : PoolKeyHash)
  | totalStakeOverflows
  | totalStakeMismatch (cumulative totalStake : UInt64)
  | uninitialized
  | sampleLength (got : Nat)
  | indexOutOfRange
deriving DecidableEq

/-- The order of `sort.Slice`: `bytes.Compare(a.ID, b.ID) < 0`. -/
def TachysPool.Before (a b : TachysPool) : Prop := a.id.toNat < b.id.toNat

def buildIntervals (previous : Option PoolKeyHash) (cumulative : UInt64) :
    List TachysPool → Except TachysError (List TachysInterval × UInt64)
  | [] => .ok ([], cumulative)
  | pool :: pools =>
    if pool.stake = 0 then .error (.zeroStake pool.id)
    else if previous = some pool.id then .error (.duplicateId pool.id)
    -- `bits.Add64` with a carry
    else if cumulative.toNat + pool.stake.toNat ≥ 2 ^ 64 then .error .totalStakeOverflows
    else do
      let (intervals, total) ← buildIntervals (some pool.id) (cumulative + pool.stake) pools
      .ok (⟨pool.id, cumulative + pool.stake⟩ :: intervals, total)

def newTachysLeaderSelector (sorting : SliceSort TachysPool.Before) (pools : List TachysPool)
    (totalStake : UInt64) : Except TachysError TachysLeaderSelector :=
  if pools.length = 0 then .error .emptyDistribution
  else if totalStake = 0 then .error .totalStakeZero
  else do
    let (intervals, cumulative) ← buildIntervals none 0 (sorting.sort pools)
    if cumulative ≠ totalStake then .error (.totalStakeMismatch cumulative totalStake)
    else .ok ⟨intervals, totalStake⟩

/-- The predicate of the search: the scaled sample is below the end of interval `i`. -/
def TachysLeaderSelector.endsAfter (s : TachysLeaderSelector) (scaledSample i : Nat) : Bool :=
  match s.intervals[i]? with
  | none => false
  | some interval => scaledSample < interval.upperStake.toNat * 2 ^ 256

def leaderForSample (s : Option TachysLeaderSelector) (sample : ByteString) :
    Except TachysError PoolKeyHash :=
  match s with
  | none => .error .uninitialized
  | some s =>
    if s.intervals.length = 0 ∨ s.totalStake = 0 then .error .uninitialized
    else if sample.length ≠ 32 then .error (.sampleLength sample.length)
    else
      let scaledSample := bigIntOfBytes sample * s.totalStake.toNat
      match s.intervals[search s.intervals.length (s.endsAfter scaledSample)]? with
      | none => .error .indexOutOfRange
      | some interval => .ok interval.id

/-! ## The cumulative stakes -/

def cumulativeStake (pools : List TachysPool) (i : Nat) : Nat :=
  ((pools.take i).map (·.stake.toNat)).sum

theorem cumulativeStake_cons (pool : TachysPool) (pools : List TachysPool) (i : Nat) :
    cumulativeStake (pool :: pools) (i + 1) = pool.stake.toNat + cumulativeStake pools i := by
  simp [cumulativeStake]

theorem cumulativeStake_succ {pools : List TachysPool} {i : Nat} {pool : TachysPool}
    (h : pools[i]? = some pool) :
    cumulativeStake pools (i + 1) = cumulativeStake pools i + pool.stake.toNat := by
  simp [cumulativeStake, List.take_add_one, h]

theorem cumulativeStake_mono (pools : List TachysPool) {i j : Nat} (h : i ≤ j) :
    cumulativeStake pools i ≤ cumulativeStake pools j :=
  monotone_nat_of_le_succ (fun i => by simp [cumulativeStake, List.take_add_one]) h

structure Built (previous : Option PoolKeyHash) (cumulative : UInt64) (pools : List TachysPool)
    (intervals : List TachysInterval) (total : UInt64) : Prop where
  length_eq : intervals.length = pools.length
  interval : ∀ i pool, pools[i]? = some pool → ∃ v, intervals[i]? = some v ∧ v.id = pool.id ∧
    v.upperStake.toNat = cumulative.toNat + cumulativeStake pools (i + 1)
  total_eq : total.toNat = cumulative.toNat + cumulativeStake pools pools.length
  distinct : (previous.toList ++ pools.map (·.id)).IsChain (· ≠ ·)

theorem built_of_buildIntervals {previous : Option PoolKeyHash} {cumulative total : UInt64}
    {pools : List TachysPool} {intervals : List TachysInterval}
    (h : buildIntervals previous cumulative pools = .ok (intervals, total)) :
    Built previous cumulative pools intervals total := by
  induction pools generalizing previous cumulative intervals with
  | nil =>
    cases h
    refine ⟨rfl, nofun, rfl, ?_⟩
    cases previous <;> simp
  | cons pool pools ih =>
    rw [buildIntervals, guard_eq_ok, guard_eq_ok, guard_eq_ok, bind_eq_ok] at h
    rcases h with ⟨-, hnew, hfits, ⟨rest, total'⟩, hrest, h⟩
    cases h
    rcases ih hrest with ⟨hlength, hinterval, htotal, hdistinct⟩
    have hsum : (cumulative + pool.stake).toNat = cumulative.toNat + pool.stake.toNat := by
      rw [UInt64.toNat_add]
      omega
    refine ⟨congrArg Nat.succ hlength, fun i p hp => ?_, ?_, ?_⟩
    · cases i with
      | zero =>
        cases hp
        exact ⟨_, rfl, rfl, by simp [hsum, cumulativeStake]⟩
      | succ i =>
        rcases hinterval i p hp with ⟨v, hv, hid, hupper⟩
        exact ⟨v, hv, hid, by rw [hupper, cumulativeStake_cons, hsum, Nat.add_assoc]⟩
    · rw [htotal, hsum, List.length_cons, cumulativeStake_cons, Nat.add_assoc]
    · cases previous with
      | none => exact hdistinct
      | some id =>
        refine List.isChain_cons_cons.mpr ⟨fun heq => hnew (congrArg some heq), hdistinct⟩

/-- What an accepted list is: in order of their ids, with no id twice, its stakes add up to the
total, and the selector has their cumulative stakes. -/
structure Prepared (ordered : List TachysPool) (s : TachysLeaderSelector) : Prop where
  nonempty : ordered ≠ []
  total_pos : 0 < s.totalStake.toNat
  increasing : ordered.Pairwise TachysPool.Before
  length_eq : s.intervals.length = ordered.length
  interval : ∀ i pool, ordered[i]? = some pool → ∃ v, s.intervals[i]? = some v ∧ v.id = pool.id ∧
    v.upperStake.toNat = cumulativeStake ordered (i + 1)
  total_eq : s.totalStake.toNat = cumulativeStake ordered ordered.length

variable {sorting : SliceSort TachysPool.Before} {pools ordered : List TachysPool}
  {totalStake : UInt64} {s : TachysLeaderSelector}

theorem increasing_of_distinct (hsorted : ordered.Pairwise fun a b => ¬ b.Before a)
    (hdistinct : (ordered.map (·.id)).IsChain (· ≠ ·)) : ordered.Pairwise TachysPool.Before := by
  have htrans : Trans TachysPool.Before TachysPool.Before TachysPool.Before := ⟨Nat.lt_trans⟩
  rw [List.isChain_map, List.isChain_iff_getElem] at hdistinct
  rw [List.pairwise_iff_getElem] at hsorted
  rw [← List.isChain_iff_pairwise, List.isChain_iff_getElem]
  intro i hi
  have hle := Nat.not_lt.mp (hsorted i (i + 1) (by omega) hi (Nat.lt_succ_self i))
  exact Nat.lt_of_le_of_ne hle fun heq => hdistinct i hi (BitVec.eq_of_toNat_eq heq)

theorem prepared_of_new (h : newTachysLeaderSelector sorting pools totalStake = .ok s) :
    Prepared (sorting.sort pools) s ∧ s.totalStake = totalStake := by
  rw [newTachysLeaderSelector, guard_eq_ok, guard_eq_ok, bind_eq_ok] at h
  rcases h with ⟨hlength, htotal, ⟨intervals, cumulative⟩, hbuild, h⟩
  rw [guard_eq_ok, not_not] at h
  rcases h with ⟨hsum, h⟩
  cases h
  rcases built_of_buildIntervals hbuild with ⟨hlength_eq, hinterval, htotal_eq, hdistinct⟩
  rw [UInt64.toNat_zero, Nat.zero_add] at htotal_eq
  simp only [UInt64.toNat_zero, Nat.zero_add] at hinterval
  refine ⟨⟨fun hnil => hlength ?_, ?_, increasing_of_distinct (sorting.sorted pools) hdistinct,
    hlength_eq, hinterval, hsum ▸ htotal_eq⟩, rfl⟩
  · rw [← (sorting.perm pools).length_eq, hnil, List.length_nil]
  · exact Nat.pos_of_ne_zero fun hzero => htotal (UInt64.toNat_inj.mp hzero)

/-! ## The leader of a sample -/

/-- The scaled sample lies between the cumulative stakes before and after pool `i`. -/
def Holds (ordered : List TachysPool) (totalStake : UInt64) (sample : ByteString) (i : Nat) : Prop :=
  cumulativeStake ordered i * 2 ^ 256 ≤ bigIntOfBytes sample * totalStake.toNat ∧
    bigIntOfBytes sample * totalStake.toNat < cumulativeStake ordered (i + 1) * 2 ^ 256

theorem Holds.unique {sample : ByteString} {i j : Nat} (hi : Holds ordered totalStake sample i)
    (hj : Holds ordered totalStake sample j) : i = j := by
  have hlt : ∀ {i j}, Holds ordered totalStake sample i → Holds ordered totalStake sample j →
      ¬ i < j := by
    intro i j hi hj hlt
    have hmono := Nat.mul_le_mul_right (2 ^ 256) (cumulativeStake_mono ordered (Nat.succ_le_of_lt hlt))
    exact absurd (hi.2.trans_le (hmono.trans hj.1)) (Nat.lt_irrefl _)
  exact Nat.le_antisymm (Nat.not_lt.mp (hlt hj hi)) (Nat.not_lt.mp (hlt hi hj))

theorem bigIntOfBytes_lt (bs : ByteString) : bigIntOfBytes bs < 256 ^ bs.length := by
  have hlt := @Nat.ofDigits_lt_base_pow_length 256 (bs.reverse.map UInt8.toNat) (by decide) ?_
  · rwa [List.length_map, List.length_reverse] at hlt
  · intro digit hdigit
    rcases List.mem_map.mp hdigit with ⟨byte, -, rfl⟩
    exact byte.toNat_lt

section

variable (h : Prepared ordered s)
include h

theorem Prepared.endsAfter_eq (scaledSample : Nat) {i : Nat}
    (hi : i < ordered.length) : s.endsAfter scaledSample i =
      decide (scaledSample < cumulativeStake ordered (i + 1) * 2 ^ 256) := by
  rcases h.interval i _ (List.getElem?_eq_getElem hi) with ⟨v, hv, -, hupper⟩
  rw [TachysLeaderSelector.endsAfter, hv, ← hupper]

theorem Prepared.leader {sample : ByteString} (hsample : sample.length = 32) :
    ∃ i pool, ordered[i]? = some pool ∧ Holds ordered s.totalStake sample i ∧
      leaderForSample (some s) sample = .ok pool.id := by
  have hpos : 0 < ordered.length := List.length_pos_iff.mpr h.nonempty
  have hready : ¬ (s.intervals.length = 0 ∨ s.totalStake = 0) := by
    rintro (hzero | hzero)
    · rw [h.length_eq] at hzero
      omega
    · exact absurd h.total_pos (by rw [hzero]; exact Nat.lt_irrefl 0)
  have hvalue : bigIntOfBytes sample < 2 ^ 256 := by
    have hlt := bigIntOfBytes_lt sample
    rw [hsample] at hlt
    exact hlt
  generalize hscaled : bigIntOfBytes sample * s.totalStake.toNat = scaledSample
  have hends : ∀ i, i < ordered.length → s.endsAfter scaledSample i = _ := fun i =>
    h.endsAfter_eq scaledSample
  have hmono : ∀ a b, a ≤ b → b < ordered.length → s.endsAfter scaledSample a →
      s.endsAfter scaledSample b = true := by
    intro a b hab hb htrue
    rw [hends a (by omega), decide_eq_true_eq] at htrue
    rw [hends b hb, decide_eq_true_eq]
    exact htrue.trans_le (Nat.mul_le_mul_right _ (cumulativeStake_mono ordered (Nat.succ_le_succ hab)))
  rcases search_spec hmono with ⟨-, hbelow, habove⟩
  generalize hindex : search ordered.length (s.endsAfter scaledSample) = index at hbelow habove
  have hin : index < ordered.length := by
    -- the last interval ends at the total, above every sample
    by_contra hout
    have hlast := hbelow (ordered.length - 1) (by omega)
    rw [hends _ (by omega), Nat.sub_add_cancel hpos, ← h.total_eq, decide_eq_false_iff_not, ← hscaled,
      Nat.mul_comm] at hlast
    exact hlast (Nat.mul_lt_mul_of_pos_left hvalue h.total_pos)
  have hlow : cumulativeStake ordered index * 2 ^ 256 ≤ scaledSample := by
    cases index with
    | zero => simp [cumulativeStake]
    | succ k =>
      have hk := hbelow k (Nat.lt_succ_self k)
      rw [hends k (by omega), decide_eq_false_iff_not, Nat.not_lt] at hk
      exact hk
  have hhigh := habove index (Nat.le_refl index) hin
  rw [hends index hin, decide_eq_true_eq] at hhigh
  refine ⟨index, ordered[index], List.getElem?_eq_getElem hin,
    ⟨hscaled.symm ▸ hlow, hscaled.symm ▸ hhigh⟩, ?_⟩
  rcases h.interval index _ (List.getElem?_eq_getElem hin) with ⟨v, hv, hid, -⟩
  rw [leaderForSample, if_neg hready, if_neg (not_not_intro hsample)]
  dsimp only
  rw [hscaled, h.length_eq, hindex, hv]
  exact congrArg Except.ok hid

theorem Prepared.nodup : (ordered.map (·.id)).Nodup := by
  refine List.pairwise_map.mpr (h.increasing.imp fun hlt heq => ?_)
  rw [TachysPool.Before, heq] at hlt
  exact Nat.lt_irrefl _ hlt

theorem Prepared.leader_iff {sample : ByteString}
    (hsample : sample.length = 32) {i : Nat} {pool : TachysPool} (hpool : ordered[i]? = some pool) :
    leaderForSample (some s) sample = .ok pool.id ↔ Holds ordered s.totalStake sample i := by
  rcases h.leader hsample with ⟨j, leader, hleader, hholds, hok⟩
  rw [hok]
  constructor
  · intro heq
    have hid : (ordered.map (·.id))[j]? = (ordered.map (·.id))[i]? := by
      rw [List.getElem?_map, List.getElem?_map, hleader, hpool, Option.map_some, Option.map_some,
        Except.ok.inj heq]
    have hj : j < (ordered.map (·.id)).length := by
      rw [List.length_map]
      exact (List.getElem?_eq_some_iff.mp hleader).1
    rw [← (List.getElem?_inj hj h.nodup).mp hid]
    exact hholds
  · intro hi
    rw [hholds.unique hi, hpool] at hleader
    cases hleader
    rfl

end

/-! ## The samples of a pool -/

def firstSample (ordered : List TachysPool) (totalStake : UInt64) (i : Nat) : Nat :=
  (cumulativeStake ordered i * 2 ^ 256) ⌈/⌉ totalStake.toNat

theorem holds_iff (hpos : 0 < totalStake.toNat) (sample : ByteString) (i : Nat) :
    Holds ordered totalStake sample i ↔ firstSample ordered totalStake i ≤ bigIntOfBytes sample ∧
      bigIntOfBytes sample < firstSample ordered totalStake (i + 1) := by
  rw [Holds, firstSample, firstSample, ceilDiv_le_iff_le_mul hpos, ← Nat.not_le, ← Nat.not_le,
    ceilDiv_le_iff_le_mul hpos, Nat.mul_comm (bigIntOfBytes sample)]

theorem firstSample_sub (hpos : 0 < totalStake.toNat) (i : Nat) :
    0 ≤ (firstSample ordered totalStake i : ℚ) -
        cumulativeStake ordered i * 2 ^ 256 / totalStake.toNat ∧
      (firstSample ordered totalStake i : ℚ) -
        cumulativeStake ordered i * 2 ^ 256 / totalStake.toNat < 1 := by
  have hle : cumulativeStake ordered i * 2 ^ 256 ≤
      totalStake.toNat * firstSample ordered totalStake i :=
    (ceilDiv_le_iff_le_mul hpos).mp (Nat.le_refl _)
  have hlt : firstSample ordered totalStake i * totalStake.toNat <
      cumulativeStake ordered i * 2 ^ 256 + totalStake.toNat := by
    rw [firstSample, Nat.ceilDiv_eq_add_pred_div]
    have hdiv := Nat.div_mul_le_self (cumulativeStake ordered i * 2 ^ 256 + totalStake.toNat - 1)
      totalStake.toNat
    omega
  have hposQ : (0 : ℚ) < totalStake.toNat := by exact_mod_cast hpos
  constructor
  · rw [sub_nonneg, div_le_iff₀ hposQ]
    exact_mod_cast hle.trans_eq (Nat.mul_comm _ _)
  · rw [sub_lt_iff_lt_add, ← sub_lt_iff_lt_add', lt_div_iff₀ hposQ, sub_mul, one_mul,
      sub_lt_iff_lt_add]
    exact_mod_cast hlt

/-- What the selector makes of the pools in order of their ids. -/
structure Partitions (ordered : List TachysPool) (totalStake : UInt64) (s : TachysLeaderSelector) :
    Prop where
  leader : ∀ sample : ByteString, sample.length = 32 → ∃ (i : Nat) (pool : TachysPool),
    ordered[i]? = some pool ∧ leaderForSample (some s) sample = .ok pool.id ∧
    ∀ j, Holds ordered totalStake sample j ↔ j = i
  samples : ∀ (i : Nat) (pool : TachysPool), ordered[i]? = some pool → ∃ first last : Nat,
    first ≤ last ∧ last ≤ 2 ^ 256 ∧
    (∀ sample : ByteString, sample.length = 32 → (leaderForSample (some s) sample = .ok pool.id ↔
      first ≤ bigIntOfBytes sample ∧ bigIntOfBytes sample < last)) ∧
    |(last - first : ℚ) - 2 ^ 256 * pool.stake.toNat / totalStake.toNat| < 1

theorem Prepared.partitions (h : Prepared ordered s) : Partitions ordered s.totalStake s where
  leader sample hsample := by
    rcases h.leader hsample with ⟨i, pool, hpool, hholds, hok⟩
    exact ⟨i, pool, hpool, hok, fun j => ⟨fun hj => hj.unique hholds, fun hj => hj ▸ hholds⟩⟩
  samples i pool hpool := by
    have hbound : Monotone (firstSample ordered s.totalStake) := by
      intro j k hjk
      refine (ceilDiv_le_iff_le_mul h.total_pos).mpr ?_
      refine (Nat.mul_le_mul_right _ (cumulativeStake_mono ordered hjk)).trans ?_
      exact (ceilDiv_le_iff_le_mul h.total_pos).mp (Nat.le_refl _)
    have hin : i + 1 ≤ ordered.length := (List.getElem?_eq_some_iff.mp hpool).1
    have hend : firstSample ordered s.totalStake ordered.length ≤ 2 ^ 256 := by
      rw [firstSample, ceilDiv_le_iff_le_mul h.total_pos, h.total_eq]
    refine ⟨_, _, hbound (Nat.le_succ i), (hbound hin).trans hend, fun sample hsample => ?_, ?_⟩
    · rw [h.leader_iff hsample hpool, holds_iff h.total_pos]
    · rcases @firstSample_sub ordered _ h.total_pos i with ⟨hlow, hhigh⟩
      rcases @firstSample_sub ordered _ h.total_pos (i + 1) with ⟨hlow', hhigh'⟩
      have hstake : (cumulativeStake ordered (i + 1) : ℚ) * 2 ^ 256 / s.totalStake.toNat =
          cumulativeStake ordered i * 2 ^ 256 / s.totalStake.toNat +
            2 ^ 256 * pool.stake.toNat / s.totalStake.toNat := by
        rw [cumulativeStake_succ hpool]
        push_cast
        ring
      rw [abs_lt]
      constructor
      · linarith
      · linarith

theorem Prepared.sort_eq {sorting' : SliceSort TachysPool.Before} {pools' : List TachysPool}
    (h : Prepared (sorting.sort pools) s) (hperm : pools'.Perm pools) :
    sorting'.sort pools' = sorting.sort pools := by
  have hsame := (sorting'.perm pools').trans (hperm.trans (sorting.perm pools).symm)
  refine List.Perm.eq_of_pairwise (fun a b ha hb hab hba => ?_) (sorting'.sorted pools')
    (sorting.sorted pools) hsame
  refine List.inj_on_of_nodup_map h.nodup (hsame.mem_iff.mp ha) hb (BitVec.eq_of_toNat_eq ?_)
  exact Nat.le_antisymm (Nat.not_lt.mp hab) (Nat.not_lt.mp hba)

theorem leaders_partition_samples (h : newTachysLeaderSelector sorting pools totalStake = .ok s) :
    (∃ ordered, ordered.Perm pools ∧ ordered.Pairwise TachysPool.Before ∧
      Partitions ordered totalStake s) ∧
    ∀ (sorting' : SliceSort TachysPool.Before) (pools' : List TachysPool), pools'.Perm pools →
      newTachysLeaderSelector sorting' pools' totalStake = .ok s := by
  rcases prepared_of_new h with ⟨hprepared, htotal⟩
  constructor
  · refine ⟨sorting.sort pools, sorting.perm pools, hprepared.increasing, ?_⟩
    exact htotal ▸ hprepared.partitions
  · intro sorting' pools' hperm
    rw [← h, newTachysLeaderSelector, newTachysLeaderSelector, hprepared.sort_eq hperm,
      hperm.length_eq]

def byInsertion : SliceSort TachysPool.Before where
  sort := List.insertionSort fun a b => a.id.toNat ≤ b.id.toNat
  perm := List.perm_insertionSort _
  sorted pools := by
    have : Std.Total fun a b : TachysPool => a.id.toNat ≤ b.id.toNat := ⟨fun _ _ => Nat.le_total _ _⟩
    have : IsTrans TachysPool fun a b => a.id.toNat ≤ b.id.toNat := ⟨fun _ _ _ => Nat.le_trans⟩
    exact (List.pairwise_insertionSort _ pools).imp Nat.not_lt.mpr

theorem leaders_partition_samples_two :
    newTachysLeaderSelector byInsertion [⟨1, 3⟩, ⟨2, 1⟩] 4 = .ok ⟨[⟨1, 3⟩, ⟨2, 4⟩], 4⟩ ∧
    newTachysLeaderSelector byInsertion [⟨2, 1⟩, ⟨1, 3⟩] 4 = .ok ⟨[⟨1, 3⟩, ⟨2, 4⟩], 4⟩ := by
  have hnew : newTachysLeaderSelector byInsertion [⟨1, 3⟩, ⟨2, 1⟩] 4 =
    .ok ⟨[⟨1, 3⟩, ⟨2, 4⟩], 4⟩ := by decide
  exact ⟨hnew, (leaders_partition_samples hnew).2 _ _ (List.Perm.swap ..)⟩

end Gouroboros.Consensus

import Gouroboros.Ledger.Common.BlockPools
import Gouroboros.Ledger.Conway.DelegationSteps
import Gouroboros.Ledger.Shelley.PoolSteps

/-!
# Pool registrations in one transaction and over several

A list of pool registrations is checked with the maps of the POOL rule and of
the delegation rule when one transaction carries it, and through the
block-scoped view when each is in a transaction of its own. `PoolAgrees` ties
the maps to the view (`PoolAgrees.keyFree_iff`), and an accepted registration keeps
them tied (`PoolAgrees.register`).
-/

namespace Gouroboros.Ledger.Conway

open Shelley PoolCertificateState BlockLedgerState

def HasCurrentKey (base : LedgerState) (s : PoolCertificateState) (p : PoolKeyHash)
    (k : VrfKeyHash) : Prop :=
  ∃ reg, s.currentRegistration base p = .ok (some reg) ∧ reg.vrfKeyHash = k

/-- A key that `p` was allowed to claim: in the state nobody else holds it, and
deferred parameters that reserved it were replaced in the transaction. -/
structure Vetted (base : LedgerState) (s : PoolCertificateState) (k : VrfKeyHash)
    (p : PoolKeyHash) : Prop where
  inUse : ∃ owner, base.isVrfKeyInUse k = .ok owner ∧
    ∀ q, owner = some q → q = p ∧ HasCurrentKey base s p k
  future : ∀ futureState, base.isFutureVrfKeyInUse? = some futureState →
    ∃ owner, futureState k = .ok owner ∧ ∀ q, owner = some q → s.replaced q k = true ∨ q = p

structure Unheld (base : LedgerState) (s : PoolCertificateState) (k : VrfKeyHash) : Prop where
  unclaimed : s.vrfOwners.lookup k = none
  inUse : base.isVrfKeyInUse k = .ok none
  future : ∀ futureState, base.isFutureVrfKeyInUse? = some futureState →
    ∃ owner, futureState k = .ok owner ∧ ∀ q, owner = some q → s.replaced q k = true

/-- The view's pool records hold what the transaction has registered. -/
structure RecordsAgree (base : LedgerState) (b : BlockLedgerState) (s : PoolRuleState) : Prop where
  base_eq : b.base = base
  current : ∀ p, s.current.lookup p =
    if (b.pool p).registrationKnown then (b.pool p).registration else none
  known : ∀ p, (b.pool p).registrationKnown = true →
    (b.pool p).registration.isSome ∧ (b.pool p).retirementKnown = true
  future : ∀ p, s.future.lookup p = (b.pool p).future
  registered : ∀ p, (s.inTxPoolRegs.lookup p).isSome ↔
    (s.current.lookup p).isSome ∨ (s.future.lookup p).isSome
  new : ∀ p, (s.current.lookup p).isSome → ∃ ret, base.poolCurrentState p = .ok (none, ret)
  again : ∀ p, (s.future.lookup p).isSome →
    (s.current.lookup p).isSome ∨ ∃ reg ret, base.poolCurrentState p = .ok (some reg, ret)

/-- The view's claimed and released keys are the transaction's. -/
structure KeysAgree (base : LedgerState) (b : BlockLedgerState) (s : PoolCertificateState) :
    Prop where
  owners : ∀ k, s.vrfOwners.lookup k = b.vrfKeys.lookup k
  future_owned : ∀ p reg, s.future.lookup p = some reg →
    s.vrfOwners.lookup reg.vrfKeyHash = some p
  claimed : ∀ k p, s.vrfOwners.lookup k = some p → Vetted base s k p
  released : ∀ k, (b.vrfReleased.lookup k).isSome → Unheld base s k

/-- The pool maps of the delegation rule repeat those of the POOL rule. -/
structure DelegationAgrees (base : LedgerState) (d : DelegationState) (s : PoolRuleState) :
    Prop where
  registered : ∀ p, (d.inTxPoolRegs.lookup p).isSome = (s.inTxPoolRegs.lookup p).isSome
  owners : ∀ k, d.inTxVrfKeys.lookup k = s.vrfOwners.lookup k
  latest : ∀ p, d.inTxPoolVrfKeys.lookup p =
    ((s.future.lookup p).or (s.current.lookup p)).map (·.vrfKeyHash)
  active : ∀ p k, d.inTxPoolActiveVrfKeys.lookup p = some k →
    HasCurrentKey base s.toPoolCertificateState p k
  inactive : ∀ p, d.inTxPoolActiveVrfKeys.lookup p = none → s.current.lookup p = none

/-- The maps of the two rules, over `base`, against the view `b` that the same
certificates produce one by one. -/
structure PoolAgrees (base : LedgerState) (b : BlockLedgerState) (d : DelegationState)
    (s : PoolRuleState) : Prop where
  records : RecordsAgree base b s
  keys : KeysAgree base b s.toPoolCertificateState
  delegation : DelegationAgrees base d s

section Agrees

variable {base : LedgerState} {b b' : BlockLedgerState} {d d' : DelegationState}
  {s s' : PoolRuleState} {cert : PoolRegistrationCertificate} {p : PoolKeyHash}

theorem poolAgrees_init (base : LedgerState) :
    PoolAgrees base (newBlockLedgerState base) {} {} := by
  refine ⟨?_, ?_, ?_⟩
  · constructor <;> intros <;>
      first | rfl | simp_all [newBlockLedgerState, pool]
  · constructor <;> intros <;> first | rfl | simp_all [newBlockLedgerState]
  · constructor <;> intros <;> first | rfl | simp_all

theorem PoolAgrees.currentRegistration_eq (h : PoolAgrees base b d s) (p : PoolKeyHash) :
    s.currentRegistration base p =
      ({} : PoolCertificateState).currentRegistration b.toLedgerState p := by
  have hview : ({} : PoolCertificateState).currentRegistration b.toLedgerState p =
      (b.poolCurrentState p).map Prod.fst := rfl
  rw [hview, poolCurrentState_eq, h.records.base_eq]
  unfold PoolCertificateState.currentRegistration
  rw [h.records.current]
  cases hk : (b.pool p).registrationKnown with
  | true =>
    obtain ⟨hsome, hret⟩ := h.records.known p hk
    obtain ⟨reg, hreg⟩ := Option.isSome_iff_exists.mp hsome
    simp [hret, hreg, Except.map]
  | false =>
    cases base.poolCurrentState p with
    | error e => rfl
    | ok q => simp [Except.map]

theorem PoolAgrees.ownKey_iff (h : PoolAgrees base b d s) :
    s.OwnKey base cert p ↔ ({} : PoolCertificateState).OwnKey b.toLedgerState cert p := by
  unfold PoolCertificateState.OwnKey
  rw [h.currentRegistration_eq]

variable {k : VrfKeyHash}

theorem PoolAgrees.replaced_iff (h : PoolAgrees base b d s) :
    s.replaced p k ↔ ∃ f, b.futureVrfKey? p = some f ∧ f ≠ k := by
  rw [futureVrfKey?_eq, ← h.records.future]
  unfold PoolCertificateState.replaced
  cases s.future.lookup p with
  | none => simp
  | some reg => simp

/-! ## Keys in the maps and in the view -/

/-- The deferred keys the view reports where it defers to the wrapped state: an
owner whose parameters the block replaced is left out. -/
theorem isFutureVrfKeyInUseOver_eq_ok {futureState : VrfKeyIndex}
    (hclaim : ∀ p, b.vrfKeys.lookup k = some p → b.futureVrfKey? p ≠ some k)
    (hreleased : b.vrfReleased.lookup k = none) {Own : PoolKeyHash → Prop} :
    (∃ owner, b.isFutureVrfKeyInUseOver futureState k = .ok owner ∧
      ∀ p, owner = some p → Own p) ↔
    ∃ owner, futureState k = .ok owner ∧
      ∀ p, owner = some p → (∃ f, b.futureVrfKey? p = some f ∧ f ≠ k) ∨ Own p := by
  have hfilter : (b.vrfKeys.lookup k).filter
      (fun pool => decide (b.futureVrfKey? pool = some k)) = none := by
    cases hl : b.vrfKeys.lookup k with
    | none => rfl
    | some p => simp [Option.filter, hclaim p hl]
  unfold isFutureVrfKeyInUseOver
  rw [hfilter, hreleased]
  cases futureState k with
  | error e => simp [bind, Except.bind]
  | ok owner =>
    cases owner with
    | none => simp [bind, Except.bind]
    | some p =>
      cases hf : b.futureVrfKey? p with
      | none => simp [bind, Except.bind, hf]
      | some f =>
        by_cases hne : f = k
        · simp [bind, Except.bind, hf, hne]
        · simp [bind, Except.bind, hf, hne]

theorem PoolAgrees.not_released (h : PoolAgrees base b d s) (hk : b.vrfKeys.lookup k = some p) :
    b.vrfReleased.lookup k = none := by
  cases hr : b.vrfReleased.lookup k with
  | none => rfl
  | some u =>
    have hnone := (h.keys.released k (by simp [hr])).unclaimed
    rw [h.keys.owners, hk] at hnone
    cases hnone

section

variable (h : PoolAgrees base b d s)
include h

/-- When a key is free for the view: its deferred keys are those of the wrapped
state, overlaid, and a fresh transaction has claimed and replaced nothing. -/
theorem PoolAgrees.view_keyFree_iff :
    ({} : PoolCertificateState).KeyFree b.toLedgerState cert ↔
      (∃ owner, b.isVrfKeyInUse cert.vrfKeyHash = .ok owner ∧
        ∀ p, owner = some p → s.OwnKey base cert p) ∧
      ∃ futureState, base.isFutureVrfKeyInUse? = some futureState ∧
        ∃ owner, b.isFutureVrfKeyInUseOver futureState cert.vrfKeyHash = .ok owner ∧
          ∀ p, owner = some p → s.OwnKey base cert p := by
  simp only [h.ownKey_iff]
  constructor
  · rintro ⟨_, hinUse, _, ⟨⟩, owner, hok, hown⟩
    refine ⟨hinUse, ?_⟩
    unfold isFutureVrfKeyInUse at hok
    rw [h.records.base_eq] at hok
    cases hf : base.isFutureVrfKeyInUse? with
    | none =>
      rw [hf] at hok
      cases hok
    | some futureState =>
      rw [hf] at hok
      refine ⟨futureState, rfl, owner, hok, fun p hp => (hown p hp).resolve_left ?_⟩
      simp [PoolCertificateState.replaced]
  · rintro ⟨hinUse, futureState, hf, owner, hok, hown⟩
    refine ⟨fun p hp => (by cases hp), hinUse, _, rfl, owner, ?_, fun p hp => .inr (hown p hp)⟩
    unfold isFutureVrfKeyInUse
    rw [h.records.base_eq, hf]
    exact hok

theorem PoolAgrees.keyFree_iff_of_untouched (hk : b.vrfKeys.lookup cert.vrfKeyHash = none)
    (hr : b.vrfReleased.lookup cert.vrfKeyHash = none) :
    s.KeyFree base cert ↔ ({} : PoolCertificateState).KeyFree b.toLedgerState cert := by
  have hclaim : ∀ p, b.vrfKeys.lookup cert.vrfKeyHash = some p →
      b.futureVrfKey? p ≠ some cert.vrfKeyHash := by simp [hk]
  have hinUse : b.isVrfKeyInUse cert.vrfKeyHash = base.isVrfKeyInUse cert.vrfKeyHash := by
    simp only [isVrfKeyInUse, hk, hr, h.records.base_eq]
  simp only [h.view_keyFree_iff, hinUse, isFutureVrfKeyInUseOver_eq_ok hclaim hr, ← h.replaced_iff]
  constructor
  · intro hfree
    exact ⟨hfree.inUse, hfree.future⟩
  · rintro ⟨hinuse, hfuture⟩
    refine ⟨fun p hp => ?_, hinuse, hfuture⟩
    rw [h.keys.owners, hk] at hp
    cases hp

theorem PoolAgrees.keyFree_iff_of_released (hr : (b.vrfReleased.lookup cert.vrfKeyHash).isSome) :
    s.KeyFree base cert ↔ ({} : PoolCertificateState).KeyFree b.toLedgerState cert := by
  have hunheld := h.keys.released _ hr
  have hk : b.vrfKeys.lookup cert.vrfKeyHash = none := (h.keys.owners _).symm.trans hunheld.unclaimed
  obtain ⟨u, hu⟩ := Option.isSome_iff_exists.mp hr
  rw [h.view_keyFree_iff]
  constructor
  · rintro ⟨_, _, futureState, hf, _⟩
    refine ⟨⟨none, ?_, nofun⟩, futureState, hf, none, ?_, nofun⟩
    · simp [isVrfKeyInUse, hk, hu]
    · simp [isFutureVrfKeyInUseOver, hk, hu]
  · rintro ⟨_, futureState, hf, _⟩
    obtain ⟨owner, howner, hreplaced⟩ := hunheld.future futureState hf
    refine ⟨fun p hp => ?_, ⟨none, hunheld.inUse, nofun⟩,
      futureState, hf, owner, howner, fun p hp => .inl (hreplaced p hp)⟩
    rw [hunheld.unclaimed] at hp
    cases hp

theorem PoolAgrees.keyFree_iff_of_claimed {q : PoolKeyHash}
    (hk : b.vrfKeys.lookup cert.vrfKeyHash = some q) :
    s.KeyFree base cert ↔ ({} : PoolCertificateState).KeyFree b.toLedgerState cert := by
  have howned : s.vrfOwners.lookup cert.vrfKeyHash = some q := (h.keys.owners _).trans hk
  have hinUse : b.isVrfKeyInUse cert.vrfKeyHash = .ok (some q) := by
    simp only [isVrfKeyInUse, hk]
  rw [h.view_keyFree_iff, hinUse]
  constructor
  · rintro ⟨hclaimed, _, futureState, hf, hfuture⟩
    have hown : ∀ p, some q = some p → s.OwnKey base cert p := by
      rintro _ ⟨⟩
      exact hclaimed q howned
    refine ⟨⟨some q, rfl, hown⟩, futureState, hf, ?_⟩
    by_cases hlatest : b.futureVrfKey? q = some cert.vrfKeyHash
    · refine ⟨some q, ?_, hown⟩
      simp [isFutureVrfKeyInUseOver, hk, hlatest, Option.filter]
    · have hclaim : ∀ p, b.vrfKeys.lookup cert.vrfKeyHash = some p →
          b.futureVrfKey? p ≠ some cert.vrfKeyHash := by
        intro p hp
        rw [hk] at hp
        cases hp
        exact hlatest
      simp only [h.replaced_iff] at hfuture
      exact (isFutureVrfKeyInUseOver_eq_ok hclaim (h.not_released hk)).mpr hfuture
  · rintro ⟨⟨_, ⟨⟩, hall⟩, futureState, hf, _⟩
    have hown : s.OwnKey base cert q := hall q rfl
    have hvetted := h.keys.claimed _ q howned
    obtain ⟨used, hused, husedAll⟩ := hvetted.inUse
    obtain ⟨deferred, hdeferred, hdeferredAll⟩ := hvetted.future futureState hf
    refine ⟨fun p hp => ?_, ⟨used, hused, fun p hp => ?_⟩, futureState, hf, deferred, hdeferred,
      fun p hp => ?_⟩
    · rw [howned] at hp
      cases hp
      exact hown
    · rw [(husedAll p hp).1]
      exact hown
    · rcases hdeferredAll p hp with hrep | rfl
      · exact .inl hrep
      · exact .inr hown

theorem PoolAgrees.keyFree_iff :
    s.KeyFree base cert ↔ ({} : PoolCertificateState).KeyFree b.toLedgerState cert := by
  cases hk : b.vrfKeys.lookup cert.vrfKeyHash with
  | some q => exact h.keyFree_iff_of_claimed hk
  | none =>
    cases hr : b.vrfReleased.lookup cert.vrfKeyHash with
    | none => exact h.keyFree_iff_of_untouched hk hr
    | some u => exact h.keyFree_iff_of_released (by simp [hr])

end

/-! ## Registrations -/

section

variable {s s' : PoolCertificateState} {k : VrfKeyHash}
  (hcur : ∀ reg, s.currentRegistration base p = .ok (some reg) → s'.currentRegistration base p = .ok (some reg))
include hcur

theorem HasCurrentKey.mono (h : HasCurrentKey base s p k) : HasCurrentKey base s' p k := by
  obtain ⟨reg, hreg, hk⟩ := h
  exact ⟨reg, hcur reg hreg, hk⟩

theorem Vetted.mono (hrep : ∀ q, s.replaced q k → s'.replaced q k) (h : Vetted base s k p) :
    Vetted base s' k p := by
  obtain ⟨⟨owner, howner, hall⟩, hfuture⟩ := h
  refine ⟨⟨owner, howner, fun q hq => ⟨(hall q hq).1, (hall q hq).2.mono hcur⟩⟩, ?_⟩
  intro futureState hf
  obtain ⟨deferred, hdeferred, hdall⟩ := hfuture futureState hf
  exact ⟨deferred, hdeferred, fun q hq => (hdall q hq).imp (hrep q) id⟩

end

theorem Unheld.mono {s s' : PoolCertificateState} (hunclaimed : s'.vrfOwners.lookup k = none)
    (hrep : ∀ q, s.replaced q k → s'.replaced q k) (h : Unheld base s k) : Unheld base s' k := by
  refine ⟨hunclaimed, h.inUse, fun futureState hf => ?_⟩
  obtain ⟨deferred, hdeferred, hall⟩ := h.future futureState hf
  exact ⟨deferred, hdeferred, fun q hq => hrep q (hall q hq)⟩

theorem ownKey_hasCurrentKey {s : PoolCertificateState} (h : s.OwnKey base cert p) :
    p = cert.operator ∧ HasCurrentKey base s cert.operator cert.vrfKeyHash := by
  obtain ⟨hp, current, hcur, hkey⟩ := h
  cases current with
  | none => cases hkey
  | some reg => exact ⟨hp, reg, hcur, Option.some.inj hkey⟩

theorem RecordsAgree.future_none (h : RecordsAgree base b s)
    (hcur : s.currentRegistration base p = .ok none) : s.future.lookup p = none := by
  rcases currentRegistration_cases hcur with ⟨reg, _, hreg⟩ | ⟨hnone, ret, hbase⟩
  · cases hreg
  · cases hf : s.future.lookup p with
    | none => rfl
    | some f =>
      rcases h.again p (by simp [hf]) with hc | ⟨reg, ret', hbase'⟩
      · simp [hnone] at hc
      · rw [hbase] at hbase'
        cases hbase'

theorem RecordsAgree.register (h : RecordsAgree base b s)
    {current : Option PoolRegistrationCertificate}
    (hcur : s.currentRegistration base cert.operator = .ok current)
    (hb : b.Registered b' cert current) : RecordsAgree base b' (s.registered cert current) := by
  refine ⟨hb.base_eq.trans h.base_eq, fun p => ?_, fun p hp => ?_, fun p => ?_, fun p => ?_,
    fun p hp => ?_, fun p hp => ?_⟩
  · rw [registered_current_lookup, hb.pool_eq, h.current]
    by_cases hpo : p = cert.operator
    · cases current <;> simp [hpo, registeredPool]
    · simp [hpo]
  · rw [hb.pool_eq] at hp ⊢
    by_cases hpo : p = cert.operator
    · rw [if_pos hpo] at hp ⊢
      cases current with
      | none => exact ⟨rfl, rfl⟩
      | some cur => exact ⟨(h.known _ hp).1, rfl⟩
    · rw [if_neg hpo] at hp ⊢
      exact h.known p hp
  · rw [registered_future_lookup, hb.pool_eq, h.future]
    by_cases hpo : p = cert.operator
    · cases current <;> simp [hpo, registeredPool]
    · simp [hpo]
  · rw [registered_inTxPoolRegs, GoMap.lookup_insert_ite, registered_current_lookup,
      registered_future_lookup]
    by_cases hpo : p = cert.operator
    · cases current <;> simp [hpo]
    · simp [hpo, h.registered]
  · rw [registered_current_lookup] at hp
    split at hp
    · rename_i hpo
      obtain ⟨rfl, rfl⟩ := hpo
      rcases currentRegistration_cases hcur with ⟨reg, _, hreg⟩ | ⟨_, hbase⟩
      · cases hreg
      · exact hbase
    · exact h.new p hp
  · rw [registered_future_lookup] at hp
    rw [registered_current_lookup]
    split at hp
    · rename_i hpo
      obtain ⟨cur, rfl⟩ := Option.ne_none_iff_exists'.mp hpo.2
      rw [hpo.1]
      rcases currentRegistration_cases hcur with ⟨reg, hreg, _⟩ | ⟨_, ret, hbase⟩
      · exact .inl (by simp [hreg])
      · exact .inr ⟨cur, ret, hbase⟩
    · refine (h.again p hp).imp (fun hc => ?_) id
      split
      · rfl
      · exact hc

/-! ### The keys a registration claims and gives up -/

def GivesUp (s : PoolCertificateState) (cert : PoolRegistrationCertificate)
    (current : Option PoolRegistrationCertificate) (k : VrfKeyHash) : Prop :=
  k ≠ cert.vrfKeyHash ∧ ∃ cur previous, current = some cur ∧
    s.future.lookup cert.operator = some previous ∧ previous.vrfKeyHash = k ∧
    k ≠ cur.vrfKeyHash

theorem RecordsAgree.supersedes_iff (h : RecordsAgree base b s)
    {current : Option PoolRegistrationCertificate} :
    b.Supersedes cert current k ↔ GivesUp s.toPoolCertificateState cert current k := by
  unfold BlockLedgerState.Supersedes GivesUp supersededVrfKey?
  rw [futureVrfKey?_eq, ← h.future]
  cases s.future.lookup cert.operator with
  | none => simp
  | some previous =>
    simp only [Option.map_some, Option.filter_eq_some_iff, Option.some.injEq, decide_eq_true_eq]
    constructor
    · rintro ⟨cur, hcur, rfl, hk⟩
      exact ⟨hk.1, cur, previous, hcur, rfl, rfl, hk.2⟩
    · rintro ⟨hk, cur, _, hcur, rfl, rfl, hkc⟩
      exact ⟨cur, hcur, rfl, hk, hkc⟩

section Registration

variable {current : Option PoolRegistrationCertificate}

theorem KeysAgree.registered_vrfOwners_givesUp (h : KeysAgree base b s.toPoolCertificateState)
    (hk : GivesUp s.toPoolCertificateState cert current k) :
    (s.registered cert current).vrfOwners.lookup k = none := by
  obtain ⟨hne, cur, previous, rfl, hf, rfl, hkc⟩ := hk
  have howned := h.future_owned _ _ hf
  refine (AList.lookup_insert_ne hne).trans ?_
  rw [PoolCertificateState.releasePrevious, hf]
  dsimp only
  rw [if_pos ⟨hkc, howned⟩]
  exact AList.lookup_erase _ _

theorem registered_vrfOwners_other (hne : k ≠ cert.vrfKeyHash)
    (hk : ¬ GivesUp s.toPoolCertificateState cert current k) :
    (s.registered cert current).vrfOwners.lookup k = s.vrfOwners.lookup k := by
  cases current with
  | none => exact AList.lookup_insert_ne hne
  | some cur =>
    refine (AList.lookup_insert_ne hne).trans ?_
    unfold PoolCertificateState.releasePrevious
    cases hf : s.future.lookup cert.operator with
    | none => rfl
    | some previous =>
      dsimp only
      split
      · rename_i hcond
        refine AList.lookup_erase_ne fun heq => hk ?_
        exact ⟨hne, cur, previous, rfl, hf, heq.symm, heq ▸ hcond.1⟩
      · rfl

theorem replaced_registered_mono {q : PoolKeyHash} (hk : k ≠ cert.vrfKeyHash ∨ q ≠ cert.operator)
    (h : s.replaced q k) : (s.registered cert current).replaced q k := by
  unfold PoolCertificateState.replaced at h ⊢
  rw [registered_future_lookup]
  by_cases hq : q = cert.operator ∧ current ≠ none
  · have hk : k ≠ cert.vrfKeyHash := hk.resolve_right fun h => h hq.1
    simpa [hq] using hk.symm
  · rw [if_neg hq]
    exact h

theorem KeysAgree.vrfOwners_other (h : KeysAgree base b s.toPoolCertificateState)
    (hfree : s.KeyFree base cert) (hp : p ≠ cert.operator) (hk : s.vrfOwners.lookup k = some p) :
    (s.registered cert current).vrfOwners.lookup k = some p := by
  have hne : k ≠ cert.vrfKeyHash := by
    rintro rfl
    exact hp (hfree.claimed p hk).1
  refine (registered_vrfOwners_other hne ?_).trans hk
  rintro ⟨_, _, previous, _, hf, rfl, _⟩
  have howned := h.future_owned _ _ hf
  rw [hk] at howned
  exact hp (Option.some.inj howned)

section

variable (hcur : s.currentRegistration base cert.operator = .ok current)
include hcur

theorem currentRegistration_registered_mono
    {reg : PoolRegistrationCertificate} (h : s.currentRegistration base p = .ok (some reg)) :
    (s.registered cert current).currentRegistration base p = .ok (some reg) := by
  cases current with
  | some cur => exact h
  | none =>
    have hne : p ≠ cert.operator := by
      rintro rfl
      rw [hcur] at h
      cases h
    unfold PoolCertificateState.currentRegistration at h ⊢
    rw [registered_current_lookup, if_neg fun hp => hne hp.1]
    exact h

theorem currentRegistration_registered_self :
    (s.registered cert current).currentRegistration base cert.operator =
      .ok (some (current.getD cert)) := by
  cases current with
  | some cur => exact hcur
  | none =>
    unfold PoolCertificateState.currentRegistration
    rw [registered_current_lookup, if_pos ⟨rfl, rfl⟩]
    rfl

theorem vetted_registered (hfree : s.KeyFree base cert) :
    Vetted base (s.registered cert current).toPoolCertificateState cert.vrfKeyHash
      cert.operator := by
  obtain ⟨_, ⟨owner, howner, hinUse⟩, futureState, hf, deferred, hdeferred, hfuture⟩ := hfree
  refine ⟨⟨owner, howner, fun q hq => ?_⟩, fun futureState' hf' => ?_⟩
  · obtain ⟨hop, hkey⟩ := ownKey_hasCurrentKey (hinUse q hq)
    exact ⟨hop, hkey.mono fun _ => currentRegistration_registered_mono hcur⟩
  · rw [hf] at hf'
    cases hf'
    refine ⟨deferred, hdeferred, fun q hq => ?_⟩
    by_cases hop : q = cert.operator
    · exact .inr hop
    · rcases hfuture q hq with hrep | hown
      · exact .inl (replaced_registered_mono (.inr hop) hrep)
      · exact absurd hown.1 hop

theorem KeysAgree.unheld_givesUp (h : KeysAgree base b s.toPoolCertificateState)
    (hk : GivesUp s.toPoolCertificateState cert current k) :
    Unheld base (s.registered cert current).toPoolCertificateState k := by
  refine ⟨h.registered_vrfOwners_givesUp hk, ?_, fun futureState hfs => ?_⟩
  · obtain ⟨_, cur, previous, rfl, hf, rfl, hkc⟩ := hk
    obtain ⟨owner, howner, hall⟩ := (h.claimed _ _ (h.future_owned _ _ hf)).inUse
    cases owner with
    | none => exact howner
    | some q =>
      obtain ⟨_, reg, hreg, hkey⟩ := hall q rfl
      rw [hcur] at hreg
      cases hreg
      exact absurd hkey.symm hkc
  · obtain ⟨hne, cur, previous, rfl, hf, rfl, _⟩ := hk
    obtain ⟨deferred, hdeferred, hall⟩ :=
      (h.claimed _ _ (h.future_owned _ _ hf)).future futureState hfs
    refine ⟨deferred, hdeferred, fun q hq => ?_⟩
    rcases hall q hq with hrep | rfl
    · exact replaced_registered_mono (.inl hne) hrep
    · unfold PoolCertificateState.replaced
      rw [registered_future_lookup, if_pos ⟨rfl, Option.some_ne_none cur⟩]
      simpa using hne.symm

theorem KeysAgree.register (h : KeysAgree base b s.toPoolCertificateState)
    (hrec : RecordsAgree base b s)
    (hfree : s.KeyFree base cert) (hb : b.Registered b' cert current) :
    KeysAgree base b' (s.registered cert current).toPoolCertificateState := by
  refine ⟨fun k => ?_, fun p reg hreg => ?_, fun k p hk => ?_, fun k hk => ?_⟩
  · by_cases hne : k = cert.vrfKeyHash
    · rw [hne, registered_vrfOwners_self, hb.vrfKeys_self]
    · by_cases hgive : GivesUp s.toPoolCertificateState cert current k
      · rw [h.registered_vrfOwners_givesUp hgive,
          hb.vrfKeys_superseded k hne (hrec.supersedes_iff.mpr hgive)]
      · rw [registered_vrfOwners_other hne hgive, h.owners,
          hb.vrfKeys_other k hne (mt hrec.supersedes_iff.mp hgive)]
  · rw [registered_future_lookup] at hreg
    split at hreg
    · rename_i hp
      cases hreg
      rw [hp.1]
      exact registered_vrfOwners_self
    · rename_i hp
      refine h.vrfOwners_other hfree (fun hpo => ?_) (h.future_owned p reg hreg)
      have hnone : current = none := not_not.mp fun hne => hp ⟨hpo, hne⟩
      rw [hnone] at hcur
      rw [hpo, hrec.future_none hcur] at hreg
      cases hreg
  · by_cases hne : k = cert.vrfKeyHash
    · subst hne
      rw [registered_vrfOwners_self] at hk
      cases hk
      exact vetted_registered hcur hfree
    · by_cases hgive : GivesUp s.toPoolCertificateState cert current k
      · rw [h.registered_vrfOwners_givesUp hgive] at hk
        cases hk
      · rw [registered_vrfOwners_other hne hgive] at hk
        exact (h.claimed k p hk).mono (fun _ => currentRegistration_registered_mono hcur)
          fun _ => replaced_registered_mono (.inl hne)
  · obtain ⟨hne, hk⟩ := (hb.vrfReleased_iff k).mp hk
    by_cases hgive : GivesUp s.toPoolCertificateState cert current k
    · exact h.unheld_givesUp hcur hgive
    · have hunheld := h.released k (hk.resolve_left (mt hrec.supersedes_iff.mp hgive))
      exact hunheld.mono ((registered_vrfOwners_other hne hgive).trans hunheld.unclaimed)
        fun _ => replaced_registered_mono (.inl hne)

/-! ### The delegation rule's pool maps -/

section

variable (h : DelegationAgrees base d s) (hrec : RecordsAgree base b s)
  (hkeys : KeysAgree base b s.toPoolCertificateState)
include h hrec hkeys

theorem DelegationAgrees.releasePreviousKey_lookup (hne : k ≠ cert.vrfKeyHash) :
    (d.releasePreviousKey cert (current.getD cert).vrfKeyHash).lookup k =
      (s.registered cert current).vrfOwners.lookup k := by
  unfold DelegationState.releasePreviousKey
  rw [h.latest]
  cases hf : s.future.lookup cert.operator with
  | none =>
    have hgive : ¬ GivesUp s.toPoolCertificateState cert current k := by
      rintro ⟨_, _, _, _, hf', _⟩
      rw [hf] at hf'
      cases hf'
    rw [registered_vrfOwners_other hne hgive]
    cases hc : s.current.lookup cert.operator with
    | none => exact h.owners k
    | some reg =>
      -- the pool is new to the transaction: its only key is the current one
      have hreg : current = some reg := by
        rcases currentRegistration_cases hcur with ⟨reg', hreg', rfl⟩ | ⟨hnone, _⟩
        · rw [hc] at hreg'
          exact hreg'.symm
        · rw [hc] at hnone
          cases hnone
      simp [hreg, h.owners]
  | some previous =>
    have howned := hkeys.future_owned _ _ hf
    cases current with
    | none =>
      rw [hrec.future_none hcur] at hf
      cases hf
    | some cur =>
      by_cases hgive : GivesUp s.toPoolCertificateState cert (some cur) k
      · rw [hkeys.registered_vrfOwners_givesUp hgive]
        obtain ⟨hk, _, _, ⟨⟩, hf', rfl, hkc⟩ := hgive
        rw [hf] at hf'
        cases hf'
        simp [hk, hkc, h.owners, howned]
      · rw [registered_vrfOwners_other hne hgive]
        simp only [Option.map_some, Option.some_or, Option.getD_some]
        split
        · rename_i hcond
          rw [AList.lookup_erase_ne, h.owners]
          rintro rfl
          exact hgive ⟨hne, cur, previous, rfl, hf, rfl, hcond.2.1⟩
        · exact h.owners k

theorem DelegationAgrees.register :
    DelegationAgrees base (d.registered cert (current.getD cert).vrfKeyHash)
      (s.registered cert current) := by
  have hactive : ∀ p, (d.registered cert (current.getD cert).vrfKeyHash).inTxPoolActiveVrfKeys.lookup
      p = if p = cert.operator then some (current.getD cert).vrfKeyHash
        else d.inTxPoolActiveVrfKeys.lookup p :=
    fun p => GoMap.lookup_insert_ite _ _ _ _
  refine ⟨fun p => ?_, fun k => ?_, fun p => ?_, fun p k hk => ?_, fun p hp => ?_⟩
  · change ((d.inTxPoolRegs.insert _ _).lookup p).isSome = _
    rw [registered_inTxPoolRegs, GoMap.lookup_insert_ite, GoMap.lookup_insert_ite]
    split
    · rfl
    · exact h.registered p
  · change ((d.releasePreviousKey _ _).insert _ _).lookup k = _
    by_cases hk : k = cert.vrfKeyHash
    · rw [hk, registered_vrfOwners_self]
      exact AList.lookup_insert _
    · rw [AList.lookup_insert_ne hk]
      exact h.releasePreviousKey_lookup hcur hrec hkeys hk
  · change (d.inTxPoolVrfKeys.insert _ _).lookup p = _
    rw [GoMap.lookup_insert_ite, h.latest, registered_future_lookup, registered_current_lookup]
    by_cases hp : p = cert.operator
    · subst hp
      cases current with
      | none => simp [hrec.future_none hcur]
      | some cur => simp
    · simp [hp]
  · rw [hactive] at hk
    split at hk
    · rename_i hp
      cases hk
      subst hp
      exact ⟨_, currentRegistration_registered_self hcur, rfl⟩
    · exact (h.active p k hk).mono fun _ => currentRegistration_registered_mono hcur
  · rw [hactive] at hp
    split at hp
    · cases hp
    · rename_i hne
      rw [registered_current_lookup, if_neg fun h => hne h.1]
      exact h.inactive p hp

end

/-! ### Both rules and the view -/

variable (h : PoolAgrees base b d s)
include h

theorem PoolAgrees.activeVrfKey_eq :
    d.activeVrfKey base cert = .ok (current.getD cert).vrfKeyHash := by
  cases hact : d.inTxPoolActiveVrfKeys.lookup cert.operator with
  | some k =>
    obtain ⟨reg, hreg, rfl⟩ := h.delegation.active _ _ hact
    rw [hcur] at hreg
    cases hreg
    simp [DelegationState.activeVrfKey, hact]
  | none =>
    have hnone := h.delegation.inactive _ hact
    rcases currentRegistration_cases hcur with ⟨reg, hreg, _⟩ | ⟨_, ret, hbase⟩
    · rw [hnone] at hreg
      cases hreg
    · exact DelegationState.activeVrfKey_of_current hact hbase

theorem PoolAgrees.registerPool_of_keyFree {pp : ConwayProtocolParameters}
    (hpv : 11 ≤ pp.protocolVersionMajor) (hfree : s.KeyFree base cert) :
    d.registerPool base pp cert = .ok (d.registered cert (current.getD cert).vrfKeyHash) := by
  obtain ⟨owner, howner, hinUse⟩ := hfree.inUse
  refine (DelegationState.registerPool_eq_ok hpv).mpr
    ⟨_, h.activeVrfKey_eq hcur, fun q hq => ?_, ⟨owner, howner, fun q hq => (hinUse q hq).1⟩, rfl⟩
  have hold : d.inTxVrfKeys.lookup cert.vrfKeyHash = some q := by
    unfold DelegationState.releasePreviousKey at hq
    cases hl : d.inTxPoolVrfKeys.lookup cert.operator with
    | none => rwa [hl] at hq
    | some previousKey =>
      rw [hl] at hq
      dsimp only at hq
      split at hq
      · rename_i hcond
        rwa [AList.lookup_erase_ne hcond.1.symm] at hq
      · exact hq
  rw [h.delegation.owners] at hold
  exact (hfree.claimed q hold).1

theorem PoolAgrees.register (hfree : s.KeyFree base cert) (hb : b.Registered b' cert current) :
    PoolAgrees base b' (d.registered cert (current.getD cert).vrfKeyHash)
      (s.registered cert current) :=
  ⟨h.records.register hcur hb, h.keys.register hcur h.records hfree hb,
    h.delegation.register hcur h.records h.keys⟩

end

section

variable (h : PoolAgrees base b d s)
include h

section

variable {pp : ConwayProtocolParameters} {slot : UInt64} (hpv : 11 ≤ pp.protocolVersionMajor)
include hpv

theorem PoolAgrees.accepts_registration : ((∃ d', d.registerPool base pp cert = .ok d') ∧
      ∃ s', poolRuleStep slot base pp.toProtocolParameters s (.poolRegistration cert) = .ok s') ↔
    validatePoolParameters cert base.networkId pp.toProtocolParameters = .ok () ∧
      s.KeyFree base cert ∧ ∃ current, s.currentRegistration base cert.operator = .ok current := by
  constructor
  · rintro ⟨_, s', hs'⟩
    obtain ⟨hparams, hfree, current, hcur, _⟩ := (poolRuleStep_registration hpv).mp hs'
    exact ⟨hparams, hfree, current, hcur⟩
  · rintro ⟨hparams, hfree, current, hcur⟩
    exact ⟨⟨_, h.registerPool_of_keyFree hcur hpv hfree⟩, _,
      (poolRuleStep_registration hpv).mpr ⟨hparams, hfree, current, hcur, rfl⟩⟩

/-- A registration is accepted after earlier certificates of its transaction
exactly when it is accepted alone on the view they produce. -/
theorem PoolAgrees.registration_iff : ((∃ d', d.registerPool base pp cert = .ok d') ∧
      ∃ s', poolRuleStep slot base pp.toProtocolParameters s (.poolRegistration cert) = .ok s') ↔
    ((∃ d', ({} : DelegationState).registerPool b.toLedgerState pp cert = .ok d') ∧
      ∃ s', poolRuleStep slot b.toLedgerState pp.toProtocolParameters {}
        (.poolRegistration cert) = .ok s') := by
  have hnetwork : b.toLedgerState.networkId = base.networkId := by
    rw [← h.records.base_eq]
    rfl
  rw [h.accepts_registration hpv, (poolAgrees_init b.toLedgerState).accepts_registration hpv,
    hnetwork, h.keyFree_iff, h.currentRegistration_eq]

end

end

end Registration

/-! ## Other certificates -/

theorem RecordsAgree.of_pools (h : RecordsAgree base b s) (hbase : b'.base = b.base)
    (hpool : ∀ p, (b'.pool p).registrationKnown = (b.pool p).registrationKnown ∧
      (b'.pool p).registration = (b.pool p).registration ∧ (b'.pool p).future = (b.pool p).future ∧
      ((b.pool p).retirementKnown → (b'.pool p).retirementKnown)) : RecordsAgree base b' s := by
  refine ⟨hbase.trans h.base_eq, fun p => ?_, fun p hp => ?_, fun p => ?_, h.registered, h.new,
    h.again⟩
  · rw [(hpool p).1, (hpool p).2.1]
    exact h.current p
  · rw [(hpool p).1] at hp
    obtain ⟨hsome, hret⟩ := h.known p hp
    rw [(hpool p).2.1]
    exact ⟨hsome, (hpool p).2.2.2 hret⟩
  · rw [(hpool p).2.2.1]
    exact h.future p

theorem DelegationAgrees.congr (h : DelegationAgrees base d s) (hd : d'.poolMaps = d.poolMaps) :
    DelegationAgrees base d' s := by
  simp only [DelegationState.poolMaps, Prod.mk.injEq] at hd
  obtain ⟨hregs, hkeys, hlatest, hactive⟩ := hd
  exact ⟨hregs ▸ h.registered, hkeys ▸ h.owners, hlatest ▸ h.latest, hactive ▸ h.active,
    hactive ▸ h.inactive⟩

theorem PoolAgrees.frame (h : PoolAgrees base b d s) (hb : b'.poolPart = b.poolPart)
    (hd : d'.poolMaps = d.poolMaps) : PoolAgrees base b' d' s := by
  simp only [poolPart, Prod.mk.injEq] at hb
  obtain ⟨hbase, hpools, hkeys, hreleased⟩ := hb
  have hpool : ∀ p, b'.pool p = b.pool p := by
    intro p
    simp only [pool, hpools]
  refine ⟨h.records.of_pools hbase fun p => ?_, ⟨?_, h.keys.future_owned, h.keys.claimed, ?_⟩,
    h.delegation.congr hd⟩
  · rw [hpool]
    exact ⟨rfl, rfl, rfl, id⟩
  · rw [hkeys]
    exact h.keys.owners
  · rw [hreleased]
    exact h.keys.released

theorem PoolAgrees.retire (h : PoolAgrees base b d s) (p : PoolKeyHash) (epoch : UInt64)
    (hd : d'.poolMaps = d.poolMaps) : PoolAgrees base (b.applyPoolRetirement p epoch) d' s := by
  have hpool : ∀ q, (b.applyPoolRetirement p epoch).pool q =
      if q = p then { b.pool p with retirementEpoch := some epoch, retirementKnown := true }
      else b.pool q := by
    intro q
    simp [applyPoolRetirement]
  refine ⟨h.records.of_pools rfl fun q => ?_, ?_, h.delegation.congr hd⟩
  · rw [hpool]
    by_cases hq : q = p <;> simp [hq]
  · exact { h.keys with }

/-! ## Registered pools -/

/-- A pool that the state still knows but no longer reports as registered: its
retirement epoch has been reached. -/
def StalePool (base : LedgerState) (p : PoolKeyHash) : Prop :=
  base.isPoolRegistered p = false ∧ ∃ reg ret, base.poolCurrentState p = .ok (some reg, ret)

section

variable (h : PoolAgrees base b d s)
include h

theorem PoolAgrees.isPoolRegistered_eq (p : PoolKeyHash) :
    b.isPoolRegistered p = ((s.current.lookup p).isSome || base.isPoolRegistered p) := by
  rw [BlockLedgerState.isPoolRegistered_eq, h.records.base_eq, h.records.current]
  cases (b.pool p).registrationKnown with
  | true => rfl
  | false => rfl

theorem PoolAgrees.not_registered_of_stale (hp : StalePool base p) :
    b.isPoolRegistered p = false := by
  obtain ⟨hbase, reg, ret, hcur⟩ := hp
  rw [h.isPoolRegistered_eq, hbase, Bool.or_false, ← Bool.not_eq_true]
  intro hnew
  obtain ⟨ret', hnone⟩ := h.records.new p hnew
  rw [hcur] at hnone
  cases hnone

theorem PoolAgrees.isRegistered_iff :
    s.isRegistered base p ↔
      b.isPoolRegistered p ∨ ((s.inTxPoolRegs.lookup p).isSome ∧ StalePool base p) := by
  unfold PoolRuleState.isRegistered StalePool
  rw [h.isPoolRegistered_eq, Bool.or_eq_true, Bool.or_eq_true, h.records.registered]
  constructor
  · rintro (hbase | hcur | hfuture)
    · exact .inl (.inr hbase)
    · exact .inl (.inl hcur)
    · cases hb : base.isPoolRegistered p with
      | true => exact .inl (.inr rfl)
      | false =>
        rcases h.records.again p hfuture with hcur | hknown
        · exact .inl (.inl hcur)
        · exact .inr ⟨.inr hfuture, rfl, hknown⟩
  · rintro ((hcur | hbase) | ⟨hregs, _⟩)
    · exact .inr (.inl hcur)
    · exact .inl hbase
    · exact .inr hregs

theorem PoolAgrees.delegation_isPoolRegistered (p : PoolKeyHash) :
    d.isPoolRegistered base p = s.isRegistered base p := by
  unfold DelegationState.isPoolRegistered PoolRuleState.isRegistered
  rw [h.delegation.registered]

end

end Agrees

end Gouroboros.Ledger.Conway

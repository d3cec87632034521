import Gouroboros.Lib.ExclusiveKeys
import Gouroboros.Ledger.Common.BlockPools
import Gouroboros.Ledger.Shelley.PoolSteps

/-!
# VRF keys stay unique across pools

A pool holds the VRF key of its current registration and the key of its latest
pending re-registration. The POOL rule keeps these keys exclusive with three
maps that live in different places: the owners seen in the transaction, and the
claimed and released keys of the block-scoped view, over the index of the
wrapped state.

`Consistent` ties the view's maps to the holders, and `TxView` those of the POOL
rule to the view the transaction produces. An accepted registration is one of
`KeyHolders` that its guard allows (`canRegister_of_keyFree`).
-/

namespace Gouroboros.Ledger.Shelley

open BlockLedgerState ExceptFold

/-! ## Holders -/

/-- The keys of the wrapped state, as the two indexes report them: the current
and the pending key of each pool, no key with two pools. -/
structure VrfIndex (base : LedgerState) where
  current : PoolKeyHash → Option VrfKeyHash
  future : PoolKeyHash → Option VrfKeyHash
  futureState : VrfKeyIndex
  current_eq : ∀ p reg retirement, base.poolCurrentState p = .ok (reg, retirement) →
    reg.map (·.vrfKeyHash) = current p
  inUse : ∀ k, ∃ owner, base.isVrfKeyInUse k = .ok owner ∧
    ∀ p, owner = some p ↔ current p = some k
  future_some : base.isFutureVrfKeyInUse? = some futureState
  futureInUse : ∀ k, ∃ owner, futureState k = .ok owner ∧
    ∀ p, owner = some p ↔ future p = some k
  exclusive : (KeyHolders.mk current future).Exclusive

variable {base : LedgerState} (idx : VrfIndex base)

def currentKey (b : BlockLedgerState) (p : PoolKeyHash) : Option VrfKeyHash :=
  if (b.pool p).registrationKnown then (b.pool p).registration.map (·.vrfKeyHash)
  else idx.current p

/-- The key of the pool's latest pending re-registration in the view. -/
def futureKey (b : BlockLedgerState) (p : PoolKeyHash) : Option VrfKeyHash :=
  (b.futureVrfKey? p).or (idx.future p)

def holders (b : BlockLedgerState) : KeyHolders PoolKeyHash VrfKeyHash where
  current := currentKey idx b
  future := futureKey idx b

variable {idx} {b b' b₀ : BlockLedgerState} {p q : PoolKeyHash} {k : VrfKeyHash}

theorem currentKey_of_poolCurrentState (hbase : b.base = base)
    {reg : Option PoolRegistrationCertificate} {ret : Option UInt64}
    (h : b.poolCurrentState p = .ok (reg, ret)) : reg.map (·.vrfKeyHash) = currentKey idx b p := by
  rw [poolCurrentState_eq, hbase] at h
  unfold currentKey
  split at h
  · rename_i hknown
    cases h
    rw [if_pos hknown.1]
  · cases hq : base.poolCurrentState p with
    | error e =>
      rw [hq] at h
      cases h
    | ok q =>
      rw [hq] at h
      cases h
      have hcur := idx.current_eq p q.1 q.2 hq
      by_cases hk : (b.pool p).registrationKnown
      · simp [hk]
      · simp [hk, hcur]

/-! ## The view's maps -/

variable (idx) in
/-- The claimed and released keys of the view agree with the holders. -/
structure Consistent (b : BlockLedgerState) : Prop where
  base_eq : b.base = base
  exclusive : (holders idx b).Exclusive
  claimed : ∀ k p, b.vrfKeys.lookup k = some p →
    currentKey idx b p = some k ∨ b.futureVrfKey? p = some k
  released : ∀ k, (b.vrfReleased.lookup k).isSome → ∀ p, ¬ (holders idx b).Holds p k
  current_claimed : ∀ k p, currentKey idx b p = some k → b.vrfKeys.lookup k = some p ∨
    (b.vrfKeys.lookup k = none ∧ idx.current p = some k)
  future_claimed : ∀ k p, futureKey idx b p = some k → b.vrfKeys.lookup k = some p ∨
    (b.vrfKeys.lookup k = none ∧ b.futureVrfKey? p = none)
  registered : ∀ p, (b.pool p).registrationKnown = true → idx.current p = none

theorem consistent_new (idx : VrfIndex base) : Consistent idx (newBlockLedgerState base) := by
  have hcur : ∀ p, currentKey idx (newBlockLedgerState base) p = idx.current p := fun _ => rfl
  refine ⟨rfl, idx.exclusive, ?_, ?_, ?_, ?_, ?_⟩
  · intro k p h
    exact absurd h (by simp [newBlockLedgerState])
  · intro k h
    exact absurd h (by simp [newBlockLedgerState])
  · intro k p h
    exact .inr ⟨by simp [newBlockLedgerState], (hcur p).symm.trans h⟩
  · intro k p h
    exact .inr ⟨by simp [newBlockLedgerState], rfl⟩
  · intro p h
    exact absurd h (by simp [newBlockLedgerState, pool])

theorem Consistent.not_released_of_holds (hc : Consistent idx b) (h : (holders idx b).Holds p k) :
    b.vrfReleased.lookup k = none := by
  cases hr : b.vrfReleased.lookup k with
  | none => rfl
  | some u => exact absurd h (hc.released k (by simp [hr]) p)

theorem holds_of_futureVrfKey? (h : b.futureVrfKey? p = some k) : (holders idx b).Holds p k :=
  .inr (by simp [holders, futureKey, h])

section

variable (hc : Consistent idx b)
include hc

theorem Consistent.holds_of_isVrfKeyInUse (h : b.isVrfKeyInUse k = .ok (some p)) :
    (holders idx b).Holds p k := by
  unfold isVrfKeyInUse at h
  split at h
  · rename_i pool hclaimed
    cases h
    rcases hc.claimed k p hclaimed with hcur | hfut
    · exact .inl hcur
    · exact holds_of_futureVrfKey? hfut
  · split at h
    · cases h
    · -- The wrapped state reports its own current key, which the block kept.
      rw [hc.base_eq] at h
      obtain ⟨owner, howner, hiff⟩ := idx.inUse k
      rw [howner] at h
      have hcur : idx.current p = some k := (hiff p).mp (Except.ok.inj h)
      have hunknown : (b.pool p).registrationKnown = false := by
        by_contra hne
        rw [hc.registered p (by simpa using hne)] at hcur
        cases hcur
      exact .inl (by simp [holders, currentKey, hunknown, hcur])

theorem Consistent.holds_of_isFutureVrfKeyInUse (h : b.isFutureVrfKeyInUse k = .ok (some p)) :
    (holders idx b).Holds p k := by
  unfold isFutureVrfKeyInUse at h
  rw [hc.base_eq, idx.future_some] at h
  dsimp only at h
  unfold isFutureVrfKeyInUseOver at h
  split at h
  · rename_i pool hclaimed
    cases h
    rw [Option.filter_eq_some_iff] at hclaimed
    exact holds_of_futureVrfKey? (by simpa using hclaimed.2)
  · split at h
    · cases h
    · obtain ⟨owner, howner, hiff⟩ := idx.futureInUse k
      obtain ⟨found, hfound, hrest⟩ := bind_eq_ok.mp h
      rw [howner] at hfound
      cases hfound
      cases owner with
      | none => cases hrest
      | some pool =>
        dsimp only at hrest
        split at hrest
        · rename_i future hfuture
          split at hrest
          · cases hrest
          · rename_i hne
            cases hrest
            exact holds_of_futureVrfKey? (by simpa using hfuture.trans (congrArg some (not_not.mp hne)))
        · rename_i hnone
          cases hrest
          exact .inr (by simp [holders, futureKey, hnone, (hiff p).mp rfl])

theorem Consistent.isVrfKeyInUse_of_currentKey
    (h : currentKey idx b p = some k) : b.isVrfKeyInUse k = .ok (some p) := by
  have hrel := hc.not_released_of_holds (.inl h)
  unfold isVrfKeyInUse
  rcases hc.current_claimed k p h with hclaimed | ⟨hnone, hcur⟩
  · simp [hclaimed]
  · obtain ⟨owner, howner, hiff⟩ := idx.inUse k
    simp [hnone, hrel, hc.base_eq, howner, (hiff p).mpr hcur]

theorem Consistent.reports_of_futureKey (h : futureKey idx b p = some k) :
    b.isVrfKeyInUse k = .ok (some p) ∨ b.isFutureVrfKeyInUse k = .ok (some p) := by
  have hrel := hc.not_released_of_holds (.inr h)
  rcases hc.future_claimed k p h with hclaimed | ⟨hnone, hfut⟩
  · exact .inl (by simp [isVrfKeyInUse, hclaimed])
  · right
    have hbase : idx.future p = some k := by simpa [futureKey, hfut] using h
    obtain ⟨owner, howner, hiff⟩ := idx.futureInUse k
    have hown : owner = some p := (hiff p).mpr hbase
    unfold isFutureVrfKeyInUse
    rw [hc.base_eq, idx.future_some]
    simp [isFutureVrfKeyInUseOver, hnone, hrel, howner, hown, hfut, bind, Except.bind]

theorem Consistent.reports_iff (k : VrfKeyHash) (p : PoolKeyHash) :
    (b.isVrfKeyInUse k = .ok (some p) ∨ b.isFutureVrfKeyInUse k = .ok (some p)) ↔
      (holders idx b).Holds p k := by
  constructor
  · rintro (h | h)
    · exact hc.holds_of_isVrfKeyInUse h
    · exact hc.holds_of_isFutureVrfKeyInUse h
  · rintro (h | h)
    · exact .inl (hc.isVrfKeyInUse_of_currentKey h)
    · exact hc.reports_of_futureKey h

end

/-! ## Registrations -/

section Registration

variable {cert : PoolRegistrationCertificate} {current : Option PoolRegistrationCertificate}

variable (idx) in
theorem currentKey_registered (hb : b.Registered b' cert current) (q : PoolKeyHash) :
    currentKey idx b' q = if q = cert.operator ∧ current = none then some cert.vrfKeyHash
      else currentKey idx b q := by
  unfold currentKey
  rw [hb.pool_eq]
  by_cases hq : q = cert.operator
  · cases current <;> simp [hq, registeredPool]
  · simp [hq]

theorem futureVrfKey?_registered (hb : b.Registered b' cert current) (q : PoolKeyHash) :
    b'.futureVrfKey? q = if q = cert.operator ∧ current ≠ none then some cert.vrfKeyHash
      else b.futureVrfKey? q := by
  rw [futureVrfKey?_eq, futureVrfKey?_eq, hb.pool_eq]
  by_cases hq : q = cert.operator
  · cases current <;> simp [hq, registeredPool]
  · simp [hq]

theorem holders_registered (hb : b.Registered b' cert current)
    (hkey : current.map (·.vrfKeyHash) = currentKey idx b cert.operator) :
    holders idx b' = (holders idx b).register cert.operator cert.vrfKeyHash := by
  unfold KeyHolders.register
  rw [show (holders idx b).current cert.operator = _ from hkey.symm]
  unfold holders
  cases current with
  | none =>
    congr 1
    · funext q
      simp [currentKey_registered idx hb, Function.update_apply]
    · funext q
      simp [futureKey, futureVrfKey?_registered hb]
  | some cur =>
    congr 1
    · funext q
      simp [currentKey_registered idx hb]
    · funext q
      by_cases hq : q = cert.operator <;>
        simp [futureKey, futureVrfKey?_registered hb, hq]

theorem supersedes_iff :
    b.Supersedes cert current k ↔ ∃ cur, current = some cur ∧
      b.futureVrfKey? cert.operator = some k ∧ k ≠ cert.vrfKeyHash ∧ k ≠ cur.vrfKeyHash := by
  simp [Supersedes, supersededVrfKey?, Option.filter_eq_some_iff]

theorem Consistent.eq_operator_of_supersedes (hc : Consistent idx b)
    (hs : b.Supersedes cert current k) (hq : (holders idx b).Holds q k) : q = cert.operator := by
  obtain ⟨_, _, hfut, _⟩ := supersedes_iff.mp hs
  exact hc.exclusive q cert.operator k hq (holds_of_futureVrfKey? hfut)

theorem Consistent.not_supersedes (hc : Consistent idx b)
    (hkey : current.map (·.vrfKeyHash) = currentKey idx b cert.operator)
    (h : currentKey idx b p = some k) : ¬ b.Supersedes cert current k := by
  intro hs
  have hp := hc.eq_operator_of_supersedes hs (.inl h)
  obtain ⟨cur, rfl, _, _, hne⟩ := supersedes_iff.mp hs
  rw [hp, ← hkey] at h
  exact hne (Option.some.inj h).symm

theorem Consistent.register (hc : Consistent idx b)
    (hcan : (holders idx b).CanRegister cert.operator cert.vrfKeyHash)
    (hkey : current.map (·.vrfKeyHash) = currentKey idx b cert.operator)
    (hb : b.Registered b' cert current) : Consistent idx b' := by
  have hcurKey := currentKey_registered idx hb
  have hfutKey := futureVrfKey?_registered hb
  have hholders := holders_registered hb hkey
  refine ⟨hb.base_eq.trans hc.base_eq, ?_, fun k p hk => ?_, fun k hk p hp => ?_,
    fun k p hk => ?_, fun k p hk => ?_, fun p hp => ?_⟩
  · rw [hholders]
    exact hc.exclusive.register hcan
  · rw [hcurKey, hfutKey]
    by_cases hkk : k = cert.vrfKeyHash
    · rw [hkk, hb.vrfKeys_self] at hk
      cases hk
      cases current <;> simp [hkk]
    · have hns : ¬ b.Supersedes cert current k := by
        intro hs
        rw [hb.vrfKeys_superseded k hkk hs] at hk
        cases hk
      rw [hb.vrfKeys_other k hkk hns] at hk
      rcases hc.claimed k p hk with hcur | hfut
      · left
        rw [if_neg]
        · exact hcur
        · rintro ⟨rfl, rfl⟩
          rw [← hkey] at hcur
          cases hcur
      · by_cases hp : p = cert.operator ∧ current ≠ none
        · -- The pending key was not superseded, so it is the current key too.
          obtain ⟨cur, rfl⟩ := Option.ne_none_iff_exists'.mp hp.2
          obtain ⟨rfl, -⟩ := hp
          have hkc : k = cur.vrfKeyHash := by
            by_contra hne
            exact hns (supersedes_iff.mpr ⟨cur, rfl, hfut, hkk, hne⟩)
          left
          rw [if_neg (by simp), ← hkey, hkc]
          rfl
        · exact .inr ((if_neg hp).trans hfut)
  · obtain ⟨hkk, hk⟩ := (hb.vrfReleased_iff k).mp hk
    have hold : (holders idx b).Holds p k := by
      rw [hholders] at hp
      rcases KeyHolders.holds_of_holds_register hp with ⟨_, h⟩ | h
      · exact absurd h hkk
      · exact h
    rcases hk with hs | hk
    · have hpo := hc.eq_operator_of_supersedes hs hold
      obtain ⟨cur, rfl, _⟩ := supersedes_iff.mp hs
      rcases hp with hp | hp
      · exact hc.not_supersedes hkey (((hcurKey p).trans (if_neg (by simp))).symm.trans hp) hs
      · simp only [holders, futureKey, hfutKey, hpo] at hp
        exact hkk (Option.some.inj hp).symm
    · exact hc.released k hk p hold
  · rw [hcurKey] at hk
    split at hk
    · rename_i hp
      cases hk
      rw [hp.1]
      exact .inl hb.vrfKeys_self
    · by_cases hkk : k = cert.vrfKeyHash
      · rw [hkk] at hk ⊢
        rw [hb.vrfKeys_self, (hcan p (.inl hk)).1]
        exact .inl rfl
      · rw [hb.vrfKeys_other k hkk (hc.not_supersedes hkey hk)]
        exact hc.current_claimed k p hk
  · by_cases hp : p = cert.operator ∧ current ≠ none
    · simp only [futureKey, hfutKey, if_pos hp, Option.some_or, Option.some.injEq] at hk
      rw [← hk, hp.1]
      exact .inl hb.vrfKeys_self
    · have hold : futureKey idx b p = some k := by simpa only [futureKey, hfutKey, if_neg hp] using hk
      have hkk : k ≠ cert.vrfKeyHash := by
        rintro rfl
        obtain ⟨hpo, hcur⟩ := hcan p (.inr hold)
        refine hp ⟨hpo, ?_⟩
        rintro rfl
        rw [show (holders idx b).current cert.operator = _ from hkey.symm] at hcur
        cases hcur
      have hns : ¬ b.Supersedes cert current k := by
        intro hs
        refine hp ⟨hc.eq_operator_of_supersedes hs (.inr hold), ?_⟩
        obtain ⟨cur, rfl, _⟩ := supersedes_iff.mp hs
        exact Option.some_ne_none cur
      rw [hb.vrfKeys_other k hkk hns, hfutKey, if_neg hp]
      exact hc.future_claimed k p hold
  · rw [hb.pool_eq] at hp
    by_cases hpo : p = cert.operator
    · rw [hpo]
      by_cases hknown : (b.pool cert.operator).registrationKnown
      · exact hc.registered _ hknown
      · cases current with
        | none => simpa [currentKey, hknown] using hkey.symm
        | some cur => simp [hpo, registeredPool, hknown] at hp
    · rw [if_neg hpo] at hp
      exact hc.registered p hp

end Registration

/-! ## Effects that register nothing -/

structure SameKeys (b b' : BlockLedgerState) : Prop where
  base : b'.base = b.base
  vrfKeys : b'.vrfKeys = b.vrfKeys
  vrfReleased : b'.vrfReleased = b.vrfReleased
  registrationKnown : ∀ p, (b'.pool p).registrationKnown = (b.pool p).registrationKnown
  registration : ∀ p, (b'.pool p).registration = (b.pool p).registration
  future : ∀ p, (b'.pool p).future = (b.pool p).future

theorem sameKeys_of_poolPart (h : b'.poolPart = b.poolPart) : SameKeys b b' := by
  simp only [poolPart, Prod.mk.injEq] at h
  obtain ⟨hbase, hpools, hkeys, hrel⟩ := h
  have hpool : ∀ p, b'.pool p = b.pool p := fun p => by
    simp [pool, hpools]
  exact ⟨hbase, hkeys, hrel, fun p => by rw [hpool], fun p => by rw [hpool],
    fun p => by rw [hpool]⟩

theorem sameKeys_applyPoolRetirement (b : BlockLedgerState) (p : PoolKeyHash) (epoch : UInt64) :
    SameKeys b (b.applyPoolRetirement p epoch) := by
  refine ⟨rfl, rfl, rfl, ?_, ?_, ?_⟩
  all_goals
    intro q
    unfold applyPoolRetirement
    rw [pool_setPool]
    split
    · rename_i hq
      rw [hq]
    · rfl

theorem SameKeys.currentKey_eq (h : SameKeys b b') (p : PoolKeyHash) :
    currentKey idx b' p = currentKey idx b p := by
  simp [currentKey, h.registrationKnown, h.registration]

theorem SameKeys.futureVrfKey?_eq (h : SameKeys b b') (p : PoolKeyHash) :
    b'.futureVrfKey? p = b.futureVrfKey? p := by
  rw [BlockLedgerState.futureVrfKey?_eq, BlockLedgerState.futureVrfKey?_eq, h.future]

theorem SameKeys.holders_eq (h : SameKeys b b') : holders idx b' = holders idx b := by
  unfold holders
  congr 1
  · exact funext h.currentKey_eq
  · funext p
    simp [futureKey, h.futureVrfKey?_eq]

theorem Consistent.of_sameKeys (hc : Consistent idx b) (h : SameKeys b b') : Consistent idx b' := by
  have hfut : ∀ p, futureKey idx b' p = futureKey idx b p := by
    intro p
    simp [futureKey, h.futureVrfKey?_eq]
  refine ⟨h.base.trans hc.base_eq, ?_, ?_, ?_, ?_, ?_, ?_⟩
  · rw [h.holders_eq]
    exact hc.exclusive
  · intro k p hk
    rw [h.currentKey_eq, h.futureVrfKey?_eq]
    exact hc.claimed k p (h.vrfKeys ▸ hk)
  · intro k hk p
    rw [h.holders_eq]
    exact hc.released k (h.vrfReleased ▸ hk) p
  · intro k p hk
    rw [h.vrfKeys]
    exact hc.current_claimed k p ((h.currentKey_eq p).symm.trans hk)
  · intro k p hk
    rw [h.vrfKeys, h.futureVrfKey?_eq]
    exact hc.future_claimed k p ((hfut p).symm.trans hk)
  · intro p hp
    exact hc.registered p ((h.registrationKnown p).symm.trans hp)

/-! ## The maps of the POOL rule -/

variable (idx) in
/-- The rule's maps over the view `b₀` the transaction starts from, against the
view `b` that its certificates so far produce. -/
structure TxView (b₀ b : BlockLedgerState) (s : PoolCertificateState) : Prop where
  current_some : ∀ p c, s.current.lookup p = some c → currentKey idx b p = some c.vrfKeyHash
  current_none : ∀ p, s.current.lookup p = none → currentKey idx b p = currentKey idx b₀ p
  future_some : ∀ p c, s.future.lookup p = some c → b.futureVrfKey? p = some c.vrfKeyHash
  future_none : ∀ p, s.future.lookup p = none → b.futureVrfKey? p = b₀.futureVrfKey? p
  current_owner : ∀ p c, s.current.lookup p = some c → s.vrfOwners.lookup c.vrfKeyHash = some p
  future_owner : ∀ p c, s.future.lookup p = some c → s.vrfOwners.lookup c.vrfKeyHash = some p

theorem txView_init (idx : VrfIndex base) (b₀ : BlockLedgerState) : TxView idx b₀ b₀ {} := by
  refine ⟨?_, fun _ _ => rfl, ?_, fun _ _ => rfl, ?_, ?_⟩
  all_goals
    intro p c h
    simp at h

variable {s : PoolCertificateState}

theorem TxView.of_sameKeys (hv : TxView idx b₀ b s) (h : SameKeys b b') : TxView idx b₀ b' s :=
  ⟨fun p c hp => (h.currentKey_eq p).trans (hv.current_some p c hp),
    fun p hp => (h.currentKey_eq p).trans (hv.current_none p hp),
    fun p c hp => (h.futureVrfKey?_eq p).trans (hv.future_some p c hp),
    fun p hp => (h.futureVrfKey?_eq p).trans (hv.future_none p hp),
    hv.current_owner, hv.future_owner⟩

theorem TxView.currentRegistration (hv : TxView idx b₀ b s) (hc₀ : Consistent idx b₀)
    {c : Option PoolRegistrationCertificate}
    (h : s.currentRegistration b₀.toLedgerState p = .ok c) :
    c.map (·.vrfKeyHash) = currentKey idx b p := by
  rcases PoolCertificateState.currentRegistration_cases h with ⟨reg, hs, rfl⟩ | ⟨hs, ret, hq⟩
  · exact (hv.current_some p reg hs).symm
  · rw [hv.current_none p hs]
    exact currentKey_of_poolCurrentState hc₀.base_eq hq

variable {cert : PoolRegistrationCertificate}

theorem TxView.own_of_ownKey (hv : TxView idx b₀ b s) (hc₀ : Consistent idx b₀)
    (h : s.OwnKey b₀.toLedgerState cert q) :
    q = cert.operator ∧ currentKey idx b cert.operator = some cert.vrfKeyHash := by
  obtain ⟨hq, current, hcur, hkey⟩ := h
  exact ⟨hq, (hv.currentRegistration hc₀ hcur).symm.trans hkey⟩

/-- A registration the POOL rule accepts claims a key that is free in the view
its transaction has produced so far, or the pool's own current key. -/
theorem canRegister_of_keyFree (hv : TxView idx b₀ b s) (hc₀ : Consistent idx b₀)
    (h : s.KeyFree b₀.toLedgerState cert) :
    (holders idx b).CanRegister cert.operator cert.vrfKeyHash := by
  obtain ⟨hclaimed, ⟨used, hused, hinUse⟩, _, ⟨⟩, deferred, hdeferred, hfuture⟩ := h
  have hcurrent : ∀ q, b₀.isVrfKeyInUse cert.vrfKeyHash = .ok (some q) →
      s.OwnKey b₀.toLedgerState cert q :=
    fun q hq => hinUse q (Except.ok.inj (hused.symm.trans hq))
  rintro q (hcur | hfut)
  · -- A current key is an owner of this transaction, or in use in the starting view.
    change currentKey idx b q = _ at hcur
    cases hs : s.current.lookup q with
    | some c =>
      rw [hv.current_some q c hs] at hcur
      have howner := hv.current_owner q c hs
      rw [Option.some.inj hcur] at howner
      exact hv.own_of_ownKey hc₀ (hclaimed q howner)
    | none =>
      have hold := (hv.current_none q hs).symm.trans hcur
      exact hv.own_of_ownKey hc₀ (hcurrent q (hc₀.isVrfKeyInUse_of_currentKey hold))
  · -- A pending key likewise; the starting view's is skipped only when replaced.
    change futureKey idx b q = some cert.vrfKeyHash at hfut
    cases hs : s.future.lookup q with
    | some c =>
      rw [futureKey, hv.future_some q c hs, Option.some_or] at hfut
      have howner := hv.future_owner q c hs
      rw [Option.some.inj hfut] at howner
      exact hv.own_of_ownKey hc₀ (hclaimed q howner)
    | none =>
      rw [futureKey, hv.future_none q hs] at hfut
      rcases hc₀.reports_of_futureKey hfut with hq | hq
      · exact hv.own_of_ownKey hc₀ (hcurrent q hq)
      · rcases hfuture q (Except.ok.inj (hdeferred.symm.trans hq)) with hrep | hown
        · simp [PoolCertificateState.replaced, hs] at hrep
        · exact hv.own_of_ownKey hc₀ hown

theorem TxView.register {s : PoolRuleState} (hv : TxView idx b₀ b s.toPoolCertificateState)
    {current current' : Option PoolRegistrationCertificate}
    (hcan : (holders idx b).CanRegister cert.operator cert.vrfKeyHash)
    (hkey : current.map (·.vrfKeyHash) = currentKey idx b cert.operator)
    (hkey' : current'.map (·.vrfKeyHash) = currentKey idx b cert.operator)
    (hb : b.Registered b' cert current') :
    TxView idx b₀ b' (s.registered cert current).toPoolCertificateState := by
  have hnone : current' = none ↔ current = none := by
    rw [← Option.map_eq_none_iff, hkey', ← hkey, Option.map_eq_none_iff]
  have hcurKey := currentKey_registered idx hb
  have hfutKey := futureVrfKey?_registered hb
  simp only [hnone, ne_eq] at hcurKey hfutKey
  refine ⟨fun p c hp => ?_, fun p hp => ?_, fun p c hp => ?_, fun p hp => ?_, fun p c hp => ?_,
    fun p c hp => ?_⟩
  · rw [registered_current_lookup] at hp
    rw [hcurKey]
    split_ifs at hp ⊢
    · cases hp
      rfl
    · exact hv.current_some p c hp
  · rw [registered_current_lookup] at hp
    rw [hcurKey]
    split_ifs at hp ⊢
    exact hv.current_none p hp
  · rw [registered_future_lookup] at hp
    rw [hfutKey]
    split_ifs at hp ⊢
    · cases hp
      rfl
    · exact hv.future_some p c hp
  · rw [registered_future_lookup] at hp
    rw [hfutKey]
    split_ifs at hp ⊢
    exact hv.future_none p hp
  · rw [registered_current_lookup] at hp
    split at hp
    · rename_i hpo
      cases hp
      rw [hpo.1]
      exact registered_vrfOwners_self
    · have hcur := hv.current_some p c hp
      refine registered_vrfOwners_kept ?_ ?_ (hv.current_owner p c hp)
      · rintro rfl cur rfl
        rw [← hkey] at hcur
        exact (Option.some.inj hcur).symm
      · exact fun heq => (hcan p (.inl (heq ▸ hcur))).1
  · rw [registered_future_lookup] at hp
    split at hp
    · rename_i hpo
      cases hp
      rw [hpo.1]
      exact registered_vrfOwners_self
    · rename_i hpo
      have hfut := hv.future_some p c hp
      refine registered_vrfOwners_kept ?_ ?_ (hv.future_owner p c hp)
      · rintro rfl cur rfl
        exact absurd ⟨rfl, Option.some_ne_none cur⟩ hpo
      · exact fun heq => (hcan p (holds_of_futureVrfKey? (heq ▸ hfut))).1

/-! ## Runs -/

variable {pp : ProtocolParameters} {slot : UInt64}

variable {s' : PoolRuleState}

section

variable (hc₀ : Consistent idx b₀)
  (hvrf : duplicateVrfKeysDisallowed pp.protocolMajorVersion = true) {s : PoolRuleState}
  (hc : Consistent idx b) (hv : TxView idx b₀ b s.toPoolCertificateState)
include hc₀ hvrf hc hv

theorem consistent_step {cert : Certificate}
    (hrule : poolRuleStep slot b₀.toLedgerState pp s cert = .ok s')
    (happ : applyCertificate pp b cert = .ok b') :
    Consistent idx b' ∧ TxView idx b₀ b' s'.toPoolCertificateState := by
  by_cases hpool : cert.isPool
  · -- Numbering the certificate leaves the keys alone.
    have hseq : SameKeys b { b with seq := b.seq + 1 } := sameKeys_of_poolPart rfl
    have hc' := hc.of_sameKeys hseq
    have hv' := hv.of_sameKeys hseq
    cases cert with
    | poolRegistration c =>
      obtain ⟨_, hfree, current, hcur, rfl⟩ :=
        (poolRuleStep_registration (of_decide_eq_true hvrf)).mp hrule
      obtain ⟨current', ret, hcur', hb⟩ := registered_of_applyPoolRegistration happ
      have hcan := canRegister_of_keyFree hv' hc₀ hfree
      have hkey : current'.map (·.vrfKeyHash) = currentKey idx _ c.operator :=
        currentKey_of_poolCurrentState hc'.base_eq hcur'
      exact ⟨hc'.register hcan hkey hb,
        hv'.register hcan (hv'.currentRegistration hc₀ hcur) hkey hb⟩
    | poolRetirement p epoch =>
      obtain ⟨rfl, _⟩ := poolRuleStep_retirement hrule
      cases happ
      have hret := sameKeys_applyPoolRetirement { b with seq := b.seq + 1 } p epoch
      exact ⟨hc'.of_sameKeys hret, hv'.of_sameKeys hret⟩
    | _ => simp [Certificate.isPool] at hpool
  · rw [Bool.not_eq_true] at hpool
    have hsame : SameKeys b b' := sameKeys_of_poolPart (poolPart_applyCertificate hpool happ)
    rw [poolRuleStep_other hpool] at hrule
    cases hrule
    exact ⟨hc.of_sameKeys hsame, hv.of_sameKeys hsame⟩

theorem consistent_applyCertificates {certs : List Certificate}
    (hrule : certs.foldlM (poolRuleStep slot b₀.toLedgerState pp) s = .ok s')
    (happ : b.applyCertificates pp certs = .ok b') :
    Consistent idx b' ∧ TxView idx b₀ b' s'.toPoolCertificateState := by
  induction certs generalizing b s with
  | nil =>
    cases hrule
    cases happ
    exact ⟨hc, hv⟩
  | cons cert certs ih =>
    obtain ⟨t, hstep, hrest⟩ := foldlM_cons_eq_ok.mp hrule
    obtain ⟨c, hcstep, hcrest⟩ := foldlM_cons_eq_ok.mp happ
    obtain ⟨hc', hv'⟩ := consistent_step hc₀ hvrf hc hv hstep hcstep
    exact ih hc' hv' hrest hcrest

theorem consistent_applyLevels {levels : List LedgerEffectLevel}
    (hrule : (levels.flatMap (·.certificates)).foldlM (poolRuleStep slot b₀.toLedgerState pp) s = .ok s')
    (happ : levels.foldlM (applyLevel pp) b = .ok b') : Consistent idx b' := by
  induction levels generalizing b s with
  | nil =>
    cases happ
    exact hc
  | cons level levels ih =>
    obtain ⟨b₄, hlevel, hrest⟩ := foldlM_cons_eq_ok.mp happ
    obtain ⟨b₁, hw, hlevel⟩ := bind_eq_ok.mp hlevel
    obtain ⟨b₂, hcerts, hlevel⟩ := bind_eq_ok.mp hlevel
    obtain ⟨b₃, hd, hlevel⟩ := bind_eq_ok.mp hlevel
    cases hlevel
    rw [List.flatMap_cons, List.foldlM_append] at hrule
    obtain ⟨t, hrule₁, hrule₂⟩ := bind_eq_ok.mp hrule
    have hw' := sameKeys_of_poolPart (sameBesidesAccounts_applyWithdrawals hw).pool
    obtain ⟨hc₂, hv₂⟩ := consistent_applyCertificates hc₀ hvrf (hc.of_sameKeys hw')
      (hv.of_sameKeys hw') hrule₁ hcerts
    have hd' := sameKeys_of_poolPart (sameBesidesAccounts_applyDirectDeposits hd).pool
    have hp' := sameKeys_of_poolPart
      (sameParts_recordProposals b₃ level.id level.proposalProcedures).pool
    exact ih ((hc₂.of_sameKeys hd').of_sameKeys hp') ((hv₂.of_sameKeys hd').of_sameKeys hp')
      hrule₂ hrest

end

/-- The certificates the fold applies are those the rule reads: always so for a
transaction that is its own single level. -/
def CertificatesInLevels (tx : Transaction) : Prop :=
  ∀ levels, levelsOf tx = .ok levels → levels.flatMap (·.certificates) = tx.certificates

theorem certificatesInLevels_of_single {tx : Transaction} (h : tx.ledgerEffectLevels = none) :
    CertificatesInLevels tx := by
  intro levels hl
  rw [levelsOf, h] at hl
  cases hl
  simp

/-- The views a block can reach with transactions that the POOL rule accepts,
with VRF keys checked, each validated against the view its predecessors left. -/
inductive PoolReachable (base : LedgerState) : BlockLedgerState → Prop where
  | new : PoolReachable base (newBlockLedgerState base)
  | apply {b b' : BlockLedgerState} {tx : Transaction} {slot : UInt64} {pp : ProtocolParameters} :
      PoolReachable base b →
      tx.isValid = true →
      CertificatesInLevels tx →
      duplicateVrfKeysDisallowed pp.protocolMajorVersion = true →
      utxoValidatePoolCertificates tx slot b.toLedgerState pp = .ok () →
      b.applyTransaction tx pp = .ok b' →
      PoolReachable base b'

theorem Consistent.applyTransaction {tx : Transaction} (hc : Consistent idx b)
    (hvalid : tx.isValid) (hlevels : CertificatesInLevels tx)
    (hvrf : duplicateVrfKeysDisallowed pp.protocolMajorVersion)
    (hrule : utxoValidatePoolCertificates tx slot b.toLedgerState pp = .ok ())
    (happ : b.applyTransaction tx pp = .ok b') : Consistent idx b' := by
  obtain ⟨s, hs⟩ := (utxoValidatePoolCertificates_eq_ok hvalid).mp hrule
  unfold BlockLedgerState.applyTransaction at happ
  rw [if_neg (by simp [hvalid])] at happ
  obtain ⟨levels, hl, happ⟩ := bind_eq_ok.mp happ
  rw [← hlevels levels hl] at hs
  have hutxo := sameKeys_of_poolPart (sameBesidesUtxo_applyUtxo b tx).pool
  exact consistent_applyLevels hc hvrf (hc.of_sameKeys hutxo)
    ((txView_init idx b).of_sameKeys hutxo) hs happ

theorem PoolReachable.consistent (idx : VrfIndex base) (h : PoolReachable base b) :
    Consistent idx b := by
  induction h with
  | new => exact consistent_new idx
  | apply _ hvalid hlevels hvrf hrule happ ih =>
    exact ih.applyTransaction hvalid hlevels hvrf hrule happ

theorem Consistent.indexes_answer (hc : Consistent idx b) (k : VrfKeyHash) :
    (∃ owner, b.isVrfKeyInUse k = .ok owner) ∧ ∃ owner, b.isFutureVrfKeyInUse k = .ok owner := by
  obtain ⟨o₁, h₁, _⟩ := idx.inUse k
  obtain ⟨o₂, h₂, _⟩ := idx.futureInUse k
  constructor
  · unfold isVrfKeyInUse
    rw [hc.base_eq, h₁]
    split
    · exact ⟨_, rfl⟩
    · split <;> exact ⟨_, rfl⟩
  · unfold isFutureVrfKeyInUse
    rw [hc.base_eq, idx.future_some]
    dsimp only
    unfold isFutureVrfKeyInUseOver
    rw [h₂]
    split
    · exact ⟨_, rfl⟩
    · split
      · exact ⟨_, rfl⟩
      · cases o₂ with
        | none => exact ⟨_, rfl⟩
        | some p =>
          simp only [bind, Except.bind]
          split
          · split <;> exact ⟨_, rfl⟩
          · exact ⟨_, rfl⟩

/-- In every view a block reaches, no VRF key is held by two pools, and the two
indexes report a key in use exactly when a pool holds it, with that pool as the
owner. -/
theorem vrf_keys_exclusive (idx : VrfIndex base) (h : PoolReachable base b) :
    (∀ p q k, (holders idx b).Holds p k → (holders idx b).Holds q k → p = q) ∧
    (∀ k p, (b.isVrfKeyInUse k = .ok (some p) ∨ b.isFutureVrfKeyInUse k = .ok (some p)) ↔
      (holders idx b).Holds p k) ∧
    ∀ k, (∃ owner, b.isVrfKeyInUse k = .ok owner) ∧
      ∃ owner, b.isFutureVrfKeyInUse k = .ok owner := by
  have hc := h.consistent idx
  exact ⟨hc.exclusive, hc.reports_iff, hc.indexes_answer⟩

def emptyVrfIndex : VrfIndex LedgerState.empty where
  current := fun _ => none
  future := fun _ => none
  futureState := fun _ => .ok none
  current_eq := by
    intro p reg ret h
    cases h
    rfl
  inUse := fun k => ⟨none, rfl, by simp⟩
  future_some := rfl
  futureInUse := fun k => ⟨none, rfl, by simp⟩
  exclusive := by
    rintro p q k (h | h) <;> cases h

def zeroParameters : ProtocolParameters where
  protocolMajorVersion := 11
  keyDepositAmount := some 0
  dRepDepositAmount := some 0
  minPoolCostValue := 0
  poolRetirementMaxEpoch := 18

/-- Pool 1 registers with key 7, takes key 8 as its pending key and replaces it
by key 9; pool 2 then registers with the freed key 8. -/
def tradingCertificates : List Certificate :=
  [.poolRegistration ⟨1, 7, 0, none, none⟩, .poolRegistration ⟨1, 8, 0, none, none⟩,
    .poolRegistration ⟨1, 9, 0, none, none⟩, .poolRegistration ⟨2, 8, 0, none, none⟩]

def tradingTransaction : Transaction :=
  { Transaction.empty with certificates := tradingCertificates }

theorem vrf_keys_exclusive_trading :
    ∃ b, (newBlockLedgerState LedgerState.empty).applyTransaction tradingTransaction
        zeroParameters = .ok b ∧
      ∀ p q k, (holders emptyVrfIndex b).Holds p k → (holders emptyVrfIndex b).Holds q k →
        p = q := by
  have happ : (newBlockLedgerState LedgerState.empty).applyTransaction tradingTransaction
      zeroParameters = .ok _ := rfl
  have hrule : utxoValidatePoolCertificates tradingTransaction 0
      (newBlockLedgerState LedgerState.empty).toLedgerState zeroParameters = .ok () := by decide
  exact ⟨_, happ, (vrf_keys_exclusive emptyVrfIndex (.apply .new rfl
    (certificatesInLevels_of_single rfl) rfl hrule happ)).1⟩

/-- The level of a body that registers the pool with key 7. -/
def registeringLevel (operator : PoolKeyHash) : LedgerEffectLevel where
  id := 0
  withdrawals := ∅
  certificates := [.poolRegistration ⟨operator, 7, 0, none, none⟩]
  proposalProcedures := []
  directDeposits := []

def leveledTransaction : Transaction :=
  { Transaction.empty with
    certificates := (registeringLevel 1).certificates
    ledgerEffectLevels := some (.ok [registeringLevel 2, registeringLevel 1]) }

/-- The rule reads the certificates of the top level, and the fold applies those of every level. -/
theorem vrf_key_shared_between_levels :
    leveledTransaction.isValid = true ∧
      duplicateVrfKeysDisallowed zeroParameters.protocolMajorVersion = true ∧
      utxoValidatePoolCertificates leveledTransaction 0
        (newBlockLedgerState LedgerState.empty).toLedgerState zeroParameters = .ok () ∧
      ∃ b, (newBlockLedgerState LedgerState.empty).applyTransaction leveledTransaction
          zeroParameters = .ok b ∧
        (holders emptyVrfIndex b).Holds 1 7 ∧ (holders emptyVrfIndex b).Holds 2 7 :=
  ⟨rfl, rfl, by decide, _, rfl, .inl rfl, .inl rfl⟩

end Gouroboros.Ledger.Shelley

import Gouroboros.Ledger.Common.BlockAccounts
import Gouroboros.Ledger.Conway.Rules

/-!
# What one certificate does to the delegation rule

`DelegationState.Accepts` says when the rule accepts a certificate that is not a
pool registration, in terms of what it knows of credentials, pools and DReps;
`step_effect` says what it knows afterwards. Pool registrations are
`registerPool_eq_ok`.
-/

namespace Gouroboros.Ledger.Conway.DelegationState

open ExceptFold

variable {ls : LedgerState} {pp : ConwayProtocolParameters} {s s' : DelegationState}
  {cert : Certificate} {cred : Credential}

def targetPool : Certificate → Option PoolKeyHash
  | .stakeDelegation _ pool => some pool
  | .stakeVoteDelegation _ pool _ => some pool
  | .stakeRegistrationDelegation _ pool _ => some pool
  | .stakeVoteRegistrationDelegation _ pool _ _ => some pool
  | _ => none

def Accepts (stake : Credential → Bool) (pool : PoolKeyHash → Bool)
    (target : Drep → Except LedgerError Unit) : Certificate → Prop
  | .registration cred _ => stake cred = false
  | .stakeRegistration cred => stake cred = false
  | .stakeDelegation cred p => pool p = true ∧ ∀ c, cred = some c → stake c = true
  | .voteDelegation cred drep => stake cred = true ∧ target drep = .ok ()
  | .stakeVoteDelegation cred p drep => pool p = true ∧ stake cred = true ∧ target drep = .ok ()
  | .stakeRegistrationDelegation cred p _ => stake cred = false ∧ pool p = true
  | .voteRegistrationDelegation cred drep _ => stake cred = false ∧ target drep = .ok ()
  | .stakeVoteRegistrationDelegation cred p drep _ =>
    stake cred = false ∧ pool p = true ∧ target drep = .ok ()
  | _ => True

theorem requireStake_eq_ok : s.requireStake ls cred = .ok () ↔ s.isStakeRegistered ls cred := by
  unfold requireStake
  split <;> simp_all

theorem requirePool_eq_ok {pool : PoolKeyHash} :
    s.requirePool ls pool = .ok () ↔ s.isPoolRegistered ls pool := by
  unfold requirePool
  split <;> simp_all

theorem requireStake?_eq_ok {cred : Option Credential} :
    s.requireStake? ls cred = .ok () ↔ ∀ c, cred = some c → s.isStakeRegistered ls c := by
  unfold requireStake?
  cases cred with
  | none => simp
  | some c => simp [requireStake_eq_ok]

theorem registerStakeCredential_eq_ok :
    s.registerStakeCredential ls cred = .ok s' ↔
      s.isStakeRegistered ls cred = false ∧ s' = s.setStake cred true := by
  unfold registerStakeCredential
  rw [guard_eq_ok, Bool.not_eq_true, Except.ok.injEq, eq_comm (b := s')]

theorem registerStakeCredential_bind_eq_ok
    {f : DelegationState → Except LedgerError DelegationState} :
    (s.registerStakeCredential ls cred >>= f) = .ok s' ↔
      s.isStakeRegistered ls cred = false ∧ f (s.setStake cred true) = .ok s' := by
  rw [bind_eq_ok]
  constructor
  · rintro ⟨t, ht, hf⟩
    obtain ⟨hfree, rfl⟩ := registerStakeCredential_eq_ok.mp ht
    exact ⟨hfree, hf⟩
  · rintro ⟨hfree, hf⟩
    exact ⟨_, registerStakeCredential_eq_ok.mpr ⟨hfree, rfl⟩, hf⟩

theorem step_accepts (hcert : ∀ c, cert ≠ .poolRegistration c) :
    (∃ s', step ls pp s cert = .ok s') ↔
      Accepts (s.isStakeRegistered ls) (s.isPoolRegistered ls) (s.validateDRepTarget ls pp)
        cert := by
  -- Registering the credential first changes no answer about pools or DReps.
  have hpool : ∀ c p, (s.setStake c true).isPoolRegistered ls p = s.isPoolRegistered ls p :=
    fun _ _ => rfl
  have htarget : ∀ c d, (s.setStake c true).validateDRepTarget ls pp d =
      s.validateDRepTarget ls pp d := fun _ _ => rfl
  cases cert with
  | poolRegistration c => exact absurd rfl (hcert c)
  | registration | stakeRegistration => simp [step, Accepts, registerStakeCredential_eq_ok]
  | stakeDelegation c p => simp [step, Accepts, seq_eq_ok, requirePool_eq_ok, requireStake?_eq_ok]
  | voteDelegation c d => simp [step, Accepts, seq_eq_ok, requireStake_eq_ok]
  | stakeVoteDelegation c p d =>
    simp [step, Accepts, seq_eq_ok, requirePool_eq_ok, requireStake_eq_ok]
  | stakeRegistrationDelegation c p a =>
    simp [step, Accepts, registerStakeCredential_bind_eq_ok, seq_eq_ok, requirePool_eq_ok, hpool]
  | voteRegistrationDelegation c d a =>
    simp [step, Accepts, registerStakeCredential_bind_eq_ok, seq_eq_ok, htarget]
  | stakeVoteRegistrationDelegation c p d a =>
    simp [step, Accepts, registerStakeCredential_bind_eq_ok, seq_eq_ok,
      requirePool_eq_ok, hpool, htarget]
  | _ => simp [step, Accepts]

theorem Accepts.congr {stake stake' : Credential → Bool} {pool pool' : PoolKeyHash → Bool}
    {target target' : Drep → Except LedgerError Unit} (hstake : ∀ c, stake c = stake' c)
    (hpool : ∀ p, targetPool cert = some p → pool p = pool' p)
    (htarget : ∀ d, target d = target' d) :
    Accepts stake pool target cert ↔ Accepts stake' pool' target' cert := by
  have hs : stake = stake' := funext hstake
  have ht : target = target' := funext htarget
  subst hs ht
  cases cert with
  | stakeDelegation c p | stakeVoteDelegation c p d | stakeRegistrationDelegation c p a
  | stakeVoteRegistrationDelegation c p d a => simp only [Accepts, hpool p rfl]
  | _ => exact Iff.rfl

theorem Accepts.targetPool {stake : Credential → Bool} {pool : PoolKeyHash → Bool}
    {target : Drep → Except LedgerError Unit} {p : PoolKeyHash} (h : Accepts stake pool target cert)
    (hp : targetPool cert = some p) : pool p := by
  cases cert with
  | stakeDelegation | stakeVoteDelegation =>
    cases hp
    exact h.1
  | stakeRegistrationDelegation =>
    cases hp
    exact h.2
  | stakeVoteRegistrationDelegation =>
    cases hp
    exact h.2.1
  | _ => cases hp

/-! ## What the rule knows afterwards -/

def stakeMark (cert : Certificate) (c : Credential) (old : Bool) : Bool :=
  match cert.stakeEffect 0 with
  | some (cred, deposit) => if c = cred then deposit.isSome else old
  | none => old

def drepMark (cert : Certificate) (c : Credential) (old : Except LedgerError Bool) :
    Except LedgerError Bool :=
  match cert with
  | .registrationDrep cred _ _ => if c = cred then .ok true else old
  | .deregistrationDrep cred _ => if c = cred then .ok false else old
  | _ => old

def poolMaps (s : DelegationState) :
    GoMap PoolKeyHash Unit × GoMap Blake2b256 PoolKeyHash × GoMap PoolKeyHash Blake2b256 ×
      GoMap PoolKeyHash Blake2b256 :=
  (s.inTxPoolRegs, s.inTxVrfKeys, s.inTxPoolVrfKeys, s.inTxPoolActiveVrfKeys)

theorem isStakeRegistered_setStake (s : DelegationState) (cred c : Credential) (registered : Bool) :
    (s.setStake cred registered).isStakeRegistered ls c =
      if c = cred then registered else s.isStakeRegistered ls c := by
  unfold isStakeRegistered setStake
  rw [GoMap.lookup_insert_ite]
  by_cases hc : c = cred
  · simp [hc]
  · simp [hc]

theorem isDRepCredentialRegistered_insert (s : DelegationState) (cred c : Credential)
    (registered : Bool) :
    { s with inTxDRepRegs := s.inTxDRepRegs.insert cred registered }.isDRepCredentialRegistered
        ls c =
      if c = cred then .ok registered else s.isDRepCredentialRegistered ls c := by
  unfold isDRepCredentialRegistered
  rw [GoMap.lookup_insert_ite]
  by_cases hc : c = cred
  · simp [hc]
  · simp [hc]

theorem step_effect (hcert : ∀ c, cert ≠ .poolRegistration c) (h : step ls pp s cert = .ok s') :
    (∀ c, s'.isStakeRegistered ls c = stakeMark cert c (s.isStakeRegistered ls c)) ∧
    (∀ c, s'.isDRepCredentialRegistered ls c =
      drepMark cert c (s.isDRepCredentialRegistered ls c)) ∧
    s'.poolMaps = s.poolMaps := by
  have hset : ∀ cred registered, s' = s.setStake cred registered →
      (∀ old c, stakeMark cert c old = if c = cred then registered else old) →
      (∀ old c, drepMark cert c old = old) →
      (∀ c, s'.isStakeRegistered ls c = stakeMark cert c (s.isStakeRegistered ls c)) ∧
      (∀ c, s'.isDRepCredentialRegistered ls c =
        drepMark cert c (s.isDRepCredentialRegistered ls c)) ∧
      s'.poolMaps = s.poolMaps := by
    rintro cred registered rfl hstake hdrep
    refine ⟨fun c => ?_, fun c => ?_, rfl⟩
    · rw [isStakeRegistered_setStake, hstake]
    · rw [hdrep]
      rfl
  cases cert with
  | poolRegistration c => exact absurd rfl (hcert c)
  | registration c a | stakeRegistration c =>
    obtain ⟨_, hs'⟩ := registerStakeCredential_eq_ok.mp h
    exact hset c true hs' (fun _ _ => rfl) (fun _ _ => rfl)
  | stakeDeregistration c | deregistration c a =>
    cases h
    exact hset c false rfl (fun _ _ => rfl) (fun _ _ => rfl)
  | stakeRegistrationDelegation c p a | voteRegistrationDelegation c d a =>
    obtain ⟨_, h⟩ := registerStakeCredential_bind_eq_ok.mp h
    obtain ⟨_, h⟩ := seq_eq_ok.mp h
    exact hset c true (Except.ok.inj h).symm (fun _ _ => rfl) (fun _ _ => rfl)
  | stakeVoteRegistrationDelegation c p d a =>
    obtain ⟨_, h⟩ := registerStakeCredential_bind_eq_ok.mp h
    obtain ⟨_, h⟩ := seq_eq_ok.mp h
    obtain ⟨_, h⟩ := seq_eq_ok.mp h
    exact hset c true (Except.ok.inj h).symm (fun _ _ => rfl) (fun _ _ => rfl)
  | stakeDelegation | voteDelegation =>
    obtain ⟨_, h⟩ := seq_eq_ok.mp h
    obtain ⟨_, h⟩ := seq_eq_ok.mp h
    cases h
    exact ⟨fun _ => rfl, fun _ => rfl, rfl⟩
  | stakeVoteDelegation c p d =>
    obtain ⟨_, h⟩ := seq_eq_ok.mp h
    obtain ⟨_, h⟩ := seq_eq_ok.mp h
    obtain ⟨_, h⟩ := seq_eq_ok.mp h
    cases h
    exact ⟨fun _ => rfl, fun _ => rfl, rfl⟩
  | registrationDrep c a anchor =>
    cases h
    exact ⟨fun _ => rfl, fun d => isDRepCredentialRegistered_insert s c d true, rfl⟩
  | deregistrationDrep c a =>
    cases h
    exact ⟨fun _ => rfl, fun d => isDRepCredentialRegistered_insert s c d false, rfl⟩
  | _ =>
    cases h
    exact ⟨fun _ => rfl, fun _ => rfl, rfl⟩

theorem validateDRepTarget_congr {ls' : LedgerState} {t : DelegationState}
    (h : ∀ c, s.isDRepCredentialRegistered ls c = t.isDRepCredentialRegistered ls' c)
    (drep : Drep) : s.validateDRepTarget ls pp drep = t.validateDRepTarget ls' pp drep := by
  have hreg : s.isDRepRegistered ls drep = t.isDRepRegistered ls' drep := by
    unfold isDRepRegistered
    simp only [h]
  unfold validateDRepTarget
  rw [hreg]

/-! ## Pool registrations -/

variable {c : PoolRegistrationCertificate}

theorem checkInTxVrfKey_eq_ok {vrfKeys : GoMap Blake2b256 PoolKeyHash} :
    checkInTxVrfKey vrfKeys c = .ok () ↔
      ∀ owner, vrfKeys.lookup c.vrfKeyHash = some owner → owner = c.operator := by
  unfold checkInTxVrfKey
  cases vrfKeys.lookup c.vrfKeyHash with
  | none => simp
  | some owner => simp

theorem poolValidateVrfKeyUniqueness_eq_ok {major : Nat} (hpv : 11 ≤ major) :
    poolValidateVrfKeyUniqueness c major ls = .ok () ↔
      ∃ owner, ls.isVrfKeyInUse c.vrfKeyHash = .ok owner ∧ ∀ p, owner = some p → p = c.operator := by
  unfold poolValidateVrfKeyUniqueness
  rw [if_neg (by omega), bind_eq_ok]
  refine exists_congr fun owner => and_congr_right fun _ => ?_
  cases owner with
  | none => simp
  | some p => split <;> simp_all

def registered (s : DelegationState) (c : PoolRegistrationCertificate) (active : Blake2b256) :
    DelegationState :=
  { s with
    inTxPoolRegs := s.inTxPoolRegs.insert c.operator ()
    inTxPoolActiveVrfKeys := s.inTxPoolActiveVrfKeys.insert c.operator active
    inTxVrfKeys := (s.releasePreviousKey c active).insert c.vrfKeyHash c.operator
    inTxPoolVrfKeys := s.inTxPoolVrfKeys.insert c.operator c.vrfKeyHash }

theorem registerPool_eq_ok (hpv : 11 ≤ pp.protocolVersionMajor) :
    s.registerPool ls pp c = .ok s' ↔
      ∃ active, s.activeVrfKey ls c = .ok active ∧
        (∀ owner, (s.releasePreviousKey c active).lookup c.vrfKeyHash = some owner →
          owner = c.operator) ∧
        (∃ owner, ls.isVrfKeyInUse c.vrfKeyHash = .ok owner ∧
          ∀ p, owner = some p → p = c.operator) ∧
        s' = s.registered c active := by
  unfold registerPool
  rw [if_neg (by omega), bind_eq_ok]
  refine exists_congr fun active => and_congr_right fun _ => ?_
  rw [seq_eq_ok, seq_eq_ok, poolValidateVrfKeyUniqueness_eq_ok hpv,
    checkInTxVrfKey_eq_ok, Except.ok.injEq, eq_comm (b := s')]
  rfl

theorem activeVrfKey_of_current (hnone : s.inTxPoolActiveVrfKeys.lookup c.operator = none)
    {current : Option PoolRegistrationCertificate} {ret : Option UInt64}
    (h : ls.poolCurrentState c.operator = .ok (current, ret)) :
    s.activeVrfKey ls c = .ok (current.getD c).vrfKeyHash := by
  unfold activeVrfKey
  rw [hnone]
  refine bind_eq_ok.mpr ⟨_, h, ?_⟩
  cases current with
  | none => rfl
  | some current => rfl

end Gouroboros.Ledger.Conway.DelegationState

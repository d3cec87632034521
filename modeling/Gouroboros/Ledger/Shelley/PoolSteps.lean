import Gouroboros.Ledger.Shelley.Rules

/-!
# What one certificate does to the POOL rule

When the rule accepts a pool certificate, in terms of what it knows of the pool
and of the VRF key, and which maps it leaves behind.
-/

namespace Gouroboros.Ledger.Shelley

open ExceptFold

variable {ls : LedgerState} {pp : ProtocolParameters} {slot : UInt64}
  {cert : PoolRegistrationCertificate}

namespace PoolCertificateState

variable {s s' : PoolCertificateState} {owner : PoolKeyHash}

theorem currentRegistration_cases {p : PoolKeyHash} {current : Option PoolRegistrationCertificate}
    (h : s.currentRegistration ls p = .ok current) :
    (∃ reg, s.current.lookup p = some reg ∧ current = some reg) ∨
    (s.current.lookup p = none ∧ ∃ ret, ls.poolCurrentState p = .ok (current, ret)) := by
  unfold currentRegistration at h
  cases hl : s.current.lookup p with
  | some reg =>
    rw [hl] at h
    exact .inl ⟨reg, rfl, (Except.ok.inj h).symm⟩
  | none =>
    rw [hl] at h
    cases hq : ls.poolCurrentState p with
    | error e =>
      rw [hq] at h
      cases h
    | ok q =>
      rw [hq] at h
      cases h
      exact .inr ⟨rfl, q.2, rfl⟩

/-- The certificate's key is the key the owner, its own pool, registered
with. -/
def OwnKey (ls : LedgerState) (s : PoolCertificateState) (cert : PoolRegistrationCertificate)
    (owner : PoolKeyHash) : Prop :=
  owner = cert.operator ∧ ∃ current, s.currentRegistration ls cert.operator = .ok current ∧
    current.map (·.vrfKeyHash) = some cert.vrfKeyHash

theorem requireOwnKey_eq_ok : s.requireOwnKey ls cert owner = .ok () ↔ OwnKey ls s cert owner := by
  unfold requireOwnKey OwnKey
  rw [bind_eq_ok]
  constructor
  · rintro ⟨current, hcur, h⟩
    obtain ⟨hown, _⟩ := guard_eq_ok.mp h
    rw [not_or, not_not, not_not] at hown
    exact ⟨hown.1, current, hcur, hown.2⟩
  · rintro ⟨howner, current, hcur, hkey⟩
    refine ⟨current, hcur, guard_eq_ok.mpr ⟨?_, rfl⟩⟩
    rw [not_or, not_not, not_not]
    exact ⟨howner, hkey⟩

/-- The certificate's key is claimed by nobody but its own pool: not earlier in
the transaction, not in the state, and not by deferred parameters that the
transaction has not replaced. -/
structure KeyFree (ls : LedgerState) (s : PoolCertificateState)
    (cert : PoolRegistrationCertificate) : Prop where
  claimed : ∀ p, s.vrfOwners.lookup cert.vrfKeyHash = some p → OwnKey ls s cert p
  inUse : ∃ owner, ls.isVrfKeyInUse cert.vrfKeyHash = .ok owner ∧
    ∀ p, owner = some p → OwnKey ls s cert p
  future : ∃ futureState, ls.isFutureVrfKeyInUse? = some futureState ∧
    ∃ owner, futureState cert.vrfKeyHash = .ok owner ∧
      ∀ p, owner = some p → s.replaced p cert.vrfKeyHash = true ∨ OwnKey ls s cert p

theorem checkClaimed_eq_ok :
    s.checkClaimed ls cert = .ok () ↔
      ∀ p, s.vrfOwners.lookup cert.vrfKeyHash = some p → OwnKey ls s cert p := by
  unfold checkClaimed
  cases s.vrfOwners.lookup cert.vrfKeyHash with
  | none => simp
  | some p => simp [requireOwnKey_eq_ok]

theorem checkInUse_eq_ok :
    s.checkInUse ls cert = .ok () ↔
      ∃ owner, ls.isVrfKeyInUse cert.vrfKeyHash = .ok owner ∧
        ∀ p, owner = some p → OwnKey ls s cert p := by
  unfold checkInUse
  rw [bind_eq_ok]
  refine exists_congr fun owner => and_congr_right fun _ => ?_
  cases owner with
  | none => simp
  | some p =>
    by_cases hp : p = cert.operator
    · simp [hp, requireOwnKey_eq_ok]
    · simp [hp, OwnKey]

theorem checkFutureInUse_eq_ok {futureState : VrfKeyIndex} :
    s.checkFutureInUse ls futureState cert = .ok () ↔
      ∃ owner, futureState cert.vrfKeyHash = .ok owner ∧
        ∀ p, owner = some p → s.replaced p cert.vrfKeyHash ∨ OwnKey ls s cert p := by
  unfold checkFutureInUse
  rw [bind_eq_ok]
  refine exists_congr fun owner => and_congr_right fun _ => ?_
  cases owner with
  | none => simp
  | some p =>
    by_cases hp : s.replaced p cert.vrfKeyHash
    · simp [hp]
    · simp [hp, requireOwnKey_eq_ok]

theorem validateVrfKey_eq_ok : s.validateVrfKey ls cert = .ok () ↔ KeyFree ls s cert := by
  unfold validateVrfKey
  cases hfuture : ls.isFutureVrfKeyInUse? with
  | none =>
    constructor
    · intro h
      cases h
    · intro h
      obtain ⟨_, hsome, _⟩ := h.future
      rw [hfuture] at hsome
      cases hsome
  | some futureState =>
    rw [seq_eq_ok, seq_eq_ok, checkClaimed_eq_ok, checkInUse_eq_ok, checkFutureInUse_eq_ok]
    constructor
    · rintro ⟨hclaimed, hinUse, hfut⟩
      exact ⟨hclaimed, hinUse, futureState, hfuture, hfut⟩
    · rintro ⟨hclaimed, hinUse, futureState', hsome, hfut⟩
      rw [hfuture] at hsome
      cases hsome
      exact ⟨hclaimed, hinUse, hfut⟩

end PoolCertificateState

/-! ## The rule's step -/

variable {s s' : PoolRuleState}

def PoolRuleState.registered (s : PoolRuleState) (cert : PoolRegistrationCertificate) :
    Option PoolRegistrationCertificate → PoolRuleState
  | none =>
    { s with
      current := s.current.insert cert.operator cert
      vrfOwners := s.vrfOwners.insert cert.vrfKeyHash cert.operator
      inTxPoolRegs := s.inTxPoolRegs.insert cert.operator () }
  | some current =>
    { s with
      future := s.future.insert cert.operator cert
      vrfOwners := (s.releasePrevious cert current).insert cert.vrfKeyHash cert.operator
      inTxPoolRegs := s.inTxPoolRegs.insert cert.operator () }

section Registered

variable {current : Option PoolRegistrationCertificate}

theorem registered_current_lookup (p : PoolKeyHash) :
    (s.registered cert current).current.lookup p =
      if p = cert.operator ∧ current = none then some cert else s.current.lookup p := by
  cases current with
  | none => simp [PoolRuleState.registered, GoMap.lookup_insert_ite]
  | some cur => simp [PoolRuleState.registered]

theorem registered_future_lookup (p : PoolKeyHash) :
    (s.registered cert current).future.lookup p =
      if p = cert.operator ∧ current ≠ none then some cert else s.future.lookup p := by
  cases current with
  | none => simp [PoolRuleState.registered]
  | some cur => simp [PoolRuleState.registered, GoMap.lookup_insert_ite]

theorem registered_inTxPoolRegs :
    (s.registered cert current).inTxPoolRegs = s.inTxPoolRegs.insert cert.operator () := by
  cases current with
  | none => rfl
  | some _ => rfl

theorem registered_vrfOwners_self :
    (s.registered cert current).vrfOwners.lookup cert.vrfKeyHash = some cert.operator := by
  cases current with
  | none | some => exact AList.lookup_insert _

theorem registered_vrfOwners_kept {k : VrfKeyHash} {owner : PoolKeyHash}
    (hown : owner = cert.operator → ∀ cur, current = some cur → k = cur.vrfKeyHash)
    (hself : k = cert.vrfKeyHash → owner = cert.operator) (h : s.vrfOwners.lookup k = some owner) :
    (s.registered cert current).vrfOwners.lookup k = some owner := by
  by_cases hk : k = cert.vrfKeyHash
  · rw [hk, hself hk]
    exact registered_vrfOwners_self
  · cases current with
    | none => exact (AList.lookup_insert_ne hk).trans h
    | some cur =>
      refine (AList.lookup_insert_ne hk).trans ?_
      unfold PoolCertificateState.releasePrevious
      split
      · exact h
      · split
        · rename_i hprev
          refine (AList.lookup_erase_ne ?_).trans h
          rintro rfl
          rw [h] at hprev
          exact hprev.1 (hown (Option.some.inj hprev.2) cur rfl)
        · exact h

end Registered

theorem poolRuleStep_registration (hpv : 11 ≤ pp.protocolMajorVersion) :
    poolRuleStep slot ls pp s (.poolRegistration cert) = .ok s' ↔
      validatePoolParameters cert ls.networkId pp = .ok () ∧
      s.toPoolCertificateState.KeyFree ls cert ∧
      ∃ current, s.toPoolCertificateState.currentRegistration ls cert.operator = .ok current ∧
        s' = s.registered cert current := by
  have hdup : duplicateVrfKeysDisallowed pp.protocolMajorVersion := by
    simp only [duplicateVrfKeysDisallowed, decide_eq_true_eq]
    omega
  simp only [poolRuleStep, validatePoolRegistration, hdup, if_true,
    PoolCertificateState.applyRegistration]
  rw [seq_eq_ok, seq_eq_ok, PoolCertificateState.validateVrfKey_eq_ok, bind_eq_ok, and_assoc]
  refine and_congr_right fun _ => and_congr_right fun _ => ?_
  constructor
  · rintro ⟨t, ht, hs'⟩
    obtain ⟨current, hcur, ht⟩ := bind_eq_ok.mp ht
    refine ⟨current, hcur, ?_⟩
    cases current with
    | none | some =>
      cases ht
      exact (Except.ok.inj hs').symm
  · rintro ⟨current, hcur, rfl⟩
    cases current with
    | none => exact ⟨_, bind_eq_ok.mpr ⟨none, hcur, rfl⟩, rfl⟩
    | some current => exact ⟨_, bind_eq_ok.mpr ⟨some current, hcur, rfl⟩, rfl⟩

def PoolRuleState.isRegistered (ls : LedgerState) (s : PoolRuleState) (p : PoolKeyHash) : Bool :=
  ls.isPoolRegistered p || (s.inTxPoolRegs.lookup p).isSome

theorem poolRuleStep_retirement_congr {ls' : LedgerState} {t : PoolRuleState} {p : PoolKeyHash}
    {epoch : UInt64} (hreg : s.isRegistered ls p = t.isRegistered ls' p)
    (hepoch : ls.epochForSlot? = ls'.epochForSlot?) :
    poolRuleStep slot ls pp s (.poolRetirement p epoch) = .ok s ↔
      poolRuleStep slot ls' pp t (.poolRetirement p epoch) = .ok t := by
  have hguard : (!ls.isPoolRegistered p && (s.inTxPoolRegs.lookup p).isNone) =
      (!ls'.isPoolRegistered p && (t.inTxPoolRegs.lookup p).isNone) := by
    have := congrArg (!·) hreg
    simpa [PoolRuleState.isRegistered] using this
  simp only [poolRuleStep]
  rw [seq_eq_ok, seq_eq_ok]
  unfold validatePoolRetirement
  rw [hguard, hepoch]
  simp

theorem poolRuleStep_retirement {p : PoolKeyHash} {epoch : UInt64}
    (h : poolRuleStep slot ls pp s (.poolRetirement p epoch) = .ok s') :
    s' = s ∧ s.isRegistered ls p := by
  obtain ⟨hval, h⟩ := seq_eq_ok.mp h
  cases h
  refine ⟨rfl, ?_⟩
  obtain ⟨hreg, _⟩ := guard_eq_ok.mp hval
  simpa [PoolRuleState.isRegistered, Option.isSome_iff_ne_none, or_iff_not_imp_left] using hreg

theorem poolRuleStep_other {c : Certificate} (h : c.isPool = false) :
    poolRuleStep slot ls pp s c = .ok s := by
  cases c with
  | poolRegistration _ => cases h
  | poolRetirement _ _ => cases h
  | _ => rfl

theorem poolRuleStep_keeps {c : Certificate} (hc : ∀ reg, c ≠ .poolRegistration reg)
    (h : poolRuleStep slot ls pp s c = .ok s') : s' = s := by
  cases c with
  | poolRegistration reg => exact absurd rfl (hc reg)
  | poolRetirement => exact (poolRuleStep_retirement h).1
  | _ => exact (Except.ok.inj h).symm

theorem poolRuleSteps_other {certs : List Certificate} (h : hasPoolCertificate certs = false) :
    certs.foldlM (poolRuleStep slot ls pp) s = .ok s := by
  induction certs with
  | nil => rfl
  | cons cert certs ih =>
    rw [hasPoolCertificate, List.any_cons, Bool.or_eq_false_iff] at h
    exact foldlM_cons_eq_ok.mpr ⟨s, poolRuleStep_other h.1, ih h.2⟩

theorem utxoValidatePoolCertificates_eq_ok {tx : Transaction} (hvalid : tx.isValid) :
    utxoValidatePoolCertificates tx slot ls pp = .ok () ↔
      ∃ s, tx.certificates.foldlM (poolRuleStep slot ls pp) {} = .ok s := by
  unfold utxoValidatePoolCertificates
  rw [hvalid]
  cases hpool : hasPoolCertificate tx.certificates with
  | true => simp [bind_eq_ok]
  | false => simp [poolRuleSteps_other hpool]

end Gouroboros.Ledger.Shelley

import Gouroboros.Ledger.Conway.CertificateValue
import Gouroboros.Ledger.Conway.PoolSplit
import Gouroboros.Ledger.Conway.Transaction
import Gouroboros.Ledger.Conway.ValueRule

/-!
# Certificates in one transaction and over several

The rules keep private maps of what the earlier certificates of a transaction did;
between the transactions of a block the same facts come from the block-scoped view.
`CertificatesAgree` ties the two, and one certificate keeps them tied, but for two
kinds of certificate that the view cannot judge (`Misjudged`): one that needs a pool
registered again after its retirement epoch was reached, and a stake deregistration
over a state without the deposit capability.
-/

namespace Gouroboros.Ledger.Conway

open Shelley ExceptFold BlockLedgerState DepositState

/-! ## The two ways to carry certificates -/

/-- The three rules that walk the certificates. -/
def validateCertificates (slot : UInt64) (pp : ConwayProtocolParameters) (ls : LedgerState)
    (tx : Transaction) : Except LedgerError Unit := do
  utxoValidateDelegation tx ls pp
  utxoValidateCertificateDeposits tx ls pp.toProtocolParameters
  utxoValidatePoolCertificates tx slot ls pp.toProtocolParameters

/-- A transaction of a block: validated on the view, then applied to it. -/
def validateAndApply (slot : UInt64) (pp : ConwayProtocolParameters) (b : BlockLedgerState)
    (tx : Transaction) : Except LedgerError BlockLedgerState := do
  validateCertificates slot pp b.toLedgerState tx
  b.applyTransaction tx pp.toProtocolParameters

/-- A phase-2-valid transaction with these certificates and no withdrawals. -/
structure Carries (tx : ConwayTransaction) (certs : List Certificate) : Prop where
  valid : tx.txIsValid = true
  certificates : tx.txCertificates = certs
  no_withdrawals : tx.toTransaction.withdrawalMap = ∅

/-- The pool that a certificate needs registered. -/
def requiredPool : Certificate → Option PoolKeyHash
  | .poolRetirement pool _ => some pool
  | cert => DelegationState.targetPool cert

/-- A certificate the view judges otherwise than the maps of a transaction that
has `done` before it. -/
def Misjudged (base : LedgerState) (done : List Certificate) (cert : Certificate) : Prop :=
  (∃ p, requiredPool cert = some p ∧ p ∈ registeredOperators done ∧ StalePool base p) ∨
  (base.stakeCredentialDeposit? = none ∧ ∃ cred, cert.stakeEffect 0 = some (cred, none))

def SomeMisjudged (base : LedgerState) (certs : List Certificate) : Prop :=
  ∃ done cert rest, certs = done ++ cert :: rest ∧ Misjudged base done cert

/-- The three rules accept the certificate with the maps they have. -/
def RulesAccept (slot : UInt64) (pp : ConwayProtocolParameters) (ls : LedgerState)
    (d : DelegationState) (t : DepositState) (s : PoolRuleState) (cert : Certificate) : Prop :=
  (∃ d', d.step ls pp cert = .ok d') ∧
  (∃ t', t.step ls pp.keyDeposit pp.dRepDeposit cert = .ok t') ∧
  ∃ s', poolRuleStep slot ls pp.toProtocolParameters s cert = .ok s'

section Rules

variable {slot : UInt64} {pp : ConwayProtocolParameters} {ls : LedgerState}
  {certs : List Certificate}

theorem validateCertificates_eq_ok {tx : ConwayTransaction} (h : Carries tx certs) :
    validateCertificates slot pp ls tx.toTransaction = .ok () ↔
      (∃ d, certs.foldlM (DelegationState.step ls pp) {} = .ok d) ∧
      (∃ t, certs.foldlM (step ls pp.keyDeposit pp.dRepDeposit) {} = .ok t) ∧
      ∃ s, certs.foldlM (poolRuleStep slot ls pp.toProtocolParameters) {} = .ok s := by
  have hvalid : tx.toTransaction.isValid := h.valid
  have hcerts : tx.toTransaction.certificates = certs := h.certificates
  unfold validateCertificates
  rw [seq_eq_ok, seq_eq_ok]
  refine and_congr ?_ (and_congr ?_ ?_)
  · unfold utxoValidateDelegation
    rw [hvalid, hcerts]
    simp [bind_eq_ok]
  · unfold utxoValidateCertificateDeposits
    have hnone : (∅ : Withdrawals).values = [] := rfl
    rw [hvalid, hcerts, h.no_withdrawals, certificateDepositAmounts_conway, hnone]
    simp [bind_eq_ok]
  · rw [utxoValidatePoolCertificates_eq_ok hvalid, hcerts]

end Rules

/-! ## The maps and the view -/

def stakeStateOf (a : AccountAnswer) (cred : Credential) :
    Except LedgerError CertificateStakeState :=
  if a.registered then do
    match ← a.deposit with
    | none => .error (.certificateDepositStateInconsistent cred)
    | some deposit => do
        match ← a.balance with
        | none => .error (.certificateDepositStateInconsistent cred)
        | some balance => .ok ⟨true, deposit, balance⟩
  else .ok {}

/-- The maps of the rules after the certificates `done` of one transaction, and
the view after each of them in a transaction of its own. -/
structure CertificatesAgree (base : LedgerState) (done : List Certificate) (b : BlockLedgerState)
    (d : DelegationState) (t : DepositState) (s : PoolRuleState) : Prop where
  pools : PoolAgrees base b d s
  operators : ∀ p, (s.inTxPoolRegs.lookup p).isSome ↔ p ∈ registeredOperators done
  delegator : ∀ c, d.isStakeRegistered base c = (b.accountAnswer c).registered
  marked : ∀ c, t.isMarkedRegistered base c = (b.accountAnswer c).registered
  stake : base.stakeCredentialDeposit?.isSome →
    ∀ c, t.stakeAnswer base c = stakeStateOf (b.accountAnswer c) c
  drepMark : ∀ c, d.isDRepCredentialRegistered base c = (b.dRepRegistration c).map Option.isSome
  drepDeposit : ∀ c, (t.drepAnswer base c).map (Option.map (·.deposit)) =
    (b.dRepRegistration c).map (Option.map (·.deposit))

section Agree

variable {base : LedgerState} {done : List Certificate} {b b' : BlockLedgerState}
  {d d' : DelegationState} {t t' : DepositState} {s s' : PoolRuleState} {cert : Certificate}
  {pp : ConwayProtocolParameters} {slot : UInt64}

theorem queryStakeState_toLedgerState (hcap : b.base.stakeCredentialDeposit?.isSome)
    (c : Credential) : queryStakeState b.toLedgerState c = stakeStateOf (b.accountAnswer c) c := by
  obtain ⟨depositState, hcap⟩ := Option.isSome_iff_exists.mp hcap
  have hfor : stakeCredentialDepositStateFor b.toLedgerState =
      some (recordedStakeDeposit b.toLedgerState) := by
    have hview : b.toLedgerState.stakeCredentialDeposit? = some depositState := hcap
    simp [stakeCredentialDepositStateFor, recordedStakeDeposit, hview]
  unfold queryStakeState recordedStakeState
  rw [hfor]
  rfl

theorem certificatesAgree_init (base : LedgerState) :
    CertificatesAgree base [] (newBlockLedgerState base) {} {} {} where
  pools := poolAgrees_init base
  operators := fun p => by simp [registeredOperators]
  delegator := fun _ => rfl
  marked := fun _ => rfl
  stake := fun hcap c => queryStakeState_toLedgerState (b := newBlockLedgerState base) hcap c
  drepMark := fun _ => rfl
  drepDeposit := fun _ => rfl

/-! ### The deposit rule -/

variable {keyDeposit drepDeposit : UInt64} {cred : Credential}

theorem stakeEffect_deregister (h : cert.stakeEffect keyDeposit = some (cred, none))
    (keyDeposit' : UInt64) : cert.stakeEffect keyDeposit' = some (cred, none) := by
  cases cert with
  | stakeDeregistration c => exact h
  | deregistration c a => exact h
  | _ => cases h

theorem deposit_capability (hc : cert.stakeEffect keyDeposit = some (cred, none))
    (h : step b.toLedgerState keyDeposit drepDeposit {} cert = .ok t') :
    b.base.stakeCredentialDeposit?.isSome := by
  obtain ⟨state, hdereg, _⟩ := step_deregister hc h
  obtain ⟨_, _, hfor, _⟩ := recorded_of_query hdereg.answer hdereg.registered
  obtain ⟨cap, hcap, _⟩ := Option.map_eq_some_iff.mp hfor
  exact Option.isSome_iff_exists.mpr ⟨cap, hcap⟩

def drepAccepts (drepDeposit : UInt64) (answer : Except LedgerError (Option (Option UInt64))) :
    Certificate → Prop
  | .registrationDrep _ amount _ => amount = drepDeposit ∧ answer = .ok none
  | .deregistrationDrep _ amount => answer = .ok (some (some amount))
  | .updateDrep _ _ => ∃ deposit, answer = .ok (some deposit)
  | _ => True

def drepOf : Certificate → Option Credential
  | .registrationDrep cred _ _ => some cred
  | .deregistrationDrep cred _ => some cred
  | .updateDrep cred _ => some cred
  | _ => none

variable {x : Except LedgerError (Option DRepRegistration)}

theorem depositsOf_eq_none : x.map (Option.map (·.deposit)) = .ok none ↔ x = .ok none := by
  cases x with
  | error e => simp [Except.map]
  | ok reg => cases reg <;> simp [Except.map]

theorem depositsOf_eq_some {deposit : Option UInt64} :
    x.map (Option.map (·.deposit)) = .ok (some deposit) ↔
      ∃ reg, x = .ok (some reg) ∧ reg.deposit = deposit := by
  cases x with
  | error e => simp [Except.map]
  | ok reg => cases reg <;> simp [Except.map]

theorem step_drep {ls : LedgerState} (hcert : drepOf cert = some cred) :
    (∃ t', t.step ls keyDeposit drepDeposit cert = .ok t') ↔
      drepAccepts drepDeposit ((t.drepAnswer ls cred).map (Option.map (·.deposit))) cert := by
  cases cert with
  | registrationDrep c amount anchor =>
    cases hcert
    simp only [drepAccepts, depositsOf_eq_none]
    constructor
    · rintro ⟨t', ht'⟩
      obtain ⟨hamount, hnone, _⟩ := step_registrationDrep ht'
      exact ⟨hamount, hnone⟩
    · rintro ⟨rfl, hnone⟩
      exact step_registrationDrep_of hnone
  | deregistrationDrep c amount =>
    cases hcert
    simp only [drepAccepts, depositsOf_eq_some]
    constructor
    · rintro ⟨t', ht'⟩
      obtain ⟨reg, hreg, hamount, _⟩ := step_deregistrationDrep ht'
      exact ⟨reg, hreg, hamount⟩
    · rintro ⟨reg, hreg, hamount⟩
      exact step_deregistrationDrep_of hreg hamount
  | updateDrep c anchor =>
    cases hcert
    simp only [drepAccepts, depositsOf_eq_some]
    constructor
    · rintro ⟨t', ht'⟩
      obtain ⟨reg, hreg, _⟩ := step_updateDrep ht'
      exact ⟨reg.deposit, reg, hreg, rfl⟩
    · rintro ⟨_, reg, hreg, _⟩
      exact step_updateDrep_of hreg
  | _ => cases hcert

theorem isDRep_of_drepOf_eq_none (h : drepOf cert = none) : cert.isDRep = false := by
  cases cert with
  | registrationDrep | deregistrationDrep | updateDrep => cases h
  | _ => rfl

theorem CertificatesAgree.deposit_iff (h : CertificatesAgree base done b d t s)
    (hno : ¬ Misjudged base done cert) :
    (∃ t', t.step base keyDeposit drepDeposit cert = .ok t') ↔
      ∃ t', step b.toLedgerState keyDeposit drepDeposit {} cert = .ok t' := by
  cases heffect : cert.stakeEffect keyDeposit with
  | some effect =>
    obtain ⟨cred, deposit⟩ := effect
    cases deposit with
    | some amount =>
      have hmark : isMarkedRegistered b.toLedgerState {} cred =
          t.isMarkedRegistered base cred := (h.marked cred).symm
      simp only [step_register heffect, hmark]
      simp
    | none =>
      have hcap : base.stakeCredentialDeposit?.isSome := by
        rw [Option.isSome_iff_ne_none]
        intro hnone
        exact hno (.inr ⟨hnone, cred, stakeEffect_deregister heffect 0⟩)
      have hanswer : stakeAnswer b.toLedgerState {} cred = t.stakeAnswer base cred := by
        rw [h.stake hcap]
        exact queryStakeState_toLedgerState (h.pools.records.base_eq ▸ hcap) cred
      have hcongr : ∀ {ls₁ ls₂ t₁ t₂}, stakeAnswer ls₂ t₂ cred = stakeAnswer ls₁ t₁ cred →
          (∃ t', t₁.step ls₁ keyDeposit drepDeposit cert = .ok t') →
          ∃ t', t₂.step ls₂ keyDeposit drepDeposit cert = .ok t' := by
        rintro ls₁ ls₂ t₁ t₂ heq ⟨t', ht'⟩
        obtain ⟨state, ⟨ha, hr, hf, hb⟩, _⟩ := step_deregister heffect ht'
        exact step_deregister_of heffect ⟨heq.trans ha, hr, hf, hb⟩
      exact ⟨hcongr hanswer, hcongr hanswer.symm⟩
  | none =>
    cases hdrep : drepOf cert with
    | some cred =>
      rw [step_drep hdrep, step_drep hdrep, h.drepDeposit]
      rfl
    | none =>
      have hnot := isDRep_of_drepOf_eq_none hdrep
      simp [step_other heffect hnot]

theorem deposit_stake_effect (h : t.step base keyDeposit drepDeposit cert = .ok t')
    (c : Credential) :
    (∀ old : AccountAnswer, t.isMarkedRegistered base c = old.registered →
      t'.isMarkedRegistered base c = (old.after c (cert.stakeEffect keyDeposit)).registered) ∧
    (∀ old : AccountAnswer, t.stakeAnswer base c = stakeStateOf old c →
      t'.stakeAnswer base c = stakeStateOf (old.after c (cert.stakeEffect keyDeposit)) c) := by
  cases heffect : cert.stakeEffect keyDeposit with
  | some effect =>
    obtain ⟨cred, deposit⟩ := effect
    -- Either way one entry is written, and it is the one the view answers with.
    have hwrites : ∃ state, WritesStake t t' cred state ∧
        state.registered = deposit.isSome ∧
        (Except.ok state : Except LedgerError _) = stakeStateOf (.ofEffect deposit) cred := by
      cases deposit with
      | some amount =>
        obtain ⟨rfl, _, rfl⟩ := (step_register heffect).mp h
        exact ⟨_, writesStake_storeStakeState t cred _, rfl, rfl⟩
      | none =>
        obtain ⟨⟨registered, deposit, balance⟩, hdereg, hw⟩ := step_deregister heffect h
        have hbalance : balance = 0 := hdereg.balance
        subst hbalance
        exact ⟨_, hw, rfl, rfl⟩
    obtain ⟨state, hw, hreg, hstate⟩ := hwrites
    constructor
    · intro old hold
      rw [hw.isMarkedRegistered]
      by_cases hc : c = cred
      · simp [AccountAnswer.after, hc, hreg, AccountAnswer.ofEffect]
      · simp [AccountAnswer.after, hc, hold]
    · intro old hold
      rw [hw.stakeAnswer]
      by_cases hc : c = cred
      · subst hc
        simpa [AccountAnswer.after] using hstate
      · simp [AccountAnswer.after, hc, hold]
  | none =>
    have hsame : t'.stakeStates = t.stakeStates := by
      cases hdrep : drepOf cert with
      | none =>
        rw [step_other heffect (isDRep_of_drepOf_eq_none hdrep)] at h
        cases h
        rfl
      | some cred =>
        cases cert with
        | registrationDrep _ _ _ =>
          obtain ⟨_, _, hw⟩ := step_registrationDrep h
          exact hw.stake
        | deregistrationDrep _ _ =>
          obtain ⟨_, _, _, hw⟩ := step_deregistrationDrep h
          exact hw.stake
        | updateDrep _ _ =>
          obtain ⟨_, _, hw⟩ := step_updateDrep h
          exact hw.stake
        | _ => cases hdrep
    constructor
    · intro old hold
      unfold isMarkedRegistered at hold ⊢
      rw [hsame]
      exact hold
    · intro old hold
      unfold stakeAnswer at hold ⊢
      rw [hsame]
      exact hold

theorem deposit_drep_effect {old : Except LedgerError (Option DRepRegistration)} (c : Credential)
    (h : t.step base keyDeposit drepDeposit cert = .ok t')
    (hold : (t.drepAnswer base c).map (Option.map (·.deposit)) = old.map (Option.map (·.deposit))) :
    (t'.drepAnswer base c).map (Option.map (·.deposit)) =
      (drepEffect cert c old).map (Option.map (·.deposit)) := by
  cases hdrep : drepOf cert with
  | none =>
    have hnot := isDRep_of_drepOf_eq_none hdrep
    rw [drepEffect_of_not_isDRep hnot, ← hold]
    congr 1
    cases heffect : cert.stakeEffect keyDeposit with
    | none =>
      rw [step_other heffect hnot] at h
      cases h
      rfl
    | some effect =>
      obtain ⟨cred, deposit⟩ := effect
      cases deposit with
      | some amount =>
        obtain ⟨_, _, rfl⟩ := (step_register heffect).mp h
        rfl
      | none =>
        obtain ⟨_, _, hw⟩ := step_deregister heffect h
        exact hw.drepAnswer c
  | some cred =>
    cases cert with
    | registrationDrep cred' amount anchor =>
      obtain ⟨rfl, _, hw⟩ := step_registrationDrep h
      rw [hw.drepAnswer, drepEffect]
      split
      · rfl
      · exact hold
    | deregistrationDrep cred' amount =>
      obtain ⟨_, _, _, hw⟩ := step_deregistrationDrep h
      rw [hw.drepAnswer, drepEffect]
      split
      · rfl
      · exact hold
    | updateDrep cred' anchor =>
      obtain ⟨reg, hreg, hw⟩ := step_updateDrep h
      rw [hw.drepAnswer, drepEffect]
      split
      · rename_i hc
        rw [hc, hreg] at hold
        -- the anchor is replaced, the deposit stays
        obtain ⟨reg', rfl, hdep⟩ := depositsOf_eq_some.mp hold.symm
        simp [Except.map, hdep]
      · exact hold
    | _ => cases hdrep

/-! ### The delegation and POOL rules -/

section

variable (h : CertificatesAgree base done b d t s)
include h

theorem CertificatesAgree.isRegistered_eq (hno : ¬ Misjudged base done cert) {p : PoolKeyHash}
    (hp : requiredPool cert = some p) : s.isRegistered base p = b.isPoolRegistered p := by
  rw [Bool.eq_iff_iff, h.pools.isRegistered_iff]
  constructor
  · rintro (hview | ⟨hregs, hstale⟩)
    · exact hview
    · exact absurd (.inl ⟨p, hp, (h.operators p).mp hregs, hstale⟩) hno
  · exact .inl

section

variable (hcert : ∀ c, cert ≠ .poolRegistration c) (hno : ¬ Misjudged base done cert)
include hcert hno

theorem CertificatesAgree.delegation_iff : (∃ d', d.step base pp cert = .ok d') ↔
      ∃ d', DelegationState.step b.toLedgerState pp {} cert = .ok d' := by
  rw [DelegationState.step_accepts hcert, DelegationState.step_accepts hcert]
  refine DelegationState.Accepts.congr h.delegator (fun p hp => ?_) fun drep => ?_
  · have hrequired : requiredPool cert = some p := by
      cases cert with
      | poolRetirement _ _ => cases hp
      | _ => exact hp
    rw [h.pools.delegation_isPoolRegistered, h.isRegistered_eq hno hrequired]
    simp [DelegationState.isPoolRegistered, toLedgerState]
  · exact DelegationState.validateDRepTarget_congr h.drepMark drep

theorem CertificatesAgree.pool_iff {pp : ProtocolParameters} :
    (∃ s', poolRuleStep slot base pp s cert = .ok s') ↔
      ∃ s', poolRuleStep slot b.toLedgerState pp {} cert = .ok s' := by
  cases cert with
  | poolRegistration c => exact absurd rfl (hcert c)
  | poolRetirement p epoch =>
    have hreg : s.isRegistered base p = PoolRuleState.isRegistered b.toLedgerState {} p := by
      rw [h.isRegistered_eq hno rfl]
      simp [PoolRuleState.isRegistered, toLedgerState]
    have hepoch : base.epochForSlot? = b.toLedgerState.epochForSlot? := by
      rw [← h.pools.records.base_eq]
      rfl
    have hcongr : poolRuleStep slot base pp s (.poolRetirement p epoch) = .ok s ↔
        poolRuleStep slot b.toLedgerState pp {} (.poolRetirement p epoch) = .ok {} :=
      poolRuleStep_retirement_congr hreg hepoch
    constructor
    · rintro ⟨s', hs'⟩
      obtain ⟨rfl, _⟩ := poolRuleStep_retirement hs'
      exact ⟨_, hcongr.mp hs'⟩
    · rintro ⟨s', hs'⟩
      obtain ⟨rfl, _⟩ := poolRuleStep_retirement hs'
      exact ⟨_, hcongr.mpr hs'⟩
  | _ => exact ⟨fun _ => ⟨_, rfl⟩, fun _ => ⟨_, rfl⟩⟩

end

theorem CertificatesAgree.not_misjudged
    (hview : RulesAccept slot pp b.toLedgerState {} {} {} cert) : ¬ Misjudged base done cert := by
  rintro (⟨p, hp, _, hstale⟩ | ⟨hcap, cred, heffect⟩)
  · -- both rules ask the view for the pool
    have hfalse := h.pools.not_registered_of_stale hstale
    have hview : b.isPoolRegistered p := by
      by_cases hretires : ∃ epoch, cert = .poolRetirement p epoch
      · obtain ⟨epoch, rfl⟩ := hretires
        obtain ⟨s', hs'⟩ := hview.2.2
        obtain ⟨_, hreg⟩ := poolRuleStep_retirement hs'
        simpa [PoolRuleState.isRegistered, toLedgerState] using hreg
      · have htarget : DelegationState.targetPool cert = some p := by
          cases cert with
          | poolRetirement pool epoch =>
            cases hp
            exact absurd ⟨epoch, rfl⟩ hretires
          | _ => exact hp
        have hcert : ∀ c, cert ≠ .poolRegistration c := by
          rintro c rfl
          cases hp
        have hpool := ((DelegationState.step_accepts hcert).mp hview.1).targetPool htarget
        simpa [DelegationState.isPoolRegistered, toLedgerState] using hpool
    rw [hfalse] at hview
    cases hview
  · obtain ⟨t', ht'⟩ := hview.2.1
    have hsome := deposit_capability (stakeEffect_deregister heffect _) ht'
    rw [h.pools.records.base_eq, hcap] at hsome
    cases hsome

/-! ### One certificate -/

theorem CertificatesAgree.accepts_iff (hpv : 11 ≤ pp.protocolVersionMajor)
    (hno : ¬ Misjudged base done cert) :
    RulesAccept slot pp base d t s cert ↔ RulesAccept slot pp b.toLedgerState {} {} {} cert := by
  by_cases hcert : ∃ c, cert = .poolRegistration c
  · obtain ⟨c, rfl⟩ := hcert
    rw [RulesAccept, RulesAccept, and_left_comm, and_left_comm (a := ∃ d', DelegationState.step _ _ _ _ = _)]
    exact and_congr (h.deposit_iff hno) (h.pools.registration_iff hpv)
  · rw [not_exists] at hcert
    exact and_congr (h.delegation_iff hcert hno)
      (and_congr (h.deposit_iff hno) (h.pool_iff hcert hno))

end

theorem mem_registeredOperators_concat {p : PoolKeyHash} :
    p ∈ registeredOperators (done ++ [cert]) ↔
      p ∈ registeredOperators done ∨ ∃ c, cert = .poolRegistration c ∧ c.operator = p := by
  simp only [registeredOperators, List.mem_toFinset, List.filterMap_append, List.mem_append]
  cases cert with
  | poolRegistration c => simp [eq_comm]
  | _ => simp

theorem CertificatesAgree.congr (h : CertificatesAgree base done b d t s)
    (hpool : b'.poolPart = b.poolPart) (haccount : b'.accountPart = b.accountPart)
    (hdrep : b'.drepPart = b.drepPart) : CertificatesAgree base done b' d t s := by
  have hanswer := accountAnswer_congr haccount
  have hreg := dRepRegistration_congr hdrep
  exact { h with
    pools := h.pools.frame hpool rfl
    delegator := fun c => hanswer c ▸ h.delegator c
    marked := fun c => hanswer c ▸ h.marked c
    stake := fun hcap c => hanswer c ▸ h.stake hcap c
    drepMark := fun c => hreg c ▸ h.drepMark c
    drepDeposit := fun c => hreg c ▸ h.drepDeposit c }

theorem stakeMark_eq (c : Credential) (old : AccountAnswer) :
    DelegationState.stakeMark cert c old.registered =
      (old.after c (cert.stakeEffect keyDeposit)).registered := by
  have hite : ∀ cred deposit, (old.after c (some (cred, deposit))).registered =
      if c = cred then deposit.isSome else old.registered := by
    intro cred deposit
    rw [AccountAnswer.after]
    split <;> rfl
  cases cert <;> simp [DelegationState.stakeMark, Certificate.stakeEffect, hite] <;> rfl

theorem drepMark_eq (c : Credential) (old : Except LedgerError (Option DRepRegistration)) :
    DelegationState.drepMark cert c (old.map Option.isSome) =
      (drepEffect cert c old).map Option.isSome := by
  cases cert with
  | registrationDrep | deregistrationDrep =>
    simp only [DelegationState.drepMark, drepEffect]
    split <;> rfl
  | updateDrep cred anchor =>
    simp only [DelegationState.drepMark, drepEffect]
    split
    · cases old with
      | error e => rfl
      | ok reg => cases reg <;> rfl
    · rfl
  | _ => rfl

theorem delegation_marks (hd : d.step base pp cert = .ok d') (c : Credential) :
    d'.isStakeRegistered base c =
      DelegationState.stakeMark cert c (d.isStakeRegistered base c) ∧
    d'.isDRepCredentialRegistered base c =
      DelegationState.drepMark cert c (d.isDRepCredentialRegistered base c) := by
  by_cases hcert : ∃ c, cert = .poolRegistration c
  · obtain ⟨reg, rfl⟩ := hcert
    have hmaps : d'.inTxStakeState = d.inTxStakeState ∧ d'.inTxDRepRegs = d.inTxDRepRegs := by
      have hd : d.registerPool base pp reg = .ok d' := hd
      unfold DelegationState.registerPool at hd
      split at hd
      · cases hd
        exact ⟨rfl, rfl⟩
      · obtain ⟨active, _, hd⟩ := bind_eq_ok.mp hd
        obtain ⟨_, hd⟩ := seq_eq_ok.mp hd
        obtain ⟨_, hd⟩ := seq_eq_ok.mp hd
        cases hd
        exact ⟨rfl, rfl⟩
    constructor
    · change _ = d.isStakeRegistered base c
      unfold DelegationState.isStakeRegistered
      rw [hmaps.1]
    · change _ = d.isDRepCredentialRegistered base c
      unfold DelegationState.isDRepCredentialRegistered
      rw [hmaps.2]
  · rw [not_exists] at hcert
    obtain ⟨hstake, hdrep, _⟩ := DelegationState.step_effect hcert hd
    exact ⟨hstake c, hdrep c⟩

section

variable (h : CertificatesAgree base done b d t s) (hpv : 11 ≤ pp.protocolVersionMajor)
  (hs : poolRuleStep slot base pp.toProtocolParameters s cert = .ok s')
include h hpv hs

theorem CertificatesAgree.pools_step (hd : d.step base pp cert = .ok d')
    (hb : applyCertificate pp.toProtocolParameters b cert = .ok b') : PoolAgrees base b' d' s' := by
  by_cases hcert : ∃ c, cert = .poolRegistration c
  · obtain ⟨c, rfl⟩ := hcert
    have hview : PoolAgrees base { b with seq := b.seq + 1 } d s := h.pools.frame rfl rfl
    obtain ⟨_, hfree, current, hcur, rfl⟩ := (poolRuleStep_registration hpv).mp hs
    have hd' : d' = d.registered c (current.getD c).vrfKeyHash :=
      Except.ok.inj (Eq.trans hd.symm (h.pools.registerPool_of_keyFree hcur hpv hfree))
    obtain ⟨current', ret, hstate, hregistered⟩ := registered_of_applyPoolRegistration hb
    -- the view finds the same current registration
    have hsame : current' = current := by
      rw [hview.currentRegistration_eq] at hcur
      have hmap : (poolCurrentState { b with seq := b.seq + 1 } c.operator).map
          Prod.fst = .ok current := hcur
      rw [hstate] at hmap
      exact Except.ok.inj hmap
    rw [hd', ← hsame]
    rw [← hsame] at hcur
    exact hview.register hcur hfree hregistered
  · rw [not_exists] at hcert
    obtain ⟨_, _, hmaps⟩ := DelegationState.step_effect hcert hd
    obtain rfl := poolRuleStep_keeps hcert hs
    cases hpool : cert.isPool with
    | false => exact h.pools.frame (poolPart_applyCertificate hpool hb) hmaps
    | true =>
      cases cert with
      | poolRegistration c => exact absurd rfl (hcert c)
      | poolRetirement p epoch =>
        cases hb
        have hview : PoolAgrees base { b with seq := b.seq + 1 } d s' := h.pools.frame rfl rfl
        exact hview.retire p epoch hmaps
      | _ => cases hpool

theorem CertificatesAgree.operators_step (p : PoolKeyHash) :
    (s'.inTxPoolRegs.lookup p).isSome ↔ p ∈ registeredOperators (done ++ [cert]) := by
  rw [mem_registeredOperators_concat, ← h.operators]
  by_cases hcert : ∃ c, cert = .poolRegistration c
  · obtain ⟨c, rfl⟩ := hcert
    obtain ⟨_, _, current, _, rfl⟩ := (poolRuleStep_registration hpv).mp hs
    rw [registered_inTxPoolRegs, GoMap.lookup_insert_ite]
    by_cases hp : p = c.operator
    · simp [hp]
    · have hne : c.operator ≠ p := fun heq => hp heq.symm
      simp [hp, hne]
  · rw [poolRuleStep_keeps (not_exists.mp hcert) hs]
    constructor
    · exact .inl
    · rintro (hold | ⟨c, hc, _⟩)
      · exact hold
      · exact absurd ⟨c, hc⟩ hcert

theorem CertificatesAgree.step (hd : d.step base pp cert = .ok d')
    (ht : t.step base pp.keyDeposit pp.dRepDeposit cert = .ok t')
    (hb : applyCertificate pp.toProtocolParameters b cert = .ok b') :
    CertificatesAgree base (done ++ [cert]) b' d' t' s' := by
  have hanswer := accountAnswer_applyCertificate (blockKeyDeposit_conway pp) hb
  have hreg := dRepRegistration_applyCertificate hb
  refine ⟨h.pools_step hpv hs hd hb, h.operators_step hpv hs, fun c => ?_, fun c => ?_,
    fun hcap c => ?_, fun c => ?_, fun c => ?_⟩
  · rw [(delegation_marks hd c).1, h.delegator, hanswer]
    exact stakeMark_eq c _
  · rw [hanswer]
    exact (deposit_stake_effect ht c).1 _ (h.marked c)
  · rw [hanswer]
    exact (deposit_stake_effect ht c).2 _ (h.stake hcap c)
  · rw [(delegation_marks hd c).2, h.drepMark, hreg]
    exact drepMark_eq c _
  · rw [hreg]
    exact deposit_drep_effect c ht (h.drepDeposit c)

end

/-! ### One transaction of a block -/

variable {tx : ConwayTransaction}

theorem applyTransaction_single (htx : Carries tx [cert]) :
    b.applyTransaction tx.toTransaction pp.toProtocolParameters = .ok b' ↔
      ∃ b₂, applyCertificate pp.toProtocolParameters
          (b.applyUtxo tx.toTransaction) cert = .ok b₂ ∧
        b' = b₂.recordProposals tx.hash tx.txProposalProcedures := by
  have hvalid : tx.toTransaction.isValid := htx.valid
  have hcerts : tx.toTransaction.certificates = [cert] := htx.certificates
  have hnone : (b.applyUtxo tx.toTransaction).applyWithdrawals ∅ =
      .ok (b.applyUtxo tx.toTransaction) := rfl
  rw [applyTransaction_eq hvalid rfl, hcerts, htx.no_withdrawals, hnone, bind_eq_ok]
  constructor
  · rintro ⟨_, ⟨⟩, h⟩
    obtain ⟨b₂, hb₂, h⟩ := bind_eq_ok.mp h
    obtain ⟨_, hb₃, hnil⟩ := foldlM_cons_eq_ok.mp hb₂
    cases hnil
    exact ⟨_, hb₃, (Except.ok.inj h).symm⟩
  · rintro ⟨b₂, hb₂, rfl⟩
    refine ⟨_, rfl, bind_eq_ok.mpr ⟨b₂, ?_, rfl⟩⟩
    exact foldlM_cons_eq_ok.mpr ⟨b₂, hb₂, rfl⟩

section

variable (h : CertificatesAgree base done b d t s) (hpv : 11 ≤ pp.protocolVersionMajor)
include h hpv

theorem CertificatesAgree.applies (ht : t.step base pp.keyDeposit pp.dRepDeposit cert = .ok t')
    (hs : poolRuleStep slot base pp.toProtocolParameters s cert = .ok s') :
    ∃ b', applyCertificate pp.toProtocolParameters b cert = .ok b' := by
  refine exists_applyCertificate (blockKeyDeposit_conway pp) ?_ ?_
  · rintro c rfl
    obtain ⟨_, _, current, hcur, _⟩ := (poolRuleStep_registration hpv).mp hs
    rw [h.pools.currentRegistration_eq] at hcur
    have hmap : (b.poolCurrentState c.operator).map Prod.fst = .ok current := hcur
    cases hstate : b.poolCurrentState c.operator with
    | error e =>
      rw [hstate] at hmap
      cases hmap
    | ok x => exact ⟨x, rfl⟩
  · rintro c anchor rfl
    obtain ⟨reg, hreg, _⟩ := step_updateDrep ht
    have hdep := h.drepDeposit c
    rw [hreg] at hdep
    obtain ⟨reg', hreg', _⟩ := depositsOf_eq_some.mp hdep.symm
    exact ⟨_, hreg'⟩

theorem CertificatesAgree.validateAndApply_iff
    (htx : Carries tx [cert]) : (∃ b', validateAndApply slot pp b tx.toTransaction = .ok b') ↔
      RulesAccept slot pp base d t s cert ∧ ¬ Misjudged base done cert := by
  have hsingle : ∀ {σ : Type} {f : σ → Certificate → Except LedgerError σ} {x : σ},
      (∃ y, [cert].foldlM f x = .ok y) ↔ ∃ y, f x cert = .ok y := by
    intro σ f x
    simp
  have hrules : validateCertificates slot pp b.toLedgerState tx.toTransaction = .ok () ↔
      RulesAccept slot pp b.toLedgerState {} {} {} cert := by
    rw [validateCertificates_eq_ok htx, hsingle, hsingle, hsingle, RulesAccept]
  constructor
  · rintro ⟨b', hb'⟩
    obtain ⟨hval, _⟩ := seq_eq_ok.mp hb'
    have hview := hrules.mp hval
    have hno := h.not_misjudged hview
    exact ⟨(h.accepts_iff hpv hno).mpr hview, hno⟩
  · rintro ⟨hone, hno⟩
    have hview := (h.accepts_iff hpv hno).mp hone
    obtain ⟨_, ⟨t', ht'⟩, ⟨s', hs'⟩⟩ := hone
    have hutxo := sameBesidesUtxo_applyUtxo b tx.toTransaction
    have h₁ := h.congr hutxo.pool hutxo.account hutxo.drep
    obtain ⟨b₂, hb₂⟩ := h₁.applies hpv ht' hs'
    exact ⟨_, seq_eq_ok.mpr
      ⟨hrules.mpr hview, applyTransaction_single htx |>.mpr ⟨b₂, hb₂, rfl⟩⟩⟩

theorem CertificatesAgree.validateAndApply
    (htx : Carries tx [cert]) (hd : d.step base pp cert = .ok d')
    (ht : t.step base pp.keyDeposit pp.dRepDeposit cert = .ok t')
    (hs : poolRuleStep slot base pp.toProtocolParameters s cert = .ok s')
    (hb : Conway.validateAndApply slot pp b tx.toTransaction = .ok b') :
    CertificatesAgree base (done ++ [cert]) b' d' t' s' := by
  obtain ⟨_, hb⟩ := seq_eq_ok.mp hb
  obtain ⟨b₂, hb₂, rfl⟩ := (applyTransaction_single htx).mp hb
  have hutxo := sameBesidesUtxo_applyUtxo b tx.toTransaction
  have h₂ := (h.congr hutxo.pool hutxo.account hutxo.drep).step hpv hs hd ht hb₂
  have hparts := sameParts_recordProposals b₂ tx.hash tx.txProposalProcedures
  exact h₂.congr hparts.pool hparts.account hparts.drep

end

end Agree

/-! ## Every list of certificates -/

variable {done certs : List Certificate}

theorem someMisjudged_from_cons {base : LedgerState} {cert : Certificate} :
    (∃ l c r, cert :: certs = l ++ c :: r ∧ Misjudged base (done ++ l) c) ↔
      Misjudged base done cert ∨
        ∃ l c r, certs = l ++ c :: r ∧ Misjudged base (done ++ [cert] ++ l) c := by
  constructor
  · rintro ⟨l, c, r, heq, hmis⟩
    cases l with
    | nil =>
      obtain ⟨rfl, rfl⟩ := List.cons.inj heq
      rw [List.append_nil] at hmis
      exact .inl hmis
    | cons x l =>
      obtain ⟨rfl, rfl⟩ := List.cons.inj heq
      refine .inr ⟨l, c, r, rfl, ?_⟩
      rwa [List.append_assoc]
  · rintro (hmis | ⟨l, c, r, rfl, hmis⟩)
    · exact ⟨[], cert, certs, rfl, by rwa [List.append_nil]⟩
    · refine ⟨cert :: l, c, r, rfl, ?_⟩
      rwa [List.append_assoc] at hmis

/-- From tied states, the rest of the list is accepted one certificate a
transaction exactly when the three loops accept it and no certificate of it is
misjudged. -/
theorem CertificatesAgree.run_iff {base : LedgerState} {pp : ConwayProtocolParameters}
    {slot : UInt64} (hpv : 11 ≤ pp.protocolVersionMajor) {txs : List ConwayTransaction}
    (htxs : List.Forall₂ (fun tx c => Carries tx [c]) txs certs) {b : BlockLedgerState}
    {d : DelegationState} {t : DepositState} {s : PoolRuleState}
    (h : CertificatesAgree base done b d t s) :
    (∃ b', (txs.map (·.toTransaction)).foldlM (Conway.validateAndApply slot pp) b = .ok b') ↔
      ((∃ d', certs.foldlM (DelegationState.step base pp) d = .ok d') ∧
        (∃ t', certs.foldlM (DepositState.step base pp.keyDeposit pp.dRepDeposit) t = .ok t') ∧
        ∃ s', certs.foldlM (poolRuleStep slot base pp.toProtocolParameters) s = .ok s') ∧
      ¬ ∃ l c r, certs = l ++ c :: r ∧ Misjudged base (done ++ l) c := by
  induction htxs generalizing done b d t s with
  | nil => simp [pure, Except.pure]
  | @cons tx cert txs certs htx _ ih =>
    rw [someMisjudged_from_cons, not_or, List.map_cons]
    simp only [foldlM_cons_eq_ok]
    constructor
    · rintro ⟨b', b₁, hb₁, hrest⟩
      obtain ⟨⟨⟨d₁, hd₁⟩, ⟨t₁, ht₁⟩, ⟨s₁, hs₁⟩⟩, hno⟩ :=
        (h.validateAndApply_iff hpv htx).mp ⟨b₁, hb₁⟩
      have h₁ := h.validateAndApply hpv htx hd₁ ht₁ hs₁ hb₁
      obtain ⟨⟨⟨d', hd'⟩, ⟨t', ht'⟩, ⟨s', hs'⟩⟩, hnone⟩ := (ih h₁).mp ⟨b', hrest⟩
      exact ⟨⟨⟨d', d₁, hd₁, hd'⟩, ⟨t', t₁, ht₁, ht'⟩, ⟨s', s₁, hs₁, hs'⟩⟩, hno, hnone⟩
    · rintro ⟨⟨⟨d', d₁, hd₁, hd'⟩, ⟨t', t₁, ht₁, ht'⟩, ⟨s', s₁, hs₁, hs'⟩⟩, hno, hnone⟩
      obtain ⟨b₁, hb₁⟩ :=
        (h.validateAndApply_iff hpv htx).mpr ⟨⟨⟨d₁, hd₁⟩, ⟨t₁, ht₁⟩, ⟨s₁, hs₁⟩⟩, hno⟩
      have h₁ := h.validateAndApply hpv htx hd₁ ht₁ hs₁ hb₁
      obtain ⟨b', hb'⟩ := (ih h₁).mpr ⟨⟨⟨d', hd'⟩, ⟨t', ht'⟩, ⟨s', hs'⟩⟩, hnone⟩
      exact ⟨b', b₁, hb₁, hb'⟩

/-- A list is accepted one certificate a transaction exactly when it is accepted
in one transaction and the view misjudges none of its certificates; so the two
ways differ exactly on the accepted lists with a misjudged certificate. -/
theorem certificate_split_agrees {base : LedgerState} {pp : ConwayProtocolParameters}
    {slot : UInt64} (hpv : 11 ≤ pp.protocolVersionMajor) {certs : List Certificate}
    {tx : ConwayTransaction} (htx : Carries tx certs) {txs : List ConwayTransaction}
    (htxs : List.Forall₂ (fun tx c => Carries tx [c]) txs certs) :
    ((∃ b', (txs.map (·.toTransaction)).foldlM (validateAndApply slot pp)
        (newBlockLedgerState base) = .ok b') ↔
      validateCertificates slot pp base tx.toTransaction = .ok () ∧
        ¬ SomeMisjudged base certs) ∧
    ((validateCertificates slot pp base tx.toTransaction = .ok () ↔
      ∃ b', (txs.map (·.toTransaction)).foldlM (validateAndApply slot pp)
        (newBlockLedgerState base) = .ok b') ↔
      ¬ (validateCertificates slot pp base tx.toTransaction = .ok () ∧
        SomeMisjudged base certs)) := by
  have hsplit : (∃ b', (txs.map (·.toTransaction)).foldlM (validateAndApply slot pp)
        (newBlockLedgerState base) = .ok b') ↔
      validateCertificates slot pp base tx.toTransaction = .ok () ∧
        ¬ SomeMisjudged base certs := by
    rw [(certificatesAgree_init base).run_iff hpv htxs, validateCertificates_eq_ok htx]
    rfl
  refine ⟨hsplit, ?_⟩
  rw [hsplit]
  constructor
  · rintro hiff ⟨hok, hmis⟩
    exact (hiff.mp hok).2 hmis
  · intro hnot
    exact ⟨fun hok => ⟨hok, fun hmis => hnot ⟨hok, hmis⟩⟩, And.left⟩

/-! ### A list both ways accept -/

def carrying (certs : List Certificate) : ConwayTransaction where
  hash := 1
  txIsValid := true
  txInputs := []
  txOutputs := []
  txCollateral := []
  txCollateralReturn := none
  txReferenceInputs := []
  txFee := 0
  txCertificates := certs
  txWithdrawals := none
  txMint := none
  txProposalProcedures := []
  txDonation := 0
  outputs_lt := by decide

theorem carries_carrying (certs : List Certificate) : Carries (carrying certs) certs :=
  ⟨rfl, rfl, rfl⟩

theorem carries_carrying_each (certs : List Certificate) :
    List.Forall₂ (fun tx c => Carries tx [c]) (certs.map fun c => carrying [c]) certs := by
  rw [List.forall₂_map_left_iff, List.forall₂_same]
  exact fun c _ => carries_carrying [c]

def splitParameters : ConwayProtocolParameters where
  protocolVersionMajor := 11
  keyDeposit := 2
  poolDeposit := 500
  dRepDeposit := 3
  govActionDeposit := 4
  minPoolCost := 0
  maxEpoch := 18

def poolLife : List Certificate :=
  [.poolRegistration ⟨1, 7, 0, none, none⟩, .stakeRegistrationDelegation ⟨0, 3⟩ 1 2,
    .poolRegistration ⟨1, 8, 0, none, none⟩, .poolRegistration ⟨1, 9, 0, none, none⟩,
    .poolRegistration ⟨2, 8, 0, none, none⟩, .deregistration ⟨0, 3⟩ 2, .poolRetirement 1 1]

theorem not_someMisjudged_empty (certs : List Certificate) :
    ¬ SomeMisjudged LedgerState.empty certs := by
  rintro ⟨_, _, _, _, ⟨_, _, _, _, _, _, hcur⟩ | ⟨hcap, _⟩⟩
  · cases hcur
  · cases hcap

theorem certificate_split_agrees_poolLife :
    validateCertificates 0 splitParameters LedgerState.empty (carrying poolLife).toTransaction =
      .ok () ∧
    ∃ b', ((poolLife.map fun c => carrying [c]).map (·.toTransaction)).foldlM
      (validateAndApply 0 splitParameters) (newBlockLedgerState LedgerState.empty) = .ok b' := by
  have hok : validateCertificates 0 splitParameters LedgerState.empty
      (carrying poolLife).toTransaction = .ok () := by decide
  exact ⟨hok, (certificate_split_agrees (by decide) (carries_carrying poolLife)
    (carries_carrying_each poolLife)).1.mpr ⟨hok, not_someMisjudged_empty poolLife⟩⟩

/-! ### A pool that comes back -/

/-- Pool 1 retired in epoch 4, which the state has reached: it still answers with the registration,
and no longer reports the pool as registered. -/
def retiredState : LedgerState :=
  { LedgerState.empty with
    isStakeCredentialRegistered := fun cred => cred = ⟨0, 3⟩
    rewardAccountBalance := fun cred => .ok (if cred = ⟨0, 3⟩ then some 0 else none)
    stakeCredentialDeposit? := some fun cred => .ok (if cred = ⟨0, 3⟩ then some 2 else none)
    poolCurrentState := fun p =>
      .ok (if p = 1 then (some ⟨1, 7, 0, none, none⟩, some 4) else (none, none))
    isVrfKeyInUse := fun k => .ok (if k = 7 then some 1 else none)
    epochForSlot? := some fun _ => .ok 5 }

def comeback : List Certificate :=
  [.poolRegistration ⟨1, 7, 0, none, none⟩, .stakeDelegation (some ⟨0, 3⟩) 1]

/-- One transaction may register the pool again and delegate to it; in two the
delegation is rejected. -/
theorem split_rejects_comeback :
    11 ≤ splitParameters.protocolVersionMajor ∧ Carries (carrying comeback) comeback ∧
    List.Forall₂ (fun tx c => Carries tx [c]) (comeback.map fun c => carrying [c]) comeback ∧
    validateCertificates 0 splitParameters retiredState (carrying comeback).toTransaction =
      .ok () ∧
    ((comeback.map fun c => carrying [c]).map (·.toTransaction)).foldlM
      (validateAndApply 0 splitParameters) (newBlockLedgerState retiredState) =
        (.error (.delegateToUnregisteredPool 1) : Except LedgerError BlockLedgerState) := by
  refine ⟨by decide, carries_carrying _, carries_carrying_each _, by decide, ?_⟩
  rfl

end Gouroboros.Ledger.Conway

import Gouroboros.Ledger.Common.BlockAccounts
import Gouroboros.Ledger.Conway.Rules

/-!
# What one certificate does to each rule's maps

Each Conway rule decides a certificate from the answers its maps give over the
ledger state: a map entry when there is one, the state's answer otherwise. The
lemmas of this module say, for the deposit rule and for the value rule, when a
certificate is accepted in terms of those answers, and which entry it writes.
The rules' bodies are not unfolded anywhere else.
-/

namespace Gouroboros.Ledger

open ExceptFold

def Certificate.refund : Certificate → Option UInt64
  | .deregistration _ amount => some amount
  | _ => none

namespace Conway

variable {ls : LedgerState} {cert : Certificate} {cred : Credential}

/-! ## The deposit rule -/

namespace DepositState

variable {s s' : DepositState} {keyDeposit drepDeposit : UInt64}

/-- What the rule knows of a stake credential. -/
def stakeAnswer (ls : LedgerState) (s : DepositState) (cred : Credential) :
    Except LedgerError CertificateStakeState :=
  match s.stakeStates.lookup cred with
  | some state => .ok state
  | none => queryStakeState ls cred

def drepAnswer (ls : LedgerState) (s : DepositState) (cred : Credential) :
    Except LedgerError (Option DRepRegistration) :=
  match s.drepStates.lookup cred with
  | some state => .ok state
  | none => ls.dRepRegistration cred

structure WritesStake (s s' : DepositState) (cred : Credential) (state : CertificateStakeState) :
    Prop where
  stake : ∀ c, s'.stakeStates.lookup c = if c = cred then some state else s.stakeStates.lookup c
  drep : s'.drepStates = s.drepStates

structure WritesDRep (s s' : DepositState) (cred : Credential) (state : Option DRepRegistration) :
    Prop where
  drep : ∀ c, s'.drepStates.lookup c = if c = cred then some state else s.drepStates.lookup c
  stake : s'.stakeStates = s.stakeStates

theorem writesStake_storeStakeState (s : DepositState) (cred : Credential)
    (state : CertificateStakeState) : WritesStake s (s.storeStakeState cred state) cred state :=
  ⟨GoMap.writes_insert _ _ _, rfl⟩

theorem writesDRep_storeDRep (s : DepositState) (cred : Credential)
    (state : Option DRepRegistration) : WritesDRep s (s.storeDRep cred state) cred state :=
  ⟨GoMap.writes_insert _ _ _, rfl⟩

variable {state : CertificateStakeState} {t : DepositState}

theorem loadStakeState_eq_ok (h : s.loadStakeState ls cred = .ok (state, t)) :
    s.stakeAnswer ls cred = .ok state ∧ WritesStake s t cred state := by
  unfold loadStakeState at h
  unfold stakeAnswer
  generalize hl : s.stakeStates.lookup cred = entry at h ⊢
  cases entry with
  | some st =>
    cases h
    exact ⟨rfl, GoMap.Writes.of_lookup hl, rfl⟩
  | none =>
    obtain ⟨st, hq, hok⟩ := bind_eq_ok.mp h
    cases hok
    exact ⟨hq, writesStake_storeStakeState s cred state⟩

theorem loadStakeState_of_answer (h : s.stakeAnswer ls cred = .ok state) :
    ∃ t, s.loadStakeState ls cred = .ok (state, t) := by
  unfold stakeAnswer at h
  unfold loadStakeState
  generalize s.stakeStates.lookup cred = entry at h ⊢
  cases entry with
  | some st =>
    cases h
    exact ⟨s, rfl⟩
  | none => exact ⟨_, bind_eq_ok.mpr ⟨state, h, rfl⟩⟩

theorem WritesStake.trans {state' : CertificateStakeState} (h₁ : WritesStake s t cred state)
    (h₂ : WritesStake t s' cred state') : WritesStake s s' cred state' :=
  ⟨GoMap.Writes.trans h₁.stake h₂.stake, h₂.drep.trans h₁.drep⟩

theorem loadDRep_eq_ok {state : Option DRepRegistration} (h : s.loadDRep ls cred = .ok (state, t)) :
    s.drepAnswer ls cred = .ok state ∧ WritesDRep s t cred state := by
  unfold loadDRep at h
  unfold drepAnswer
  generalize hl : s.drepStates.lookup cred = entry at h ⊢
  cases entry with
  | some st =>
    cases h
    exact ⟨rfl, GoMap.Writes.of_lookup hl, rfl⟩
  | none =>
    obtain ⟨st, hq, hok⟩ := bind_eq_ok.mp h
    cases hok
    exact ⟨hq, writesDRep_storeDRep s cred state⟩

theorem loadDRep_of_answer {state : Option DRepRegistration}
    (h : s.drepAnswer ls cred = .ok state) : ∃ t, s.loadDRep ls cred = .ok (state, t) := by
  unfold drepAnswer at h
  unfold loadDRep
  generalize s.drepStates.lookup cred = entry at h ⊢
  cases entry with
  | some st =>
    cases h
    exact ⟨s, rfl⟩
  | none => exact ⟨_, bind_eq_ok.mpr ⟨state, h, rfl⟩⟩

theorem WritesDRep.trans {state state' : Option DRepRegistration} (h₁ : WritesDRep s t cred state)
    (h₂ : WritesDRep t s' cred state') : WritesDRep s s' cred state' :=
  ⟨GoMap.Writes.trans h₁.drep h₂.drep, h₂.stake.trans h₁.stake⟩

/-! ### Reading a write back -/

section

variable (h : WritesStake s s' cred state)
include h

theorem WritesStake.stakeAnswer (c : Credential) :
    s'.stakeAnswer ls c = if c = cred then .ok state else s.stakeAnswer ls c := by
  by_cases hc : c = cred <;> simp [DepositState.stakeAnswer, h.stake, hc]

theorem WritesStake.isMarkedRegistered (c : Credential) :
    s'.isMarkedRegistered ls c =
      if c = cred then state.registered else s.isMarkedRegistered ls c := by
  by_cases hc : c = cred <;> simp [DepositState.isMarkedRegistered, h.stake, hc]

theorem WritesStake.drepAnswer (c : Credential) : s'.drepAnswer ls c = s.drepAnswer ls c := by
  unfold DepositState.drepAnswer
  rw [h.drep]

end

section

variable {reg : Option DRepRegistration} (h : WritesDRep s s' cred reg) (c : Credential)
include h

theorem WritesDRep.drepAnswer :
    s'.drepAnswer ls c = if c = cred then .ok reg else s.drepAnswer ls c := by
  by_cases hc : c = cred <;> simp [DepositState.drepAnswer, h.drep, hc]

theorem WritesDRep.stakeAnswer : s'.stakeAnswer ls c = s.stakeAnswer ls c := by
  unfold DepositState.stakeAnswer
  rw [h.stake]

theorem WritesDRep.isMarkedRegistered : s'.isMarkedRegistered ls c = s.isMarkedRegistered ls c := by
  unfold DepositState.isMarkedRegistered
  rw [h.stake]

end

theorem recordedStakeState_eq_ok (h : recordedStakeState ls cred = .ok state) :
    ∃ depositState, stakeCredentialDepositStateFor ls = some depositState ∧
      depositState cred = .ok (some state.deposit) ∧
      ls.rewardAccountBalance cred = .ok (some state.balance) ∧ state.registered := by
  unfold recordedStakeState at h
  split at h
  · cases h
  · rename_i depositState hcap
    obtain ⟨deposit, hdep, h⟩ := bind_eq_ok.mp h
    cases deposit with
    | none => cases h
    | some deposit =>
      obtain ⟨balance, hbal, h⟩ := bind_eq_ok.mp h
      cases balance with
      | none => cases h
      | some balance =>
        cases h
        exact ⟨depositState, hcap, hdep, hbal, rfl⟩

theorem recorded_of_query (h : queryStakeState ls cred = .ok state) (hreg : state.registered) :
    ls.isStakeCredentialRegistered cred ∧ ∃ depositState,
      stakeCredentialDepositStateFor ls = some depositState ∧
      depositState cred = .ok (some state.deposit) ∧
      ls.rewardAccountBalance cred = .ok (some state.balance) ∧ state.registered := by
  unfold queryStakeState at h
  split at h
  · rename_i hls
    exact ⟨hls, recordedStakeState_eq_ok h⟩
  · cases h
    cases hreg

theorem registered_of_stakeAnswer (h : s.stakeAnswer ls cred = .ok state) :
    state.registered = s.isMarkedRegistered ls cred := by
  unfold stakeAnswer at h
  unfold isMarkedRegistered
  cases hl : s.stakeStates.lookup cred with
  | some st =>
    rw [hl] at h
    cases h
    rfl
  | none =>
    rw [hl] at h
    unfold queryStakeState at h
    by_cases hreg : ls.isStakeCredentialRegistered cred
    · rw [if_pos hreg] at h
      obtain ⟨_, _, _, _, hst⟩ := recordedStakeState_eq_ok h
      rw [hst, hreg]
    · rw [if_neg hreg] at h
      cases h
      exact (Bool.not_eq_true _ ▸ hreg).symm

/-! ### Stake certificates -/

variable {amount : UInt64}

theorem step_register (hc : cert.stakeEffect keyDeposit = some (cred, some amount)) :
    step ls keyDeposit drepDeposit s cert = .ok s' ↔
      amount = keyDeposit ∧ s.isMarkedRegistered ls cred = false ∧
        s' = s.storeStakeState cred ⟨true, keyDeposit, 0⟩ := by
  have hmark : s.markStakeRegistered ls keyDeposit cred = .ok s' ↔
      s.isMarkedRegistered ls cred = false ∧
        s' = s.storeStakeState cred ⟨true, keyDeposit, 0⟩ := by
    unfold markStakeRegistered
    rw [guard_eq_ok, Bool.not_eq_true, Except.ok.injEq, eq_comm (b := s')]
  have hreg : ∀ ty, s.registerStake ls keyDeposit cred ty amount = .ok s' ↔
      amount = keyDeposit ∧ s.isMarkedRegistered ls cred = false ∧
        s' = s.storeStakeState cred ⟨true, keyDeposit, 0⟩ := by
    intro ty
    unfold registerStake
    rw [guard_eq_ok, not_not, hmark]
  cases cert with
  | stakeRegistration c =>
    obtain ⟨rfl, hd⟩ := Prod.mk.inj (Option.some.inj hc)
    cases hd
    exact hmark.trans (by simp)
  | registration | stakeRegistrationDelegation | voteRegistrationDelegation
  | stakeVoteRegistrationDelegation =>
    obtain ⟨rfl, hd⟩ := Prod.mk.inj (Option.some.inj hc)
    cases hd
    exact hreg _
  | _ => cases hc

structure Deregisters (ls : LedgerState) (s : DepositState) (cert : Certificate)
    (cred : Credential) (state : CertificateStakeState) : Prop where
  answer : s.stakeAnswer ls cred = .ok state
  registered : state.registered = true
  refund : ∀ amount, cert.refund = some amount → amount = state.deposit
  balance : state.balance = 0

variable {supplied : Option UInt64}

theorem checkRefund_eq_ok {ty : Nat} {deposit : UInt64} :
    checkRefund ty supplied deposit = .ok () ↔
      ∀ amount, supplied = some amount → amount = deposit := by
  unfold checkRefund
  cases supplied with
  | none => simp
  | some amount => simp

theorem deregisterStake_eq_ok {ty : Nat} (h : s.deregisterStake ls cred ty supplied = .ok s') :
    ∃ state, s.stakeAnswer ls cred = .ok state ∧ state.registered ∧
      (∀ amount, supplied = some amount → amount = state.deposit) ∧ state.balance = 0 ∧
      WritesStake s s' cred { state with registered := false, deposit := 0 } := by
  obtain ⟨⟨state, t⟩, hload, h⟩ := bind_eq_ok.mp h
  obtain ⟨hanswer, hwrites⟩ := loadStakeState_eq_ok hload
  obtain ⟨hreg, h⟩ := guard_eq_ok.mp h
  obtain ⟨⟨⟩, hrefund, h⟩ := bind_eq_ok.mp h
  obtain ⟨hbal, h⟩ := guard_eq_ok.mp h
  cases h
  exact ⟨state, hanswer, by simpa using hreg, checkRefund_eq_ok.mp hrefund, not_not.mp hbal,
    hwrites.trans (writesStake_storeStakeState t cred _)⟩

theorem deregisterStake_of_answer {ty : Nat} (hanswer : s.stakeAnswer ls cred = .ok state)
    (hreg : state.registered) (hrefund : ∀ amount, supplied = some amount → amount = state.deposit)
    (hbal : state.balance = 0) : ∃ s', s.deregisterStake ls cred ty supplied = .ok s' := by
  obtain ⟨t, ht⟩ := loadStakeState_of_answer hanswer
  refine ⟨t.storeStakeState cred { state with registered := false, deposit := 0 }, ?_⟩
  refine bind_eq_ok.mpr ⟨_, ht, guard_eq_ok.mpr ⟨by simp [hreg], ?_⟩⟩
  refine bind_eq_ok.mpr ⟨(), checkRefund_eq_ok.mpr hrefund, ?_⟩
  exact guard_eq_ok.mpr ⟨not_not.mpr hbal, rfl⟩

theorem step_deregister (hc : cert.stakeEffect keyDeposit = some (cred, none))
    (h : step ls keyDeposit drepDeposit s cert = .ok s') :
    ∃ state, Deregisters ls s cert cred state ∧
      WritesStake s s' cred { state with registered := false, deposit := 0 } := by
  cases cert with
  | stakeDeregistration c =>
    cases hc
    obtain ⟨state, ha, hr, hf, hb, hw⟩ := deregisterStake_eq_ok h
    exact ⟨state, ⟨ha, hr, by simp [Certificate.refund], hb⟩, hw⟩
  | deregistration c a =>
    cases hc
    obtain ⟨state, ha, hr, hf, hb, hw⟩ := deregisterStake_eq_ok h
    exact ⟨state, ⟨ha, hr, hf, hb⟩, hw⟩
  | _ => cases hc

theorem step_deregister_of (hc : cert.stakeEffect keyDeposit = some (cred, none))
    (h : Deregisters ls s cert cred state) :
    ∃ s', step ls keyDeposit drepDeposit s cert = .ok s' := by
  cases cert with
  | stakeDeregistration c =>
    cases hc
    exact deregisterStake_of_answer h.answer h.registered (by simp) h.balance
  | deregistration c a =>
    cases hc
    exact deregisterStake_of_answer h.answer h.registered h.refund h.balance
  | _ => cases hc

/-! ### Withdrawals -/

theorem applyWithdrawal_cases {deregistered : List Credential} {w : Address × Option Int}
    (hcred : w.1.stakeCredential = some cred) (hamount : w.2.bind uint64? = some amount)
    (h : s.applyWithdrawal ls deregistered w = .ok s') :
    (cred ∉ deregistered ∧ s' = s) ∨
    (cred ∈ deregistered ∧ ∃ state state', s.stakeAnswer ls cred = .ok state ∧
      WritesStake s s' cred state' ∧ state'.registered = state.registered ∧
      state'.deposit = state.deposit ∧
      (amount ≤ state.balance → state'.balance = state.balance - amount)) := by
  unfold applyWithdrawal at h
  rw [hcred, hamount] at h
  dsimp only at h
  by_cases hmem : cred ∈ deregistered
  · rw [if_neg (not_not.mpr hmem)] at h
    obtain ⟨⟨state, t⟩, hload, h⟩ := bind_eq_ok.mp h
    obtain ⟨hanswer, hw⟩ := loadStakeState_eq_ok hload
    split at h
    · cases h
      exact .inr ⟨hmem, state, _, hanswer, hw.trans (writesStake_storeStakeState t cred _), rfl,
        rfl, fun _ => rfl⟩
    · rename_i hle
      cases h
      exact .inr ⟨hmem, state, state, hanswer, hw, rfl, rfl, fun h => absurd h hle⟩
  · rw [if_pos hmem] at h
    cases h
    exact .inl ⟨hmem, rfl⟩

/-! ### DRep certificates -/

variable {anchor : Option GovAnchor}

theorem step_registrationDrep
    (h : step ls keyDeposit drepDeposit s (.registrationDrep cred amount anchor) = .ok s') :
    amount = drepDeposit ∧ s.drepAnswer ls cred = .ok none ∧
      WritesDRep s s' cred (some ⟨cred, none, some drepDeposit⟩) := by
  obtain ⟨hamount, h⟩ := guard_eq_ok.mp h
  obtain ⟨⟨state, t⟩, hload, h⟩ := bind_eq_ok.mp h
  obtain ⟨hanswer, hwrites⟩ := loadDRep_eq_ok hload
  cases state with
  | some r => cases h
  | none =>
    cases h
    exact ⟨not_not.mp hamount, hanswer, hwrites.trans (writesDRep_storeDRep t cred _)⟩

theorem step_registrationDrep_of (h : s.drepAnswer ls cred = .ok none) :
    ∃ s', step ls keyDeposit drepDeposit s (.registrationDrep cred drepDeposit anchor) = .ok s' := by
  obtain ⟨t, ht⟩ := loadDRep_of_answer h
  refine ⟨t.storeDRep cred (some ⟨cred, none, some drepDeposit⟩), ?_⟩
  exact guard_eq_ok.mpr ⟨by simp, bind_eq_ok.mpr ⟨_, ht, rfl⟩⟩

theorem step_deregistrationDrep
    (h : step ls keyDeposit drepDeposit s (.deregistrationDrep cred amount) = .ok s') :
    ∃ reg, s.drepAnswer ls cred = .ok (some reg) ∧ reg.deposit = some amount ∧
      WritesDRep s s' cred none := by
  obtain ⟨⟨state, t⟩, hload, h⟩ := bind_eq_ok.mp h
  obtain ⟨hanswer, hwrites⟩ := loadDRep_eq_ok hload
  cases state with
  | none => cases h
  | some reg =>
    dsimp only at h
    split at h
    · cases h
    · rename_i deposit hdep
      obtain ⟨hamount, h⟩ := guard_eq_ok.mp h
      cases h
      exact ⟨reg, hanswer, hdep.trans (congrArg some (not_not.mp hamount).symm),
        hwrites.trans (writesDRep_storeDRep t cred _)⟩

theorem step_deregistrationDrep_of {reg : DRepRegistration}
    (h : s.drepAnswer ls cred = .ok (some reg)) (hamount : reg.deposit = some amount) :
    ∃ s', step ls keyDeposit drepDeposit s (.deregistrationDrep cred amount) = .ok s' := by
  obtain ⟨t, ht⟩ := loadDRep_of_answer h
  refine ⟨t.storeDRep cred none, bind_eq_ok.mpr ⟨_, ht, ?_⟩⟩
  simp [hamount]

theorem step_updateDrep (h : step ls keyDeposit drepDeposit s (.updateDrep cred anchor) = .ok s') :
    ∃ reg, s.drepAnswer ls cred = .ok (some reg) ∧ WritesDRep s s' cred (some reg) := by
  obtain ⟨⟨state, t⟩, hload, h⟩ := bind_eq_ok.mp h
  obtain ⟨hanswer, hwrites⟩ := loadDRep_eq_ok hload
  cases state with
  | none => cases h
  | some reg =>
    cases h
    exact ⟨reg, hanswer, hwrites⟩

theorem step_updateDrep_of {reg : DRepRegistration} (h : s.drepAnswer ls cred = .ok (some reg)) :
    ∃ s', step ls keyDeposit drepDeposit s (.updateDrep cred anchor) = .ok s' := by
  obtain ⟨t, ht⟩ := loadDRep_of_answer h
  exact ⟨t, bind_eq_ok.mpr ⟨_, ht, rfl⟩⟩

end DepositState

theorem DepositState.step_other {s : DepositState} {keyDeposit drepDeposit : UInt64}
    (hstake : cert.stakeEffect keyDeposit = none) (hdrep : cert.isDRep = false) :
    step ls keyDeposit drepDeposit s cert = .ok s := by
  cases cert with
  | registrationDrep | deregistrationDrep | updateDrep => cases hdrep
  | _ => first | rfl | cases hstake

/-! ## The value rule -/

namespace ValueState

variable {s s' : ValueState} {pp : ConwayProtocolParameters}

/-- What the rule knows of a stake credential. -/
def stakeAnswer (ls : LedgerState) (pp : ConwayProtocolParameters) (s : ValueState)
    (cred : Credential) : Except LedgerError ValueConservationStakeState :=
  match s.stakeStates.lookup cred with
  | some state => .ok state
  | none => queryStake ls pp cred

def drepAnswer (ls : LedgerState) (s : ValueState) (cred : Credential) :
    Except LedgerError (Option DRepRegistration) :=
  match s.drepStates.lookup cred with
  | some state => .ok state
  | none => queryDRep ls cred

structure WritesStake (s s' : ValueState) (cred : Credential)
    (state : ValueConservationStakeState) (refund deposit : Int) : Prop where
  stake : ∀ c, s'.stakeStates.lookup c = if c = cred then some state else s.stakeStates.lookup c
  drep : s'.drepStates = s.drepStates
  refunds : s'.refunds = s.refunds + refund
  deposits : s'.deposits = s.deposits + deposit

structure WritesDRep (s s' : ValueState) (cred : Credential)
    (state : Option DRepRegistration) (refund deposit : Int) : Prop where
  drep : ∀ c, s'.drepStates.lookup c = if c = cred then some state else s.drepStates.lookup c
  stake : s'.stakeStates = s.stakeStates
  refunds : s'.refunds = s.refunds + refund
  deposits : s'.deposits = s.deposits + deposit

variable {state : ValueConservationStakeState}

theorem getStake_eq_ok {t : ValueState} (h : s.getStake ls pp cred = .ok (state, t)) :
    s.stakeAnswer ls pp cred = .ok state ∧ WritesStake s t cred state 0 0 := by
  unfold getStake at h
  unfold stakeAnswer
  generalize hl : s.stakeStates.lookup cred = entry at h ⊢
  cases entry with
  | some st =>
    cases h
    exact ⟨rfl, GoMap.Writes.of_lookup hl, rfl, (add_zero _).symm, (add_zero _).symm⟩
  | none =>
    obtain ⟨st, hq, hok⟩ := bind_eq_ok.mp h
    cases hok
    exact ⟨hq, GoMap.writes_insert _ _ _, rfl, (add_zero _).symm, (add_zero _).symm⟩

theorem getDRep_eq_ok {state : Option DRepRegistration} {t : ValueState}
    (h : s.getDRep ls cred = .ok (state, t)) :
    s.drepAnswer ls cred = .ok state ∧ WritesDRep s t cred state 0 0 := by
  unfold getDRep at h
  unfold drepAnswer
  generalize hl : s.drepStates.lookup cred = entry at h ⊢
  cases entry with
  | some st =>
    cases h
    exact ⟨rfl, GoMap.Writes.of_lookup hl, rfl, (add_zero _).symm, (add_zero _).symm⟩
  | none =>
    obtain ⟨st, hq, hok⟩ := bind_eq_ok.mp h
    cases hok
    exact ⟨hq, GoMap.writes_insert _ _ _, rfl, (add_zero _).symm, (add_zero _).symm⟩

/-! ### Reading a write back -/

variable {refund deposit : Int}

theorem WritesStake.stakeAnswer (h : WritesStake s s' cred state refund deposit) (c : Credential) :
    s'.stakeAnswer ls pp c = if c = cred then .ok state else s.stakeAnswer ls pp c := by
  by_cases hc : c = cred <;> simp [ValueState.stakeAnswer, h.stake, hc]

theorem WritesStake.drepAnswer (h : WritesStake s s' cred state refund deposit) (c : Credential) :
    s'.drepAnswer ls c = s.drepAnswer ls c := by
  unfold ValueState.drepAnswer
  rw [h.drep]

theorem WritesDRep.drepAnswer {state : Option DRepRegistration}
    (h : WritesDRep s s' cred state refund deposit) (c : Credential) :
    s'.drepAnswer ls c = if c = cred then .ok state else s.drepAnswer ls c := by
  by_cases hc : c = cred <;> simp [ValueState.drepAnswer, h.drep, hc]

theorem WritesDRep.stakeAnswer {state : Option DRepRegistration}
    (h : WritesDRep s s' cred state refund deposit) (c : Credential) :
    s'.stakeAnswer ls pp c = s.stakeAnswer ls pp c := by
  unfold ValueState.stakeAnswer
  rw [h.stake]

/-! ### Certificates -/

variable {amount : UInt64}

theorem step_register (hc : cert.stakeEffect pp.keyDeposit = some (cred, some amount))
    (h : step ls pp true s cert = .ok s') :
    amount = pp.keyDeposit ∧ WritesStake s s' cred ⟨true, pp.keyDeposit⟩ 0 pp.keyDeposit.toNat := by
  have hwrites : WritesStake s (s.registerStake pp cred) cred ⟨true, pp.keyDeposit⟩ 0
      pp.keyDeposit.toNat :=
    ⟨GoMap.writes_insert _ _ _, rfl, (add_zero _).symm, rfl⟩
  have hchecked : ∀ ty, s.registerStakeChecked pp true cred ty amount = .ok s' →
      amount = pp.keyDeposit ∧
        WritesStake s s' cred ⟨true, pp.keyDeposit⟩ 0 pp.keyDeposit.toNat := by
    intro ty h
    obtain ⟨⟨⟩, hcheck, h⟩ := bind_eq_ok.mp h
    obtain ⟨hamount, _⟩ := guard_eq_ok.mp hcheck
    cases h
    exact ⟨by simpa using hamount, hwrites⟩
  cases cert with
  | stakeRegistration c =>
    cases hc
    cases h
    exact ⟨rfl, hwrites⟩
  | registration | stakeRegistrationDelegation | voteRegistrationDelegation
  | stakeVoteRegistrationDelegation =>
    cases hc
    exact hchecked _ h
  | _ => cases hc

theorem step_deregister (hc : cert.stakeEffect pp.keyDeposit = some (cred, none))
    (h : step ls pp true s cert = .ok s') :
    ∃ state, s.stakeAnswer ls pp cred = .ok state ∧ state.registered ∧
      WritesStake s s' cred ⟨false, 0⟩ state.deposit.toNat 0 := by
  have hderegister : ∀ ty amount, s.deregisterStake ls pp true cred ty amount = .ok s' →
      ∃ state, s.stakeAnswer ls pp cred = .ok state ∧ state.registered = true ∧
        WritesStake s s' cred ⟨false, 0⟩ state.deposit.toNat 0 := by
    intro ty amount h
    obtain ⟨⟨state, t⟩, hget, h⟩ := bind_eq_ok.mp h
    obtain ⟨hanswer, hw⟩ := getStake_eq_ok hget
    dsimp only at h
    split at h
    · cases h
    · rename_i hreg
      obtain ⟨⟨⟩, _, h⟩ := bind_eq_ok.mp h
      cases h
      refine ⟨state, hanswer, by simpa using hreg,
        GoMap.Writes.trans hw.stake (GoMap.writes_insert _ _ _), hw.drep, ?_, hw.deposits⟩
      change t.refunds + _ = _
      rw [hw.refunds, add_zero]
  cases cert with
  | stakeDeregistration | deregistration =>
    cases hc
    exact hderegister _ _ h
  | _ => cases hc

theorem step_registrationDrep {anchor : Option GovAnchor}
    (h : step ls pp true s (.registrationDrep cred amount anchor) = .ok s') :
    WritesDRep s s' cred (some ⟨cred, none, some pp.dRepDeposit⟩) 0 pp.dRepDeposit.toNat := by
  obtain ⟨⟨⟩, _, h⟩ := bind_eq_ok.mp h
  cases h
  exact ⟨GoMap.writes_insert _ _ _, rfl, (add_zero _).symm, rfl⟩

theorem step_deregistrationDrep (h : step ls pp true s (.deregistrationDrep cred amount) = .ok s') :
    ∃ reg deposit, s.drepAnswer ls cred = .ok (some reg) ∧ reg.deposit = some deposit ∧
      WritesDRep s s' cred none deposit.toNat 0 := by
  obtain ⟨⟨state, t⟩, hget, h⟩ := bind_eq_ok.mp h
  obtain ⟨hanswer, hw⟩ := getDRep_eq_ok hget
  cases state with
  | none => cases h
  | some reg =>
    dsimp only at h
    split at h
    · cases h
    · rename_i deposit hdep
      obtain ⟨_, h⟩ := guard_eq_ok.mp h
      cases h
      refine ⟨reg, deposit, hanswer, hdep,
        GoMap.Writes.trans hw.drep (GoMap.writes_insert _ _ _), hw.stake, ?_, hw.deposits⟩
      change t.refunds + _ = _
      rw [hw.refunds, add_zero]

theorem step_other {isValid : Bool} (hstake : cert.stakeEffect pp.keyDeposit = none)
    (hdrep : ∀ c a, cert ≠ .deregistrationDrep c a)
    (hreg : ∀ c a anchor, cert ≠ .registrationDrep c a anchor) :
    step ls pp isValid s cert = .ok s := by
  cases cert with
  | registrationDrep c a anchor => exact absurd rfl (hreg c a anchor)
  | deregistrationDrep c a => exact absurd rfl (hdrep c a)
  | _ => first | rfl | cases hstake

end ValueState

end Conway

end Gouroboros.Ledger

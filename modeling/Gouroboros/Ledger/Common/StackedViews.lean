import Gouroboros.Ledger.Common.BlockPools
import Gouroboros.Ledger.Common.BlockValue
import Gouroboros.Ledger.Common.FaithfulOverlay

/-!
# Stacked block-scoped views

A block-scoped view may wrap another one: `outer` over `inner` over a provider,
against `flat`, which applies both lists of transactions to the provider.
-/

namespace Gouroboros.Ledger.BlockLedgerState

open ExceptFold

/-! ## The queries that a transaction itself makes -/

/-- Two views answer alike about accounts, DReps and pools. -/
structure SameAnswers (b₁ b₂ : BlockLedgerState) : Prop where
  account : ∀ c, b₁.accountAnswer c = b₂.accountAnswer c
  drep : ∀ c, b₁.dRepRegistration c = b₂.dRepRegistration c
  pool : ∀ p, b₁.poolCurrentState p = b₂.poolCurrentState p
  poolRegistered : ∀ p, b₁.isPoolRegistered p = b₂.isPoolRegistered p

/-- What a view knows of an account or a pool it knows together. -/
structure Orderly (b : BlockLedgerState) : Prop where
  account : ∀ c, (b.account c).registeredKnown = true → (b.account c).balanceKnown = true
  pool : ∀ p, (b.pool p).registrationKnown = true → (b.pool p).retirementKnown = true

variable {b b' b₁ b₂ b₁' b₂' : BlockLedgerState} {c cred : Credential}

theorem SameParts.besidesUtxo (h : SameParts b b') : SameBesidesUtxo b b' :=
  ⟨h.account, h.drep, h.pool⟩

theorem Orderly.of_account (h : Orderly b) (haccounts : ∀ c, (b'.account c).registeredKnown →
    (b'.account c).balanceKnown) (hpools : b'.pools = b.pools) : Orderly b' := by
  refine ⟨haccounts, fun p hp => ?_⟩
  unfold BlockLedgerState.pool at hp ⊢
  rw [hpools] at hp ⊢
  exact h.pool p hp

theorem Orderly.setAccount {a : BlockAccount} (h : Orderly b)
    (ha : a.registeredKnown → a.balanceKnown) : Orderly (b.setAccount cred a) := by
  refine h.of_account (fun c => ?_) rfl
  rw [account_setAccount]
  split
  · exact ha
  · exact h.account c

variable {cert : PoolRegistrationCertificate}

theorem Orderly.applyPoolRegistration (h : Orderly b)
    (hstep : b.applyPoolRegistration cert = .ok b') : Orderly b' := by
  obtain ⟨current, ret, -, hregistered⟩ := registered_of_applyPoolRegistration hstep
  obtain ⟨-, haccounts⟩ := Prod.mk.inj (accountPart_applyPoolRegistration hstep)
  refine ⟨fun c => ?_, fun p => ?_⟩
  · unfold BlockLedgerState.account
    rw [haccounts]
    exact h.account c
  · rw [hregistered.pool_eq]
    split
    · intro _
      cases current <;> rfl
    · exact h.pool p

theorem Orderly.retire (h : Orderly b) (pool : PoolKeyHash) (epoch : UInt64) :
    Orderly (b.applyPoolRetirement pool epoch) := by
  refine ⟨h.account, fun p => ?_⟩
  unfold applyPoolRetirement
  rw [pool_setPool]
  split
  · exact fun _ => rfl
  · exact h.pool p

theorem Orderly.of_parts (h : Orderly b) (hparts : SameBesidesUtxo b b') : Orderly b' := by
  obtain ⟨-, haccounts⟩ := Prod.mk.inj hparts.account
  obtain ⟨-, hrest⟩ := Prod.mk.inj hparts.pool
  obtain ⟨hpools, -⟩ := Prod.mk.inj hrest
  refine ⟨fun c => ?_, fun p => ?_⟩
  · rw [BlockLedgerState.account, haccounts]
    exact h.account c
  · rw [BlockLedgerState.pool, hpools]
    exact h.pool p

structure Alike (b₁ b₂ : BlockLedgerState) : Prop extends SameAnswers b₁ b₂ where
  left : Orderly b₁
  right : Orderly b₂

section

variable (h : Alike b₁ b₂)
include h

/-! ### Accounts and DReps -/

theorem Alike.balance (c : Credential) : b₁.rewardAccountBalance c = b₂.rewardAccountBalance c :=
  congrArg AccountAnswer.balance (h.account c)

theorem Alike.register (deposit : UInt64) :
    Alike (b₁.registerAccount cred deposit) (b₂.registerAccount cred deposit) := by
  refine ⟨⟨fun c => ?_, h.drep, h.pool, h.poolRegistered⟩, h.left.setAccount fun _ => rfl,
    h.right.setAccount fun _ => rfl⟩
  simp only [accountAnswer_registerAccount, h.account c]

theorem Alike.deregister : Alike (b₁.deregisterAccount cred) (b₂.deregisterAccount cred) := by
  refine ⟨⟨fun c => ?_, h.drep, h.pool, h.poolRegistered⟩, h.left.setAccount fun _ => rfl,
    h.right.setAccount fun _ => rfl⟩
  simp only [accountAnswer_deregisterAccount, h.account c]

theorem Alike.delegate (drep : Drep) :
    Alike (b₁.delegateVote cred drep) (b₂.delegateVote cred drep) := by
  refine ⟨⟨fun c => ?_, h.drep, h.pool, h.poolRegistered⟩, h.left.setAccount (h.left.account cred),
    h.right.setAccount (h.right.account cred)⟩
  simp only [accountAnswer_delegateVote, h.account c]

theorem Alike.setBalance {balance : Option UInt64}
    (hbalance : b₁.rewardAccountBalance cred = .ok balance) (value : UInt64) :
    Alike (b₁.setAccount cred { b₁.account cred with balance := value, balanceKnown := true })
      (b₂.setAccount cred { b₂.account cred with balance := value, balanceKnown := true }) := by
  refine ⟨⟨fun c => ?_, h.drep, h.pool, h.poolRegistered⟩, h.left.setAccount fun _ => rfl,
    h.right.setAccount fun _ => rfl⟩
  have hbalance₂ := hbalance
  rw [h.balance cred] at hbalance₂
  cases balance with
  | none =>
    rw [accountAnswer_setBalance_none (h.left.account cred) hbalance,
      accountAnswer_setBalance_none (h.right.account cred) hbalance₂, h.account c]
  | some old =>
    rw [accountAnswer_setBalance hbalance, accountAnswer_setBalance hbalance₂, h.account c,
      h.account cred]

theorem Alike.setDRep {d₁ d₂ : BlockDRep} (hregistration : d₁.registration = d₂.registration) :
    Alike (b₁.setDRep cred d₁) (b₂.setDRep cred d₂) := by
  refine ⟨⟨fun c => ?_, fun c => ?_, h.pool, h.poolRegistered⟩, ⟨h.left.account, h.left.pool⟩,
    ⟨h.right.account, h.right.pool⟩⟩
  · exact (accountAnswer_congr rfl c).trans ((h.account c).trans (accountAnswer_congr rfl c).symm)
  · simp only [dRepRegistration_setDRep, hregistration, h.drep c]

end

/-! ### Pools -/

theorem poolCurrentState_retire (hb : Orderly b) (pool : PoolKeyHash) (epoch : UInt64)
    (p : PoolKeyHash) :
    (b.applyPoolRetirement pool epoch).poolCurrentState p =
      if p = pool then (b.poolCurrentState pool).map fun state => (state.1, some epoch)
      else b.poolCurrentState p := by
  by_cases hp : p = pool
  · rw [if_pos hp, hp]
    cases hstate : b.poolCurrentState pool with
    | ok state => rw [poolCurrentState_applyPoolRetirement hstate, if_pos rfl]; rfl
    | error e =>
      -- An error comes from the wrapped state, which is asked again.
      have hrecord : (b.applyPoolRetirement pool epoch).pool pool =
          { b.pool pool with retirementEpoch := some epoch, retirementKnown := true } := by
        simp [applyPoolRetirement]
      have hbase : (b.applyPoolRetirement pool epoch).base = b.base := rfl
      rw [poolCurrentState_eq] at hstate
      by_cases hreg : (b.pool pool).registrationKnown
      · rw [if_pos ⟨hreg, hb.pool pool hreg⟩] at hstate
        cases hstate
      · rw [if_neg fun hboth => hreg hboth.1] at hstate
        rw [poolCurrentState_eq, hrecord, hbase, if_neg fun hboth => hreg hboth.1]
        cases hwrapped : b.base.poolCurrentState pool with
        | ok state =>
          rw [hwrapped] at hstate
          cases hstate
        | error e' =>
          rw [hwrapped] at hstate
          injection hstate with hstate
          rw [hstate]
          rfl
  · rw [if_neg hp]
    exact poolCurrentState_applyPoolRetirement_of_ne b epoch hp

theorem isPoolRegistered_applyPoolRegistration {current : Option PoolRegistrationCertificate}
    {ret : Option UInt64} (h : b.applyPoolRegistration cert = .ok b')
    (hcurrent : b.poolCurrentState cert.operator = .ok (current, ret)) (p : PoolKeyHash) :
    b'.isPoolRegistered p =
      (b.isPoolRegistered p || (decide (p = cert.operator) && current.isNone)) := by
  obtain ⟨current', ret', hcurrent', hregistered⟩ := registered_of_applyPoolRegistration h
  rw [hcurrent] at hcurrent'
  cases hcurrent'
  rw [isPoolRegistered_eq, isPoolRegistered_eq, hregistered.pool_eq, hregistered.base_eq]
  by_cases hp : p = cert.operator
  · rw [if_pos hp, hp]
    cases current with
    | none | some => simp [registeredPool]
  · simp [hp]

theorem Alike.applyPoolRegistration (h : Alike b₁ b₂)
    (hstep₁ : b₁.applyPoolRegistration cert = .ok b₁')
    (hstep₂ : b₂.applyPoolRegistration cert = .ok b₂') : Alike b₁' b₂' := by
  obtain ⟨current, ret, hcurrent₁, hafter₁⟩ := poolCurrentState_applyPoolRegistration hstep₁
  obtain ⟨current', ret', hcurrent₂, hafter₂⟩ := poolCurrentState_applyPoolRegistration hstep₂
  have hsame := hcurrent₁
  rw [h.pool, hcurrent₂] at hsame
  cases hsame
  refine ⟨⟨fun c => ?_, fun c => ?_, fun p => ?_, fun p => ?_⟩,
    h.left.applyPoolRegistration hstep₁, h.right.applyPoolRegistration hstep₂⟩
  · rw [accountAnswer_congr (accountPart_applyPoolRegistration hstep₁) c,
      accountAnswer_congr (accountPart_applyPoolRegistration hstep₂) c, h.account c]
  · rw [dRepRegistration_congr (drepPart_applyPoolRegistration hstep₁) c,
      dRepRegistration_congr (drepPart_applyPoolRegistration hstep₂) c, h.drep c]
  · rw [hafter₁, hafter₂, h.pool p]
  · rw [isPoolRegistered_applyPoolRegistration hstep₁ hcurrent₁,
      isPoolRegistered_applyPoolRegistration hstep₂ hcurrent₂, h.poolRegistered p]

theorem Alike.retire (h : Alike b₁ b₂) (pool : PoolKeyHash) (epoch : UInt64) :
    Alike (b₁.applyPoolRetirement pool epoch) (b₂.applyPoolRetirement pool epoch) := by
  refine ⟨⟨fun c => ?_, h.drep, fun p => ?_, fun p => ?_⟩, h.left.retire pool epoch,
    h.right.retire pool epoch⟩
  · exact (accountAnswer_congr rfl c).trans ((h.account c).trans (accountAnswer_congr rfl c).symm)
  · rw [poolCurrentState_retire h.left, poolCurrentState_retire h.right, h.pool p, h.pool pool]
  · have hkept : ∀ b : BlockLedgerState,
        (b.applyPoolRetirement pool epoch).isPoolRegistered p = b.isPoolRegistered p := by
      intro b
      rw [isPoolRegistered_eq, isPoolRegistered_eq]
      unfold applyPoolRetirement
      rw [pool_setPool]
      split
      · rename_i hp
        rw [hp]
        rfl
      · rfl
    rw [hkept, hkept, h.poolRegistered p]

theorem Alike.of_parts (h : Alike b₁ b₂) (hparts₁ : SameBesidesUtxo b₁ b₁')
    (hparts₂ : SameBesidesUtxo b₂ b₂') : Alike b₁' b₂' := by
  have hregistered : ∀ {b b' : BlockLedgerState}, b'.poolPart = b.poolPart → ∀ p,
      b'.isPoolRegistered p = b.isPoolRegistered p := by
    intro b b' hpool p
    obtain ⟨hbase, hrest⟩ := Prod.mk.inj hpool
    obtain ⟨hpools, -⟩ := Prod.mk.inj hrest
    simp only [isPoolRegistered_eq, BlockLedgerState.pool, hbase, hpools]
  refine ⟨⟨fun c => ?_, fun c => ?_, fun p => ?_, fun p => ?_⟩, h.left.of_parts hparts₁,
    h.right.of_parts hparts₂⟩
  · rw [accountAnswer_congr hparts₁.account, accountAnswer_congr hparts₂.account, h.account c]
  · rw [dRepRegistration_congr hparts₁.drep, dRepRegistration_congr hparts₂.drep, h.drep c]
  · rw [poolCurrentState_congr hparts₁.pool, poolCurrentState_congr hparts₂.pool, h.pool p]
  · rw [hregistered hparts₁.pool, hregistered hparts₂.pool, h.poolRegistered p]

variable {cert : Certificate} {pp : ProtocolParameters}

theorem Alike.applyCertificate (h : Alike b₁ b₂) (hstep : applyCertificate pp b₁ cert = .ok b₁') :
    ∃ b₂', applyCertificate pp b₂ cert = .ok b₂' ∧ Alike b₁' b₂' := by
  have h : Alike { b₁ with seq := b₁.seq + 1 } { b₂ with seq := b₂.seq + 1 } :=
    h.of_parts ⟨rfl, rfl, rfl⟩ ⟨rfl, rfl, rfl⟩
  cases cert with
  | stakeRegistration cred =>
    obtain ⟨deposit, hdeposit, hb₁'⟩ := bind_eq_ok.mp hstep
    cases hb₁'
    exact ⟨_, bind_eq_ok.mpr ⟨deposit, hdeposit, rfl⟩, h.register deposit⟩
  | registration cred amount | stakeRegistrationDelegation cred pool amount =>
    cases hstep
    exact ⟨_, rfl, h.register amount⟩
  | voteRegistrationDelegation cred drep amount
  | stakeVoteRegistrationDelegation cred pool drep amount =>
    cases hstep
    exact ⟨_, rfl, (h.register amount).delegate drep⟩
  | stakeDeregistration cred | deregistration cred amount =>
    cases hstep
    exact ⟨_, rfl, h.deregister⟩
  | voteDelegation cred drep | stakeVoteDelegation cred pool drep =>
    cases hstep
    exact ⟨_, rfl, h.delegate drep⟩
  | registrationDrep cred amount anchor | deregistrationDrep cred amount =>
    cases hstep
    exact ⟨_, rfl, h.setDRep rfl⟩
  | updateDrep cred anchor =>
    obtain ⟨registration, hregistration, hb₁'⟩ := bind_eq_ok.mp hstep
    have hregistration₂ := hregistration
    rw [h.drep cred] at hregistration₂
    cases registration with
    | none =>
      cases hb₁'
      exact ⟨_, bind_eq_ok.mpr ⟨none, hregistration₂, rfl⟩, h⟩
    | some reg =>
      cases hb₁'
      exact ⟨_, bind_eq_ok.mpr ⟨some reg, hregistration₂, rfl⟩, h.setDRep rfl⟩
  | poolRegistration cert =>
    obtain ⟨current, ret, hcurrent, -⟩ := poolCurrentState_applyPoolRegistration hstep
    have hcurrent₂ := hcurrent
    rw [h.pool] at hcurrent₂
    obtain ⟨b₂', hstep₂⟩ := exists_applyPoolRegistration hcurrent₂
    exact ⟨b₂', hstep₂, h.applyPoolRegistration hstep hstep₂⟩
  | poolRetirement pool epoch =>
    cases hstep
    exact ⟨_, rfl, h.retire pool epoch⟩
  | moveInstantaneousRewards source rewards =>
    cases hstep
    rw [applyMirRewards_eq]
    exact ⟨_, congrArg Except.ok (applyMirRewards_eq ..),
      h.of_parts ⟨rfl, rfl, rfl⟩ ⟨rfl, rfl, rfl⟩⟩
  | authCommitteeHot cold hot | resignCommitteeCold cold | stakeDelegation cred pool
  | genesisKeyDelegation =>
    cases hstep
    exact ⟨_, rfl, h.of_parts ⟨rfl, rfl, rfl⟩ ⟨rfl, rfl, rfl⟩⟩

/-! ## Two views in lockstep -/

/-- A relation between two views that every effect keeps; of the certificates, those that
satisfy `P`. Withdrawals and direct deposits only set accounts. -/
structure Follows (P : Certificate → Prop) (V : BlockLedgerState → BlockLedgerState → Prop) :
    Prop where
  setAccount : ∀ {b₁ b₂} cred a₁ a₂, V b₁ b₂ → V (b₁.setAccount cred a₁) (b₂.setAccount cred a₂)
  recordProposals : ∀ {b₁ b₂} id ps, V b₁ b₂ →
    V (b₁.recordProposals id ps) (b₂.recordProposals id ps)
  applyUtxo : ∀ {b₁ b₂} tx, V b₁ b₂ → V (b₁.applyUtxo tx) (b₂.applyUtxo tx)
  applyCertificate : ∀ {b₁ b₁' b₂ b₂'} pp cert, P cert → Alike b₁ b₂ → V b₁ b₂ →
    applyCertificate pp b₁ cert = .ok b₁' →
    applyCertificate pp b₂ cert = .ok b₂' → V b₁' b₂'

namespace Follows

variable {P : Certificate → Prop} {V : BlockLedgerState → BlockLedgerState → Prop}

section

variable (hV : Follows P V)
include hV

section

variable (h : Alike b₁ b₂ ∧ V b₁ b₂)
include h

theorem applyWithdrawal {w : Address × Option Int} (hstep : b₁.applyWithdrawal w = .ok b₁') :
    ∃ b₂', b₂.applyWithdrawal w = .ok b₂' ∧ Alike b₁' b₂' ∧ V b₁' b₂' := by
  obtain ⟨h, hv⟩ := h
  unfold BlockLedgerState.applyWithdrawal
  rcases applyWithdrawal_cases hstep with ⟨e, he, rfl⟩ | ⟨cred, balance, hcred, hbalance, rfl⟩
  · rw [he]
    exact ⟨b₂, rfl, h, hv⟩
  · rw [hcred]
    dsimp only
    rw [← h.balance cred, hbalance]
    exact ⟨_, rfl, h.setBalance hbalance _, hV.setAccount _ _ _ hv⟩

theorem applyDirectDeposit {d : DirectDeposit} (hstep : b₁.applyDirectDeposit d = .ok b₁') :
    ∃ b₂', b₂.applyDirectDeposit d = .ok b₂' ∧ Alike b₁' b₂' ∧ V b₁' b₂' := by
  obtain ⟨h, hv⟩ := h
  unfold BlockLedgerState.applyDirectDeposit
  rw [← h.balance d.credential]
  rcases applyDirectDeposit_cases hstep with ⟨hbalance, rfl⟩ | ⟨balance, hbalance, rfl⟩
  · rw [hbalance]
    exact ⟨b₂, rfl, h, hv⟩
  · rw [hbalance]
    exact ⟨_, rfl, h.setBalance hbalance _, hV.setAccount _ _ _ hv⟩

theorem applyLevel {pp : ProtocolParameters} {level : LedgerEffectLevel}
    (hP : ∀ cert ∈ level.certificates, P cert) (hstep : applyLevel pp b₁ level = .ok b₁') :
    ∃ b₂', applyLevel pp b₂ level = .ok b₂' ∧ Alike b₁' b₂' ∧ V b₁' b₂' := by
  obtain ⟨w₁, hwithdrawals, hstep⟩ := bind_eq_ok.mp hstep
  obtain ⟨c₁, hcertificates, hstep⟩ := bind_eq_ok.mp hstep
  obtain ⟨d₁, hdeposits, hstep⟩ := bind_eq_ok.mp hstep
  injection hstep with hstep
  obtain ⟨w₂, hw₂, hw⟩ : ∃ w₂, b₂.applyWithdrawals level.withdrawals = .ok w₂ ∧
      (Alike w₁ w₂ ∧ V w₁ w₂) :=
    foldlM_sim (fun t₁ t₂ => Alike t₁ t₂ ∧ V t₁ t₂)
      (fun _ _ _ _ _ hR hw => hV.applyWithdrawal hR hw) h hwithdrawals
  obtain ⟨c₂, hc₂, hc⟩ : ∃ c₂, w₂.applyCertificates pp level.certificates = .ok c₂ ∧
      (Alike c₁ c₂ ∧ V c₁ c₂) := by
    refine foldlM_sim (fun t₁ t₂ => Alike t₁ t₂ ∧ V t₁ t₂) ?_ hw hcertificates
    intro t t' u cert hcert hR hstep
    obtain ⟨u', hu', halike⟩ := hR.1.applyCertificate hstep
    exact ⟨u', hu', halike, hV.applyCertificate pp cert (hP cert hcert) hR.1 hR.2 hstep hu'⟩
  obtain ⟨d₂, hd₂, hd⟩ : ∃ d₂, c₂.applyDirectDeposits level.directDeposits = .ok d₂ ∧
      (Alike d₁ d₂ ∧ V d₁ d₂) :=
    foldlM_sim (fun t₁ t₂ => Alike t₁ t₂ ∧ V t₁ t₂)
      (fun _ _ _ _ _ hR hd => hV.applyDirectDeposit hR hd) hc hdeposits
  refine ⟨d₂.recordProposals level.id level.proposalProcedures, ?_, ?_⟩
  · exact bind_eq_ok.mpr ⟨w₂, hw₂, bind_eq_ok.mpr ⟨c₂, hc₂, bind_eq_ok.mpr ⟨d₂, hd₂, rfl⟩⟩⟩
  · rw [← hstep]
    exact ⟨hd.1.of_parts (sameParts_recordProposals _ _ _).besidesUtxo
      (sameParts_recordProposals _ _ _).besidesUtxo, hV.recordProposals _ _ hd.2⟩

theorem applyTransaction {tx : Transaction} {pp : ProtocolParameters}
    (hP : ∀ cert ∈ appliedCertificates tx, P cert) (hstep : b₁.applyTransaction tx pp = .ok b₁') :
    ∃ b₂', b₂.applyTransaction tx pp = .ok b₂' ∧ Alike b₁' b₂' ∧ V b₁' b₂' := by
  have hutxo : Alike (b₁.applyUtxo tx) (b₂.applyUtxo tx) ∧ V (b₁.applyUtxo tx) (b₂.applyUtxo tx) :=
    ⟨h.1.of_parts (sameBesidesUtxo_applyUtxo b₁ tx) (sameBesidesUtxo_applyUtxo b₂ tx),
      hV.applyUtxo tx h.2⟩
  unfold BlockLedgerState.applyTransaction at hstep ⊢
  unfold appliedCertificates at hP
  cases hvalid : tx.isValid with
  | false =>
    rw [hvalid] at hstep
    cases hstep
    exact ⟨_, rfl, hutxo⟩
  | true =>
    rw [hvalid] at hstep hP
    obtain ⟨levels, hlevels, hrun⟩ := bind_eq_ok.mp hstep
    rw [hlevels] at hP
    obtain ⟨b₂', hrun₂, h'⟩ : ∃ b₂', levels.foldlM (BlockLedgerState.applyLevel pp)
        (b₂.applyUtxo tx) = .ok b₂' ∧ (Alike b₁' b₂' ∧ V b₁' b₂') := by
      refine foldlM_sim (fun t₁ t₂ => Alike t₁ t₂ ∧ V t₁ t₂) ?_ hutxo hrun
      intro t t' u level hlevel hR hl
      refine hV.applyLevel hR (fun cert hcert => hP cert ?_) hl
      exact List.mem_flatMap.mpr ⟨level, hlevel, hcert⟩
    exact ⟨b₂', bind_eq_ok.mpr ⟨levels, hlevels, hrun₂⟩, h'⟩

theorem applyTransactions {txs : List (Transaction × ProtocolParameters)}
    (hP : ∀ cert ∈ blockCertificates txs, P cert) (hrun : b₁.applyTransactions txs = .ok b₁') :
    ∃ b₂', b₂.applyTransactions txs = .ok b₂' ∧ Alike b₁' b₂' ∧ V b₁' b₂' := by
  refine foldlM_sim (fun t₁ t₂ => Alike t₁ t₂ ∧ V t₁ t₂) ?_ h hrun
  intro t t' u entry hentry hR hstep
  refine hV.applyTransaction hR (fun cert hcert => hP cert ?_) hstep
  exact List.mem_flatMap.mpr ⟨entry, hentry, hcert⟩

end

end

end Follows

/-! ## Outputs and proposals -/

theorem applyCertificate_maps (h : applyCertificate pp b cert = .ok b') :
    b'.proposals = b.proposals ∧ b'.committeeColdHot = committeeEffect cert b.committeeColdHot ∧
      b'.mirPending = mirEffect cert b.mirPending := by
  obtain ⟨_, _, _, _, _, rfl, -⟩ := applyCertificate_eq h
  exact ⟨rfl, rfl, rfl⟩

theorem recordProposals_maps (id : Blake2b256) (ps : List ProposalProcedure)
    (b : BlockLedgerState) :
    (b.recordProposals id ps).committeeColdHot = b.committeeColdHot ∧
      (b.recordProposals id ps).mirPending = b.mirPending := by
  obtain ⟨_, h⟩ := recordProposals_eq b id ps
  rw [h]
  exact ⟨rfl, rfl⟩

theorem applyUtxo_maps (tx : Transaction) (b : BlockLedgerState) :
    (b.applyUtxo tx).proposals = b.proposals ∧
      (b.applyUtxo tx).committeeColdHot = b.committeeColdHot ∧
      (b.applyUtxo tx).mirPending = b.mirPending ∧ (b.applyUtxo tx).base = b.base := by
  obtain ⟨_, _, h⟩ := applyUtxo_eq b tx
  rw [h]
  exact ⟨rfl, rfl, rfl, rfl⟩

theorem follows_mirPending :
    Follows (fun _ => True) fun b₁ b₂ => b₁.mirPending = b₂.mirPending where
  setAccount _ _ _ h := h
  recordProposals id ps h := by
    rw [(recordProposals_maps id ps _).2, (recordProposals_maps id ps _).2, h]
  applyUtxo tx h := by rw [(applyUtxo_maps tx _).2.2.1, (applyUtxo_maps tx _).2.2.1, h]
  applyCertificate pp cert _ _ h h₁ h₂ := by
    rw [(applyCertificate_maps h₁).2.2, (applyCertificate_maps h₂).2.2, h]

theorem follows_base (base₁ base₂ : LedgerState) :
    Follows (fun _ => True) fun b₁ b₂ => b₁.base = base₁ ∧ b₂.base = base₂ where
  setAccount _ _ _ h := h
  recordProposals id ps h := by
    have hbase := fun b : BlockLedgerState =>
      congrArg Prod.fst (sameParts_recordProposals b id ps).utxo
    exact ⟨(hbase _).trans h.1, (hbase _).trans h.2⟩
  applyUtxo tx h := by
    exact ⟨(applyUtxo_maps tx _).2.2.2.trans h.1, (applyUtxo_maps tx _).2.2.2.trans h.2⟩
  applyCertificate pp cert _ _ h h₁ h₂ :=
    ⟨(base_applyCertificate h₁).trans h.1, (base_applyCertificate h₂).trans h.2⟩

theorem follows_utxoById :
    Follows (fun _ => True) fun b₁ b₂ => ∀ input, b₁.utxoById input = b₂.utxoById input where
  setAccount _ _ _ h := h
  recordProposals id ps h input := by
    rw [utxoById_congr (sameParts_recordProposals _ id ps).utxo,
      utxoById_congr (sameParts_recordProposals _ id ps).utxo, h input]
  applyUtxo tx h input := by
    have heq := answers_eq utxoById_consume utxoById_produce
    exact congrFun ((heq _ tx).trans (funext h ▸ (heq _ tx).symm)) input
  applyCertificate pp cert _ _ h h₁ h₂ input := by
    rw [utxoById_congr (utxoPart_applyCertificate h₁), utxoById_congr (utxoPart_applyCertificate h₂),
      h input]

theorem govActionById_congr (hbase : b'.base = b.base) (hproposals : b'.proposals = b.proposals)
    (id : GovActionId) : b'.govActionById id = b.govActionById id := by
  rw [govActionById, govActionById, hbase, hproposals]

theorem follows_govActionById :
    Follows (fun _ => True) fun b₁ b₂ => ∀ id, b₁.govActionById id = b₂.govActionById id where
  setAccount _ _ _ h := h
  recordProposals {b₁ b₂} txId ps h := by
    refine List.foldl_rel (r := fun t₁ t₂ => ∀ id, govActionById t₁ id = govActionById t₂ id) h
      fun entry _ t₁ t₂ ht id => ?_
    unfold recordProposal
    split
    · exact ht id
    · have hid := ht id
      unfold govActionById at hid ⊢
      rw [GoMap.lookup_insert_ite, GoMap.lookup_insert_ite]
      by_cases heq : id = ⟨txId, UInt32.ofNat entry.2⟩
      · rw [if_pos heq, if_pos heq]
      · rw [if_neg heq, if_neg heq]
        exact hid
  applyUtxo tx h id := by
    rw [govActionById_congr (applyUtxo_maps tx _).2.2.2 (applyUtxo_maps tx _).1,
      govActionById_congr (applyUtxo_maps tx _).2.2.2 (applyUtxo_maps tx _).1, h id]
  applyCertificate pp cert _ _ h h₁ h₂ id := by
    rw [govActionById_congr (base_applyCertificate h₁) (applyCertificate_maps h₁).1,
      govActionById_congr (base_applyCertificate h₂) (applyCertificate_maps h₂).1, h id]

end Gouroboros.Ledger.BlockLedgerState

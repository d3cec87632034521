import Gouroboros.Lib.ExceptFold
import Gouroboros.Ledger.Common.BlockState

/-!
# What each block effect leaves alone

The maps of a block-scoped view fall into parts that no effect mixes: the
outputs, the accounts, the DReps and the pools. Each part is named together with
the state it is read over, and for each effect of `applyTransaction` the lemmas
below say which maps it writes (`applyUtxo_eq`, `applyCertificate_eq`) and so
which parts it keeps.
-/

namespace Gouroboros.Ledger.BlockLedgerState

open ExceptFold

variable {b b' : BlockLedgerState}

def utxoPart (b : BlockLedgerState) :
    LedgerState × GoMap TransactionInput Utxo × GoMap TransactionInput Unit :=
  (b.base, b.created, b.spent)

def accountPart (b : BlockLedgerState) : LedgerState × GoMap Credential BlockAccount :=
  (b.base, b.accounts)

def drepPart (b : BlockLedgerState) : LedgerState × GoMap Credential BlockDRep := (b.base, b.dreps)

def poolPart (b : BlockLedgerState) :
    LedgerState × GoMap PoolKeyHash BlockPool × GoMap Blake2b256 PoolKeyHash ×
      GoMap Blake2b256 Unit :=
  (b.base, b.pools, b.vrfKeys, b.vrfReleased)

structure SameBesidesAccounts (b b' : BlockLedgerState) : Prop where
  utxo : b'.utxoPart = b.utxoPart
  drep : b'.drepPart = b.drepPart
  pool : b'.poolPart = b.poolPart

theorem SameBesidesAccounts.refl (b : BlockLedgerState) : SameBesidesAccounts b b := ⟨rfl, rfl, rfl⟩

variable {b₁ b₂ b₃ : BlockLedgerState}

theorem SameBesidesAccounts.trans (h₁ : SameBesidesAccounts b₁ b₂)
    (h₂ : SameBesidesAccounts b₂ b₃) : SameBesidesAccounts b₁ b₃ :=
  ⟨h₂.utxo.trans h₁.utxo, h₂.drep.trans h₁.drep, h₂.pool.trans h₁.pool⟩

theorem SameBesidesAccounts.base (h : SameBesidesAccounts b b') : b'.base = b.base :=
  congrArg Prod.fst h.utxo

theorem sameBesidesAccounts_setAccount (b : BlockLedgerState) (cred : Credential)
    (a : BlockAccount) : SameBesidesAccounts b (b.setAccount cred a) :=
  ⟨rfl, rfl, rfl⟩

/-! ## Withdrawals and direct deposits -/

theorem applyWithdrawal_cases {w : Address × Option Int} (h : b.applyWithdrawal w = .ok b') :
    (∃ e, w.1.rewardAccountCredential = .error e ∧ b' = b) ∨
    ∃ cred balance, w.1.rewardAccountCredential = .ok cred ∧
      b.rewardAccountBalance cred = .ok balance ∧
      b' = b.setAccount cred
        { b.account cred with
          balance := remainingBalance balance w.2
          balanceKnown := true } := by
  unfold applyWithdrawal at h
  split at h
  · rename_i e he
    cases h
    exact .inl ⟨e, he, rfl⟩
  · rename_i cred hcred
    obtain ⟨balance, hbal, hb'⟩ := bind_eq_ok.mp h
    cases hb'
    exact .inr ⟨cred, balance, hcred, hbal, rfl⟩

theorem sameBesidesAccounts_applyWithdrawal {w : Address × Option Int}
    (h : b.applyWithdrawal w = .ok b') : SameBesidesAccounts b b' := by
  rcases applyWithdrawal_cases h with ⟨_, _, rfl⟩ | ⟨cred, _, _, _, rfl⟩
  · exact .refl _
  · exact sameBesidesAccounts_setAccount _ _ _

theorem sameBesidesAccounts_applyWithdrawals {ws : Withdrawals}
    (h : b.applyWithdrawals ws = .ok b') : SameBesidesAccounts b b' :=
  foldlM_invariant (SameBesidesAccounts b)
    (fun _ _ _ _ ht hstep => ht.trans (sameBesidesAccounts_applyWithdrawal hstep))
    (.refl b) h

theorem applyDirectDeposit_cases {d : DirectDeposit} (h : b.applyDirectDeposit d = .ok b') :
    (b.rewardAccountBalance d.credential = .ok none ∧ b' = b) ∨
    ∃ balance, b.rewardAccountBalance d.credential = .ok (some balance) ∧
      b' = b.setAccount d.credential
        { b.account d.credential with
          balance := balance + d.amount
          balanceKnown := true } := by
  obtain ⟨balance, hbal, hb'⟩ := bind_eq_ok.mp h
  cases balance with
  | none =>
    cases hb'
    exact .inl ⟨hbal, rfl⟩
  | some balance =>
    cases hb'
    exact .inr ⟨balance, hbal, rfl⟩

theorem sameBesidesAccounts_applyDirectDeposits {ds : List DirectDeposit}
    (h : b.applyDirectDeposits ds = .ok b') : SameBesidesAccounts b b' := by
  refine foldlM_invariant (SameBesidesAccounts b) ?_ (.refl b) h
  intro t t' d _ ht hstep
  refine ht.trans ?_
  rcases applyDirectDeposit_cases hstep with ⟨_, rfl⟩ | ⟨balance, _, rfl⟩
  · exact .refl _
  · exact sameBesidesAccounts_setAccount _ _ _

/-! ## What an effect writes -/

theorem recordProposals_eq (b : BlockLedgerState) (id : Blake2b256) (ps : List ProposalProcedure) :
    ∃ proposals, b.recordProposals id ps = { b with proposals := proposals } := by
  refine List.foldlRecOn _ _ (b := b)
    (motive := fun t => ∃ proposals, t = { b with proposals := proposals }) ⟨_, rfl⟩ ?_
  rintro _ ⟨proposals, rfl⟩ entry _
  unfold recordProposal
  split <;> exact ⟨_, rfl⟩

def committeeEffect (cert : Certificate) (hots : GoMap Credential (Option Credential)) :
    GoMap Credential (Option Credential) :=
  match cert with
  | .authCommitteeHot cold hot => hots.insert cold (some hot)
  | .resignCommitteeCold cold => hots.insert cold none
  | _ => hots

def addMirReward (source : Nat) (pending : GoMap (Nat × Credential) Int)
    (reward : Option Credential × Option Int) : GoMap (Nat × Credential) Int :=
  match reward with
  | (some cred, some delta) =>
    pending.insert (source, cred) (delta + (pending.lookup (source, cred)).getD 0)
  | _ => pending

def mirEffect (cert : Certificate) (pending : GoMap (Nat × Credential) Int) :
    GoMap (Nat × Credential) Int :=
  match cert with
  | .moveInstantaneousRewards source rewards => rewards.foldl (addMirReward source) pending
  | _ => pending

theorem applyMirRewards_eq (b : BlockLedgerState) (source : Nat)
    (rewards : List (Option Credential × Option Int)) :
    rewards.foldl (applyMirReward source) b =
      { b with mirPending := rewards.foldl (addMirReward source) b.mirPending } := by
  refine List.foldl_hom (fun pending => { b with mirPending := pending }) fun pending reward => ?_
  rcases reward with ⟨_ | cred, _ | delta⟩ <;> rfl

theorem applyUtxo_eq (b : BlockLedgerState) (tx : Transaction) :
    ∃ spent created, b.applyUtxo tx = { b with spent := spent, created := created } := by
  let Outputs (t : BlockLedgerState) : Prop :=
    ∃ spent created, t = { b with spent := spent, created := created }
  have hconsumed : Outputs (tx.consumed.foldl consume b) := by
    refine List.foldlRecOn _ _ ⟨_, _, rfl⟩ ?_
    rintro _ ⟨spent, created, rfl⟩ input _
    exact ⟨_, _, rfl⟩
  refine List.foldlRecOn tx.produced produce (motive := Outputs) hconsumed ?_
  rintro _ ⟨spent, created, rfl⟩ utxo _
  exact ⟨_, _, rfl⟩

theorem applyPoolRegistration_eq {cert : PoolRegistrationCertificate}
    (h : b.applyPoolRegistration cert = .ok b') :
    ∃ pools vrfKeys vrfReleased,
      b' = { b with pools := pools, vrfKeys := vrfKeys, vrfReleased := vrfReleased } := by
  obtain ⟨current, _, hb'⟩ := bind_eq_ok.mp h
  dsimp only at hb'
  split at hb'
  · cases hb'
    exact ⟨_, _, _, rfl⟩
  · cases hb'
    split <;> exact ⟨_, _, _, rfl⟩

theorem applyCertificate_eq {pp : ProtocolParameters} {cert : Certificate}
    (h : applyCertificate pp b cert = .ok b') :
    ∃ accounts pools vrfKeys vrfReleased dreps, b' = { b with
        seq := b.seq + 1, accounts := accounts, pools := pools, vrfKeys := vrfKeys,
        vrfReleased := vrfReleased, dreps := dreps
        committeeColdHot := committeeEffect cert b.committeeColdHot
        mirPending := mirEffect cert b.mirPending } ∧
      (cert.isPool = false → b'.poolPart = b.poolPart) := by
  cases cert with
  | poolRegistration c =>
    obtain ⟨_, _, _, rfl⟩ := applyPoolRegistration_eq h
    exact ⟨_, _, _, _, _, rfl, nofun⟩
  | poolRetirement =>
    cases h
    exact ⟨_, _, _, _, _, rfl, nofun⟩
  | stakeRegistration cred =>
    obtain ⟨deposit, _, hb'⟩ := bind_eq_ok.mp h
    cases hb'
    exact ⟨_, _, _, _, _, rfl, fun _ => rfl⟩
  | moveInstantaneousRewards source rewards =>
    cases h
    rw [applyMirRewards_eq]
    exact ⟨_, _, _, _, _, rfl, fun _ => rfl⟩
  | updateDrep cred anchor =>
    obtain ⟨reg, _, hb'⟩ := bind_eq_ok.mp h
    cases reg with
    | none | some =>
      cases hb'
      exact ⟨_, _, _, _, _, rfl, fun _ => rfl⟩
  | _ =>
    cases h
    exact ⟨_, _, _, _, _, rfl, fun _ => rfl⟩

/-! ## The parts it keeps -/

structure SameParts (b b' : BlockLedgerState) : Prop where
  utxo : b'.utxoPart = b.utxoPart
  account : b'.accountPart = b.accountPart
  drep : b'.drepPart = b.drepPart
  pool : b'.poolPart = b.poolPart

theorem sameParts_recordProposals (b : BlockLedgerState) (id : Blake2b256)
    (ps : List ProposalProcedure) : SameParts b (b.recordProposals id ps) := by
  obtain ⟨_, h⟩ := recordProposals_eq b id ps
  rw [h]
  exact ⟨rfl, rfl, rfl, rfl⟩

/-- Spending and creating outputs leaves accounts, DReps and pools alone. -/
structure SameBesidesUtxo (b b' : BlockLedgerState) : Prop where
  account : b'.accountPart = b.accountPart
  drep : b'.drepPart = b.drepPart
  pool : b'.poolPart = b.poolPart

theorem sameBesidesUtxo_applyUtxo (b : BlockLedgerState) (tx : Transaction) :
    SameBesidesUtxo b (b.applyUtxo tx) := by
  obtain ⟨_, _, h⟩ := applyUtxo_eq b tx
  rw [h]
  exact ⟨rfl, rfl, rfl⟩

/-! ## Certificates -/

variable {pp : ProtocolParameters} {cert : Certificate}

theorem poolPart_applyCertificate (hcert : cert.isPool = false)
    (h : applyCertificate pp b cert = .ok b') : b'.poolPart = b.poolPart := by
  obtain ⟨_, _, _, _, _, -, hpools⟩ := applyCertificate_eq h
  exact hpools hcert

section

variable {cert : PoolRegistrationCertificate} (h : b.applyPoolRegistration cert = .ok b')
include h

theorem accountPart_applyPoolRegistration : b'.accountPart = b.accountPart := by
  obtain ⟨_, _, _, rfl⟩ := applyPoolRegistration_eq h
  rfl

theorem drepPart_applyPoolRegistration : b'.drepPart = b.drepPart := by
  obtain ⟨_, _, _, rfl⟩ := applyPoolRegistration_eq h
  rfl

end

theorem utxoPart_applyCertificate
    (h : applyCertificate pp b cert = .ok b') : b'.utxoPart = b.utxoPart := by
  obtain ⟨_, _, _, _, _, rfl, -⟩ := applyCertificate_eq h
  rfl

theorem base_applyCertificate (h : applyCertificate pp b cert = .ok b') : b'.base = b.base :=
  congrArg Prod.fst (utxoPart_applyCertificate h)

theorem utxoPart_applyCertificates {certs : List Certificate}
    (h : b.applyCertificates pp certs = .ok b') : b'.utxoPart = b.utxoPart :=
  foldlM_invariant (fun t => t.utxoPart = b.utxoPart)
    (fun _ _ _ _ ht hstep => (utxoPart_applyCertificate hstep).trans ht) rfl h

/-! ## Transactions of one level -/

theorem applyTransaction_eq {tx : Transaction} (hvalid : tx.isValid)
    (hlevels : tx.ledgerEffectLevels = none) :
    b.applyTransaction tx pp = (do
      let b₁ ← (b.applyUtxo tx).applyWithdrawals tx.withdrawalMap
      let b₂ ← b₁.applyCertificates pp tx.certificates
      .ok (b₂.recordProposals tx.hash tx.proposalProcedures)) := by
  unfold applyTransaction levelsOf
  rw [hvalid, hlevels]
  simp only [Bool.not_true, Bool.false_eq_true, if_false, bind, Except.bind, List.foldlM, applyLevel,
    applyDirectDeposits, pure, Except.pure]
  cases (b.applyUtxo tx).applyWithdrawals tx.withdrawalMap with
  | error e => rfl
  | ok b₁ =>
    dsimp only
    cases b₁.applyCertificates pp tx.certificates with
    | error e => rfl
    | ok b₂ => rfl

end Gouroboros.Ledger.BlockLedgerState

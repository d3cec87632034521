import Gouroboros.Ledger.Common.BlockFrame

/-!
# Accounts and DReps in the block-scoped view

What the account and DRep queries answer after each effect of a transaction.
The answers for one credential are gathered in `AccountAnswer`; a certificate's
effect on them is `stakeEffect`, and `accountAnswer_applyCertificate` says that
applying the certificate rewrites the answers of that one credential.
-/

namespace Gouroboros.Ledger

open ExceptFold

/-- The deposits on record: the provider's, or none without the capability, with
every block-scoped view applied. -/
def recordedStakeDeposit (ls : LedgerState) : StakeCredentialDepositState :=
  ls.blocks.foldr blockStakeCredentialDeposits
    (ls.stakeCredentialDeposit?.getD fun _ => .ok none)

theorem stakeCredentialDepositStateFor_eq_some {ls : LedgerState}
    {depositState : StakeCredentialDepositState}
    (h : stakeCredentialDepositStateFor ls = some depositState) :
    depositState = recordedStakeDeposit ls := by
  obtain ⟨base, hbase, rfl⟩ := Option.map_eq_some_iff.mp h
  rw [recordedStakeDeposit, hbase]
  rfl

/-- What the account queries answer for one credential. -/
structure AccountAnswer where
  registered : Bool
  balance : Except LedgerError (Option UInt64)
  deposit : Except LedgerError (Option UInt64)

/-- The answers once a certificate has registered the credential with a deposit,
or deregistered it. -/
def AccountAnswer.ofEffect (deposit : Option UInt64) : AccountAnswer where
  registered := deposit.isSome
  balance := .ok (deposit.map fun _ => 0)
  deposit := .ok deposit

def BlockAccount.answer (account : BlockAccount) (old : AccountAnswer) : AccountAnswer where
  registered := if account.registeredKnown then account.registered else old.registered
  balance :=
    if account.registeredKnown && !account.registered then .ok none
    else if !account.balanceKnown then old.balance
    else if !account.registeredKnown then do
      match ← old.balance with
      | none => .ok none
      | some _ => .ok (some account.balance)
    else .ok (some account.balance)
  deposit :=
    if !account.depositKnown then old.deposit
    else if !account.registered then .ok none
    else .ok (some account.deposit)

theorem BlockAccount.answer_setBalance {account : BlockAccount} {old : AccountAnswer}
    {value : UInt64} (h : account.registeredKnown →
      account.balanceKnown ∨ ∃ v, (account.answer old).balance = .ok (some v)) :
    { account with balance := value, balanceKnown := true }.answer old =
      { account.answer old with
        balance := (account.answer old).balance.map fun balance => balance.map fun _ => value } := by
  unfold BlockAccount.answer at h ⊢
  congr 1
  cases hk : account.registeredKnown with
  | false => rcases old.balance with e | _ | v <;> cases account.balanceKnown <;> rfl
  | true =>
    cases hr : account.registered with
    | false => rfl
    | true =>
      cases hb : account.balanceKnown with
      | true => rfl
      | false =>
        -- the record says nothing of the balance, so the wrapped state has one
        rcases (h hk).resolve_left (by rw [hb]; exact Bool.false_ne_true) with ⟨v, hv⟩
        rw [hk, hr, hb] at hv
        have hold : old.balance = .ok (some v) := hv
        rw [hold]
        rfl

def Certificate.stakeEffect (keyDeposit : UInt64) : Certificate → Option (Credential × Option UInt64)
  | .stakeRegistration cred => some (cred, some keyDeposit)
  | .registration cred amount => some (cred, some amount)
  | .stakeRegistrationDelegation cred _ amount => some (cred, some amount)
  | .voteRegistrationDelegation cred _ amount => some (cred, some amount)
  | .stakeVoteRegistrationDelegation cred _ _ amount => some (cred, some amount)
  | .stakeDeregistration cred => some (cred, none)
  | .deregistration cred _ => some (cred, none)
  | _ => none

def AccountAnswer.after (old : AccountAnswer) (c : Credential) :
    Option (Credential × Option UInt64) → AccountAnswer
  | some (cred, deposit) => if c = cred then .ofEffect deposit else old
  | none => old

theorem Certificate.isDRep_of_stakeEffect {cert : Certificate} {keyDeposit : UInt64}
    {x : Credential × Option UInt64} (h : cert.stakeEffect keyDeposit = some x) :
    cert.isDRep = false := by
  cases cert with
  | registrationDrep | deregistrationDrep | updateDrep => cases h
  | _ => rfl

namespace BlockLedgerState

variable {b b' : BlockLedgerState} {c cred : Credential}

def accountAnswer (b : BlockLedgerState) (c : Credential) : AccountAnswer where
  registered := b.isStakeCredentialRegistered c
  balance := b.rewardAccountBalance c
  deposit := recordedStakeDeposit b.toLedgerState c

def baseAnswer (b : BlockLedgerState) (c : Credential) : AccountAnswer where
  registered := b.base.isStakeCredentialRegistered c
  balance := b.base.rewardAccountBalance c
  deposit := recordedStakeDeposit b.base c

theorem accountAnswer_eq (b : BlockLedgerState) (c : Credential) :
    b.accountAnswer c = (b.account c).answer (b.baseAnswer c) := by
  simp only [accountAnswer, isStakeCredentialRegistered, rewardAccountBalance, recordedStakeDeposit,
    toLedgerState, List.foldr_cons, blockStakeCredentialDeposits, account]
  cases b.accounts.lookup c with
  | none => rfl
  | some a => rfl

theorem accountAnswer_congr (h : b'.accountPart = b.accountPart) (c : Credential) :
    b'.accountAnswer c = b.accountAnswer c := by
  simp only [accountPart, Prod.mk.injEq] at h
  simp only [accountAnswer_eq, account, baseAnswer, h.1, h.2]

/-! ## One account -/

theorem accountAnswer_setAccount (b : BlockLedgerState) (cred c : Credential) (a : BlockAccount) :
    (b.setAccount cred a).accountAnswer c =
      if c = cred then a.answer (b.baseAnswer c) else b.accountAnswer c := by
  rw [accountAnswer_eq, accountAnswer_eq, account, setAccount, GoMap.lookup_insert_ite]
  split
  · rfl
  · rfl

theorem accountAnswer_registerAccount (b : BlockLedgerState) (cred c : Credential)
    (deposit : UInt64) :
    (b.registerAccount cred deposit).accountAnswer c =
      if c = cred then .ofEffect (some deposit) else b.accountAnswer c :=
  accountAnswer_setAccount b cred c _

theorem accountAnswer_deregisterAccount (b : BlockLedgerState) (cred c : Credential) :
    (b.deregisterAccount cred).accountAnswer c =
      if c = cred then .ofEffect none else b.accountAnswer c :=
  accountAnswer_setAccount b cred c _

theorem accountAnswer_delegateVote (b : BlockLedgerState) (cred c : Credential) (drep : Drep) :
    (b.delegateVote cred drep).accountAnswer c = b.accountAnswer c := by
  rw [delegateVote, accountAnswer_setAccount]
  split
  next h =>
    rw [h, accountAnswer_eq]
    rfl
  next => rfl

theorem accountAnswer_setBalance {balance : UInt64}
    (hbal : b.rewardAccountBalance cred = .ok (some balance)) (value : UInt64) (c : Credential) :
    (b.setAccount cred
      { b.account cred with balance := value, balanceKnown := true }).accountAnswer c =
      if c = cred then { b.accountAnswer cred with balance := .ok (some value) }
      else b.accountAnswer c := by
  have hbal : (b.accountAnswer cred).balance = .ok (some balance) := hbal
  rw [accountAnswer_setAccount]
  split
  next h =>
    rw [h]
    rw [accountAnswer_eq] at hbal ⊢
    rw [BlockAccount.answer_setBalance fun _ => .inr ⟨balance, hbal⟩, hbal]
    rfl
  next => rfl

/-! ## Certificates -/

variable {cert : Certificate}

theorem accountAnswer_applyCertificate {pp : ProtocolParameters} {keyDeposit : UInt64}
    (hkey : blockKeyDeposit pp = .ok keyDeposit) (h : applyCertificate pp b cert = .ok b')
    (c : Credential) :
    b'.accountAnswer c = (b.accountAnswer c).after c (cert.stakeEffect keyDeposit) := by
  have hseq : ∀ c, { b with seq := b.seq + 1 }.accountAnswer c = b.accountAnswer c :=
    accountAnswer_congr rfl
  cases cert with
  | stakeRegistration cred =>
    obtain ⟨deposit, hd, hb'⟩ := bind_eq_ok.mp h
    rw [hkey] at hd
    cases hd
    cases hb'
    rw [accountAnswer_registerAccount, hseq]
    rfl
  | registration | stakeRegistrationDelegation =>
    cases h
    rw [accountAnswer_registerAccount, hseq]
    rfl
  | voteRegistrationDelegation | stakeVoteRegistrationDelegation =>
    cases h
    rw [accountAnswer_delegateVote, accountAnswer_registerAccount, hseq]
    rfl
  | stakeDeregistration | deregistration =>
    cases h
    rw [accountAnswer_deregisterAccount, hseq]
    rfl
  | voteDelegation | stakeVoteDelegation =>
    cases h
    rw [accountAnswer_delegateVote, hseq]
    rfl
  | poolRegistration cert =>
    exact (accountAnswer_congr (accountPart_applyPoolRegistration h) c).trans (hseq c)
  | moveInstantaneousRewards source rewards =>
    cases h
    rw [applyMirRewards_eq]
    exact (accountAnswer_congr rfl c).trans (hseq c)
  | updateDrep cred anchor =>
    obtain ⟨reg, _, hb'⟩ := bind_eq_ok.mp h
    cases reg with
    | none =>
      cases hb'
      exact hseq c
    | some reg =>
      cases hb'
      exact (accountAnswer_congr rfl c).trans (hseq c)
  | _ =>
    cases h
    exact (accountAnswer_congr rfl c).trans (hseq c)

def drepEffect (cert : Certificate) (c : Credential)
    (old : Except LedgerError (Option DRepRegistration)) :
    Except LedgerError (Option DRepRegistration) :=
  match cert with
  | .registrationDrep cred amount anchor =>
    if c = cred then .ok (some ⟨cred, anchor, some amount⟩) else old
  | .updateDrep cred anchor =>
    if c = cred then old.map fun reg => reg.map fun reg => { reg with anchor := anchor } else old
  | .deregistrationDrep cred _ => if c = cred then .ok none else old
  | _ => old

theorem drepEffect_of_not_isDRep (h : cert.isDRep = false) (c : Credential)
    (old : Except LedgerError (Option DRepRegistration)) : drepEffect cert c old = old := by
  cases cert with
  | registrationDrep | deregistrationDrep | updateDrep => cases h
  | _ => rfl

theorem dRepRegistration_congr (h : b'.drepPart = b.drepPart) (c : Credential) :
    b'.dRepRegistration c = b.dRepRegistration c := by
  simp only [drepPart, Prod.mk.injEq] at h
  simp [dRepRegistration, h.1, h.2]

theorem dRepRegistration_setDRep (b : BlockLedgerState) (cred c : Credential) (drep : BlockDRep) :
    (b.setDRep cred drep).dRepRegistration c =
      if c = cred then .ok drep.registration else b.dRepRegistration c := by
  by_cases h : c = cred
  · subst h
    simp [dRepRegistration, setDRep]
  · simp [dRepRegistration, setDRep, h, AList.lookup_insert_ne h]

theorem dRepRegistration_applyCertificate {pp : ProtocolParameters}
    (h : applyCertificate pp b cert = .ok b') (c : Credential) :
    b'.dRepRegistration c = drepEffect cert c (b.dRepRegistration c) := by
  have hseq : ∀ c, { b with seq := b.seq + 1 }.dRepRegistration c = b.dRepRegistration c :=
    dRepRegistration_congr rfl
  cases cert with
  | registrationDrep | deregistrationDrep =>
    cases h
    rw [dRepRegistration_setDRep, hseq]
    rfl
  | updateDrep cred anchor =>
    obtain ⟨reg, hreg, hb'⟩ := bind_eq_ok.mp h
    rw [hseq] at hreg
    cases reg with
    | none =>
      cases hb'
      rw [hseq]
      by_cases hc : c = cred
      · subst hc
        simp [drepEffect, hreg, Except.map]
      · simp [drepEffect, hc]
    | some reg =>
      cases hb'
      rw [dRepRegistration_setDRep, hseq]
      by_cases hc : c = cred
      · subst hc
        simp [drepEffect, hreg, Except.map]
      · simp [drepEffect, hc]
  | stakeRegistration cred =>
    obtain ⟨deposit, _, hb'⟩ := bind_eq_ok.mp h
    cases hb'
    exact dRepRegistration_congr rfl c
  | poolRegistration cert =>
    exact (dRepRegistration_congr (drepPart_applyPoolRegistration h) c).trans (hseq c)
  | moveInstantaneousRewards source rewards =>
    cases h
    rw [applyMirRewards_eq]
    exact dRepRegistration_congr rfl c
  | _ =>
    cases h
    exact dRepRegistration_congr rfl c

end BlockLedgerState

end Gouroboros.Ledger

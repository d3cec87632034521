import Gouroboros.Ledger.Common.BlockAccounts

/-!
# The eager ledger state

What the account and DRep queries of a block-scoped view are meant to answer: a
state that holds every stake credential's account and every DRep's registration
and is updated as the effects of a transaction come. A registration resets an
account, a deregistration clears it, and the deregistration of a DRep clears at
once every delegation to it, those that only the provider holds included.

An entry that the provider answers with an error stays that error until a
certificate sets it.
-/

namespace Gouroboros.Ledger

/-- The DRep that a delegation names; the built-in choices and a malformed credential name
none. -/
def Drep.credential? (d : Drep) : Option Credential :=
  if (d.type ≠ drepTypeAddrKeyHash ∧ d.type ≠ drepTypeScriptHash) ∨ d.credential.length ≠ 28 then
    none
  else some ⟨d.type.toNat, newBlake2b224 d.credential⟩

/-- The vote delegations that `DRepDelegationStateFor` reports, none without the
capability. -/
def recordedDelegation (ls : LedgerState) : DRepDelegationState :=
  (dRepDelegationStateFor ls).getD fun _ => .ok none

structure EagerAccount where
  registered : Bool
  deposit : Except LedgerError (Option UInt64)
  balance : Except LedgerError (Option UInt64)
  delegation : Except LedgerError (Option Drep)

structure EagerState where
  account : Credential → EagerAccount
  drep : Credential → Except LedgerError (Option DRepRegistration)

namespace EagerState

def ofLedgerState (ls : LedgerState) : EagerState where
  account := fun cred =>
    { registered := ls.isStakeCredentialRegistered cred
      deposit := recordedStakeDeposit ls cred
      balance := ls.rewardAccountBalance cred
      delegation := recordedDelegation ls cred }
  drep := ls.dRepRegistration

variable (s : EagerState)

def setAccount (cred : Credential) (account : EagerAccount) : EagerState :=
  { s with account := Function.update s.account cred account }

def register (cred : Credential) (deposit : UInt64) : EagerState :=
  s.setAccount cred
    { registered := true
      deposit := .ok (some deposit)
      balance := .ok (some 0)
      delegation := .ok none }

def deregister (cred : Credential) : EagerState :=
  s.setAccount cred
    { registered := false
      deposit := .ok none
      balance := .ok none
      delegation := .ok none }

def delegate (cred : Credential) (drep : Drep) : EagerState :=
  s.setAccount cred { s.account cred with delegation := .ok (some drep) }

def setBalance (cred : Credential) (balance : Option UInt64) : EagerState :=
  s.setAccount cred { s.account cred with balance := .ok balance }

def setDRep (cred : Credential) (registration : Option DRepRegistration) : EagerState :=
  { s with drep := Function.update s.drep cred (.ok registration) }

def clearDelegations (drep : Credential) : EagerState :=
  { s with
    account := fun cred =>
      { s.account cred with
        delegation := (s.account cred).delegation.map fun delegation =>
          delegation.filter fun d => d.credential? ≠ some drep } }

def applyWithdrawal (s : EagerState) (withdrawal : Address × Option Int) :
    Except LedgerError EagerState :=
  match withdrawal.1.rewardAccountCredential with
  | .error _ => .ok s
  | .ok cred => do
      let balance ← (s.account cred).balance
      .ok (s.setBalance cred (balance.map fun balance =>
        BlockLedgerState.remainingBalance (some balance) withdrawal.2))

def applyDirectDeposit (s : EagerState) (deposit : DirectDeposit) :
    Except LedgerError EagerState := do
  let balance ← (s.account deposit.credential).balance
  .ok (s.setBalance deposit.credential (balance.map fun balance => balance + deposit.amount))

def applyCertificate (pp : ProtocolParameters) (s : EagerState) :
    Certificate → Except LedgerError EagerState
  | .stakeRegistration cred => do
      let deposit ← BlockLedgerState.blockKeyDeposit pp
      .ok (s.register cred deposit)
  | .registration cred amount => .ok (s.register cred amount)
  | .stakeRegistrationDelegation cred _ amount => .ok (s.register cred amount)
  | .voteRegistrationDelegation cred drep amount => .ok ((s.register cred amount).delegate cred drep)
  | .stakeVoteRegistrationDelegation cred _ drep amount =>
    .ok ((s.register cred amount).delegate cred drep)
  | .stakeDeregistration cred => .ok (s.deregister cred)
  | .deregistration cred _ => .ok (s.deregister cred)
  | .voteDelegation cred drep => .ok (s.delegate cred drep)
  | .stakeVoteDelegation cred _ drep => .ok (s.delegate cred drep)
  | .registrationDrep cred amount anchor => .ok (s.setDRep cred (some ⟨cred, anchor, some amount⟩))
  | .updateDrep cred anchor => do
      let registration ← s.drep cred
      .ok (s.setDRep cred (registration.map fun reg => { reg with anchor := anchor }))
  | .deregistrationDrep cred _ => .ok ((s.setDRep cred none).clearDelegations cred)
  | _ => .ok s

def applyLevel (pp : ProtocolParameters) (s : EagerState) (level : LedgerEffectLevel) :
    Except LedgerError EagerState := do
  let s ← level.withdrawals.values.foldlM applyWithdrawal s
  let s ← level.certificates.foldlM (applyCertificate pp) s
  level.directDeposits.foldlM applyDirectDeposit s

def applyTransaction (s : EagerState) (tx : Transaction) (pp : ProtocolParameters) :
    Except LedgerError EagerState :=
  if !tx.isValid then .ok s
  else do
    let levels ← BlockLedgerState.levelsOf tx
    levels.foldlM (applyLevel pp) s

def applyTransactions (s : EagerState) (txs : List (Transaction × ProtocolParameters)) :
    Except LedgerError EagerState :=
  txs.foldlM (fun s entry => s.applyTransaction entry.1 entry.2) s

theorem account_setAccount (s : EagerState) (cred c : Credential) (account : EagerAccount) :
    (s.setAccount cred account).account c = if c = cred then account else s.account c := by
  unfold setAccount
  dsimp only
  rw [Function.update_apply]

theorem drep_setDRep (s : EagerState) (cred c : Credential)
    (registration : Option DRepRegistration) :
    (s.setDRep cred registration).drep c = if c = cred then .ok registration else s.drep c := by
  unfold setDRep
  dsimp only
  rw [Function.update_apply]

end EagerState

namespace BlockLedgerState

/-- `ApplyTransaction` for the transactions of a block, each with its parameters. -/
def applyTransactions (b : BlockLedgerState) (txs : List (Transaction × ProtocolParameters)) :
    Except LedgerError BlockLedgerState :=
  txs.foldlM (fun b entry => b.applyTransaction entry.1 entry.2) b

/-- The certificates that `ApplyTransaction` folds. -/
def appliedCertificates (tx : Transaction) : List Certificate :=
  match tx.isValid, levelsOf tx with
  | true, .ok levels => levels.flatMap (·.certificates)
  | _, _ => []

def blockCertificates (txs : List (Transaction × ProtocolParameters)) : List Certificate :=
  txs.flatMap fun entry => appliedCertificates entry.1

end BlockLedgerState

namespace EagerState

open ExceptFold BlockLedgerState

/-! What writing a balance and every certificate keep. -/

variable {P : EagerState → Prop} {s s' : EagerState}
  (hbalance : ∀ t cred balance, P t → P (t.setBalance cred balance))
include hbalance

theorem applyLevel_invariant {pp : ProtocolParameters} {level : LedgerEffectLevel}
    (hcert : ∀ t t', ∀ cert ∈ level.certificates, P t → t.applyCertificate pp cert = .ok t' → P t')
    (hs : P s) (hstep : s.applyLevel pp level = .ok s') : P s' := by
  obtain ⟨s₁, hwithdrawals, hstep⟩ := bind_eq_ok.mp hstep
  obtain ⟨s₂, hcertificates, hdeposits⟩ := bind_eq_ok.mp hstep
  have h₁ : P s₁ := by
    refine foldlM_invariant P (fun t t' w _ ht hw => ?_) hs hwithdrawals
    unfold applyWithdrawal at hw
    split at hw
    · cases hw
      exact ht
    · obtain ⟨balance, -, hw⟩ := bind_eq_ok.mp hw
      cases hw
      exact hbalance _ _ _ ht
  have h₂ : P s₂ := foldlM_invariant P hcert h₁ hcertificates
  refine foldlM_invariant P (fun t t' d _ ht hd => ?_) h₂ hdeposits
  obtain ⟨balance, -, hd⟩ := bind_eq_ok.mp hd
  cases hd
  exact hbalance _ _ _ ht

theorem applyTransactions_invariant {txs : List (Transaction × ProtocolParameters)}
    (hcert : ∀ pp t t', ∀ cert ∈ blockCertificates txs, P t →
      t.applyCertificate pp cert = .ok t' → P t')
    (hs : P s) (hrun : s.applyTransactions txs = .ok s') : P s' := by
  refine foldlM_invariant P (fun t t' entry hentry ht hstep => ?_) hs hrun
  have hmem : ∀ cert ∈ appliedCertificates entry.1, cert ∈ blockCertificates txs :=
    fun cert hc => List.mem_flatMap.mpr ⟨entry, hentry, hc⟩
  unfold applyTransaction at hstep
  unfold appliedCertificates at hmem
  cases hvalid : entry.1.isValid with
  | false =>
    rw [hvalid] at hstep
    cases hstep
    exact ht
  | true =>
    rw [hvalid] at hstep hmem
    obtain ⟨levels, hlevels, hstep⟩ := bind_eq_ok.mp hstep
    rw [hlevels] at hmem
    refine foldlM_invariant P (fun u u' level hlevel hu hl => ?_) ht hstep
    refine applyLevel_invariant hbalance (fun v v' cert hc => hcert _ v v' cert ?_) hu hl
    exact hmem cert (List.mem_flatMap.mpr ⟨level, hlevel, hc⟩)

end EagerState

end Gouroboros.Ledger

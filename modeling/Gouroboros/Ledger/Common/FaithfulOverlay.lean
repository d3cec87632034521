import Gouroboros.Ledger.Common.EagerState

/-!
# The block-scoped view is a faithful overlay

A block-scoped view keeps partial records and clears the delegations to a
deregistered DRep when they are asked for, by comparing certificate numbers. Its
answers are those of the eager state (`overlay_faithful_iff`).
-/

namespace Gouroboros.Ledger

open ExceptFold

namespace BlockLedgerState

variable {b b' : BlockLedgerState} {c cred : Credential}

/-! ## Delegations, read off -/

def providerDelegation (b : BlockLedgerState) : DRepDelegationState :=
  b.base.dRepDelegation?.getD fun _ => .ok none

def delegationAnswer (b : BlockLedgerState) : DRepDelegationState :=
  blockDRepDelegations b.toBlockOverlay b.providerDelegation

/-- The delegation on record and the number of the certificate that made it, 0 for the
provider's. -/
def heldDelegation (b : BlockLedgerState) (c : Credential) :
    Except LedgerError (Option Drep × UInt64) :=
  if (b.account c).drepKnown then .ok ((b.account c).drep, (b.account c).drepSeq)
  else (b.providerDelegation c).map fun drep => (drep, 0)

/-- A delegation stands until its DRep deregisters after it. -/
def stands (b : BlockLedgerState) (madeAt : UInt64) (d : Drep) : Bool :=
  match d.credential? with
  | none => true
  | some k => !decide (madeAt < (b.drep k).deregSeq)

section

variable (b)

theorem heldDelegation_eq (c : Credential) :
    b.heldDelegation c =
      match (b.accounts.lookup c).filter (·.drepKnown) with
      | some account => Except.ok (account.drep, account.drepSeq)
      | none => (b.providerDelegation c).map fun drep => (drep, 0) := by
  unfold heldDelegation account
  cases b.accounts.lookup c with
  | none => rfl
  | some a => cases hknown : a.drepKnown <;> simp [hknown, Option.filter_some]

theorem filter_stands_eq (d : Drep) (madeAt : UInt64) :
    (if (d.type ≠ drepTypeAddrKeyHash ∧ d.type ≠ drepTypeScriptHash) ∨
        d.credential.length ≠ 28 then
      (Except.ok (some d) : Except LedgerError (Option Drep))
    else
      match b.dreps.lookup ⟨d.type.toNat, newBlake2b224 d.credential⟩ with
      | some state => if madeAt < state.deregSeq then .ok none else .ok (some d)
      | none => .ok (some d)) =
    .ok ((some d).filter (b.stands madeAt)) := by
  rw [Option.filter_some]
  unfold stands Drep.credential? drep
  split
  · simp
  · cases hlookup : b.dreps.lookup ⟨d.type.toNat, newBlake2b224 d.credential⟩ with
    | none => simp [hlookup]
    | some state => by_cases hlt : madeAt < state.deregSeq <;> simp [hlookup, hlt]

theorem delegationAnswer_eq (c : Credential) :
    b.delegationAnswer c =
      (b.heldDelegation c).map fun held => held.1.filter (b.stands held.2) := by
  rw [heldDelegation_eq]
  unfold delegationAnswer blockDRepDelegations
  cases (b.accounts.lookup c).filter (·.drepKnown) with
  | none =>
    cases b.providerDelegation c with
    | error e => rfl
    | ok drep =>
      cases drep with
      | none => rfl
      | some d => exact filter_stands_eq b d 0
  | some a =>
    cases hdrep : a.drep with
    | none => simp [hdrep, bind, Except.bind, Except.map]
    | some d =>
      simp only [hdrep, bind, Except.bind, Except.map]
      exact filter_stands_eq b d a.drepSeq

@[simp] theorem account_setAccount (cred c : Credential) (a : BlockAccount) :
    (b.setAccount cred a).account c = if c = cred then a else b.account c := by
  unfold account setAccount
  rw [GoMap.lookup_insert_ite]
  split <;> rfl

@[simp] theorem drep_setDRep (cred c : Credential) (d : BlockDRep) :
    (b.setDRep cred d).drep c = if c = cred then d else b.drep c := by
  unfold drep setDRep
  rw [GoMap.lookup_insert_ite]
  split <;> rfl

end

theorem delegationAnswer_congr (hprovider : b'.providerDelegation = b.providerDelegation)
    (haccount : (b'.account c).drepKnown = (b.account c).drepKnown ∧
      (b'.account c).drep = (b.account c).drep ∧ (b'.account c).drepSeq = (b.account c).drepSeq)
    (hdrep : ∀ k, (b'.drep k).deregSeq = (b.drep k).deregSeq) :
    b'.delegationAnswer c = b.delegationAnswer c := by
  have hstands : b'.stands = b.stands := by
    funext madeAt d
    unfold stands
    simp only [hdrep]
  have hheld : b'.heldDelegation c = b.heldDelegation c := by
    unfold heldDelegation
    rw [hprovider, haccount.1, haccount.2.1, haccount.2.2]
  rw [delegationAnswer_eq, delegationAnswer_eq, hstands, hheld]

theorem delegationAnswer_setAccount {a : BlockAccount} (hknown : a.drepKnown)
    (hstands : ∀ d, a.drep = some d → b.stands a.drepSeq d) :
    (b.setAccount cred a).delegationAnswer cred = .ok a.drep := by
  rw [delegationAnswer_eq, heldDelegation, account_setAccount, if_pos rfl, if_pos hknown]
  cases hdrep : a.drep with
  | none => rfl
  | some d =>
    show Except.ok ((some d).filter (b.stands a.drepSeq)) = _
    rw [Option.filter_some, if_pos (hstands d hdrep)]

theorem delegationAnswer_deregister (hseq : (b.account c).drepSeq < b.seq) :
    (b.setDRep cred { registration := none, deregSeq := b.seq }).delegationAnswer c =
      (b.delegationAnswer c).map fun delegation =>
        delegation.filter fun d => d.credential? ≠ some cred := by
  have hpos : (0 : UInt64) < b.seq := Nat.lt_of_le_of_lt (Nat.zero_le _) hseq
  have hstands : ∀ madeAt d, madeAt < b.seq →
      (b.setDRep cred { registration := none, deregSeq := b.seq }).stands madeAt d =
        (b.stands madeAt d && decide (d.credential? ≠ some cred)) := by
    intro madeAt d hmade
    unfold stands
    cases hd : d.credential? with
    | none => simp
    | some k =>
      by_cases hk : k = cred
      · simp [hk, hmade]
      · simp [hk]
  have hfilter : ∀ (drep : Option Drep) (madeAt : UInt64), madeAt < b.seq →
      drep.filter ((b.setDRep cred { registration := none, deregSeq := b.seq }).stands madeAt) =
        (drep.filter (b.stands madeAt)).filter fun d => d.credential? ≠ some cred := by
    intro drep madeAt hmade
    cases drep with
    | none => rfl
    | some d =>
      rw [Option.filter_some, Option.filter_some, hstands madeAt d hmade]
      cases b.stands madeAt d with
      | true => simp [Option.filter_some]
      | false => simp
  have hheld : (b.setDRep cred { registration := none, deregSeq := b.seq }).heldDelegation c =
      b.heldDelegation c := rfl
  rw [delegationAnswer_eq, delegationAnswer_eq, hheld]
  unfold heldDelegation
  split
  · exact congrArg Except.ok (hfilter _ _ hseq)
  · cases b.providerDelegation c with
    | error e => rfl
    | ok drep => exact congrArg Except.ok (hfilter drep 0 hpos)

/-! ## Balances -/

theorem accountAnswer_setBalance_none (hknown : (b.account cred).registeredKnown →
      (b.account cred).balanceKnown)
    (hbal : b.rewardAccountBalance cred = .ok none) (value : UInt64) (c : Credential) :
    (b.setAccount cred
      { b.account cred with balance := value, balanceKnown := true }).accountAnswer c =
      b.accountAnswer c := by
  have hbal : (b.accountAnswer cred).balance = .ok none := hbal
  rw [accountAnswer_setAccount]
  split
  next h =>
    rw [h]
    rw [accountAnswer_eq] at hbal ⊢
    rw [BlockAccount.answer_setBalance fun hk => .inl (hknown hk), hbal]
    exact congrArg (AccountAnswer.mk _ · _) hbal.symm
  next => rfl

/-! ## Certificate numbers -/

theorem seq_recordProposals (b : BlockLedgerState) (id : Blake2b256)
    (ps : List ProposalProcedure) : (b.recordProposals id ps).seq = b.seq := by
  obtain ⟨_, h⟩ := recordProposals_eq b id ps
  rw [h]

theorem seq_applyUtxo (b : BlockLedgerState) (tx : Transaction) : (b.applyUtxo tx).seq = b.seq := by
  obtain ⟨_, _, h⟩ := applyUtxo_eq b tx
  rw [h]

end BlockLedgerState

/-! ## The two states agree -/

def EagerAccount.answer (a : EagerAccount) : AccountAnswer := ⟨a.registered, a.balance, a.deposit⟩

/-- The view over `base` after `n` certificates answers what the eager state holds. -/
structure Agrees (base : LedgerState) (n : Nat) (b : BlockLedgerState) (s : EagerState) : Prop where
  wraps : b.base = base
  seq : b.seq.toNat = n
  account : ∀ c, b.accountAnswer c = (s.account c).answer
  delegation : ∀ c, b.delegationAnswer c = (s.account c).delegation
  drep : ∀ c, b.dRepRegistration c = s.drep c
  known : ∀ c, (b.account c).registeredKnown = true → (b.account c).balanceKnown = true
  delegated : ∀ c, (b.account c).drepSeq ≤ b.seq
  deregistered : ∀ k, (b.drep k).deregSeq ≤ b.seq

/-- Every number on record is below the current one. -/
structure Fresh (b : BlockLedgerState) : Prop where
  delegated : ∀ c, (b.account c).drepSeq < b.seq
  deregistered : ∀ k, (b.drep k).deregSeq < b.seq

namespace Agrees

open BlockLedgerState

variable {base : LedgerState} {n : Nat} {b b' : BlockLedgerState} {s : EagerState} {cred : Credential}

section

variable (h : Agrees base n b s)
include h

theorem of_parts (haccount : b'.accountPart = b.accountPart)
    (hdrep : b'.drepPart = b.drepPart) (hseq : b'.seq = b.seq) : Agrees base n b' s := by
  obtain ⟨hbase, haccounts⟩ := Prod.mk.inj haccount
  obtain ⟨-, hdreps⟩ := Prod.mk.inj hdrep
  have haccount' : ∀ c, b'.account c = b.account c := fun c => by
    simp only [BlockLedgerState.account, haccounts]
  have hdrep' : ∀ k, b'.drep k = b.drep k := fun k => by
    simp only [BlockLedgerState.drep, hdreps]
  refine ⟨hbase.trans h.wraps, hseq ▸ h.seq,
    fun c => (accountAnswer_congr haccount c).trans (h.account c), fun c => ?_,
    fun c => (dRepRegistration_congr hdrep c).trans (h.drep c), fun c => ?_, fun c => ?_,
    fun k => ?_⟩
  · rw [← h.delegation c]
    refine delegationAnswer_congr ?_ ?_ fun k => by rw [hdrep']
    · simp only [providerDelegation, hbase]
    · rw [haccount']
      exact ⟨rfl, rfl, rfl⟩
  · rw [haccount']
    exact h.known c
  · rw [haccount', hseq]
    exact h.delegated c
  · rw [hdrep', hseq]
    exact h.deregistered k

theorem tick (hn : n + 1 < 2 ^ 64) :
    Agrees base (n + 1) { b with seq := b.seq + 1 } s ∧ Fresh { b with seq := b.seq + 1 } := by
  have hone : (b.seq + 1).toNat = n + 1 := by
    rw [UInt64.toNat_add, h.seq]
    exact Nat.mod_eq_of_lt hn
  have hlt : ∀ x : UInt64, x ≤ b.seq → x < b.seq + 1 := by
    intro x hx
    rw [UInt64.lt_iff_toNat_lt, hone]
    have hle := UInt64.le_iff_toNat_le.mp hx
    rw [h.seq] at hle
    omega
  have hdelegated := fun c => hlt _ (h.delegated c)
  have hderegistered := fun k => hlt _ (h.deregistered k)
  refine ⟨⟨h.wraps, hone, fun c => ?_, fun c => ?_, h.drep, h.known, fun c => ?_, fun k => ?_⟩,
    hdelegated, hderegistered⟩
  · exact (accountAnswer_congr rfl c).trans (h.account c)
  · exact (delegationAnswer_congr rfl ⟨rfl, rfl, rfl⟩ fun _ => rfl).trans (h.delegation c)
  · exact UInt64.le_of_lt (hdelegated c)
  · exact UInt64.le_of_lt (hderegistered k)

theorem setAccount {a : BlockAccount} {e : EagerAccount}
    (hanswer : ∀ c, (b.setAccount cred a).accountAnswer c =
      if c = cred then e.answer else b.accountAnswer c)
    (hdelegation : (b.setAccount cred a).delegationAnswer cred = e.delegation)
    (hknown : a.registeredKnown → a.balanceKnown) (hseq : a.drepSeq ≤ b.seq) :
    Agrees base n (b.setAccount cred a) (s.setAccount cred e) := by
  refine ⟨h.wraps, h.seq, fun c => ?_, fun c => ?_, h.drep, fun c => ?_, fun c => ?_, h.deregistered⟩
  · rw [hanswer, EagerState.account_setAccount, h.account c]
    split <;> rfl
  · rw [EagerState.account_setAccount]
    by_cases hc : c = cred
    · rw [if_pos hc, hc]
      exact hdelegation
    · rw [if_neg hc, ← h.delegation c]
      refine delegationAnswer_congr rfl ?_ fun _ => rfl
      rw [account_setAccount, if_neg hc]
      exact ⟨rfl, rfl, rfl⟩
  · rw [account_setAccount]
    split
    · exact hknown
    · exact h.known c
  · rw [account_setAccount]
    split
    · exact hseq
    · exact h.delegated c

theorem register (deposit : UInt64) :
    Agrees base n (b.registerAccount cred deposit) (s.register cred deposit) := by
  refine h.setAccount (accountAnswer_registerAccount b cred · deposit) ?_ (fun _ => rfl)
    UInt64.zero_le
  exact delegationAnswer_setAccount rfl nofun

theorem deregister : Agrees base n (b.deregisterAccount cred) (s.deregister cred) := by
  refine h.setAccount (accountAnswer_deregisterAccount b cred) ?_ (fun _ => rfl) UInt64.zero_le
  exact delegationAnswer_setAccount rfl nofun

theorem delegate (drep : Drep) :
    Agrees base n (b.delegateVote cred drep) (s.delegate cred drep) := by
  refine h.setAccount (fun c => ?_) ?_ (h.known cred) (UInt64.le_refl _)
  · have hanswer := accountAnswer_delegateVote b cred c drep
    unfold delegateVote at hanswer
    rw [hanswer]
    split
    · rename_i hc
      rw [hc, h.account cred]
      rfl
    · rfl
  · refine delegationAnswer_setAccount rfl fun d _ => ?_
    unfold stands
    split
    · rfl
    · rename_i k _
      have hle := h.deregistered k
      rw [Bool.not_eq_true', decide_eq_false_iff_not, UInt64.not_lt]
      exact hle

theorem setBalance {balance : Option UInt64}
    (hbalance : b.rewardAccountBalance cred = .ok balance) (value : UInt64) :
    Agrees base n (b.setAccount cred { b.account cred with balance := value, balanceKnown := true })
      (s.setBalance cred (balance.map fun _ => value)) := by
  refine h.setAccount (fun c => ?_) ?_ (fun _ => rfl) (h.delegated cred)
  · have hcred := h.account cred
    cases balance with
    | none =>
      rw [accountAnswer_setBalance_none (h.known cred) hbalance]
      split
      · rename_i hc
        rw [hc, hcred]
        have hnone : (s.account cred).balance = .ok none := by
          rw [← hbalance]
          exact (congrArg AccountAnswer.balance hcred).symm
        unfold EagerAccount.answer
        rw [hnone]
        rfl
      · rfl
    | some old =>
      rw [accountAnswer_setBalance hbalance, hcred]
      rfl
  · rw [← h.delegation cred]
    refine delegationAnswer_congr rfl ?_ fun _ => rfl
    rw [account_setAccount, if_pos rfl]
    exact ⟨rfl, rfl, rfl⟩

theorem setDRep (registration : Option DRepRegistration) :
    Agrees base n (b.setDRep cred { b.drep cred with registration := registration })
      (s.setDRep cred registration) := by
  have hdereg : ∀ k, ((b.setDRep cred { b.drep cred with registration := registration }).drep
      k).deregSeq = (b.drep k).deregSeq := by
    intro k
    rw [drep_setDRep]
    split
    · rename_i hk
      rw [hk]
    · rfl
  refine ⟨h.wraps, h.seq, fun c => ?_, fun c => ?_, fun c => ?_, h.known, h.delegated, fun k => ?_⟩
  · exact (accountAnswer_congr rfl c).trans (h.account c)
  · refine Eq.trans ?_ (h.delegation c)
    exact delegationAnswer_congr rfl ⟨rfl, rfl, rfl⟩ hdereg
  · rw [dRepRegistration_setDRep, EagerState.drep_setDRep, h.drep c]
  · rw [hdereg]
    exact h.deregistered k

theorem deregisterDRep (hfresh : Fresh b) :
    Agrees base n (b.setDRep cred { registration := none, deregSeq := b.seq })
      ((s.setDRep cred none).clearDelegations cred) := by
  refine ⟨h.wraps, h.seq, fun c => ?_, fun c => ?_, fun c => ?_, h.known, h.delegated, fun k => ?_⟩
  · exact (accountAnswer_congr rfl c).trans (h.account c)
  · rw [delegationAnswer_deregister (hfresh.delegated c), h.delegation c]
    rfl
  · rw [dRepRegistration_setDRep, h.drep c]
    exact (EagerState.drep_setDRep s cred c none).symm
  · rw [drep_setDRep]
    split
    · exact UInt64.le_refl _
    · exact h.deregistered k

end

variable {pp : ProtocolParameters}

section

variable (h : Agrees base n b s)
include h

theorem applyCertificate {cert : Certificate} (hn : n + 1 < 2 ^ 64)
    (hstep : applyCertificate pp b cert = .ok b') :
    ∃ s', s.applyCertificate pp cert = .ok s' ∧ Agrees base (n + 1) b' s' := by
  obtain ⟨h, hfresh⟩ := h.tick hn
  cases cert with
  | stakeRegistration cred =>
    obtain ⟨deposit, hdeposit, hb'⟩ := bind_eq_ok.mp hstep
    cases hb'
    refine ⟨_, ?_, h.register deposit⟩
    rw [EagerState.applyCertificate, hdeposit]
    rfl
  | registration cred amount | stakeRegistrationDelegation cred pool amount =>
    cases hstep
    exact ⟨_, rfl, h.register amount⟩
  | voteRegistrationDelegation cred drep amount
  | stakeVoteRegistrationDelegation cred pool drep amount =>
    cases hstep
    exact ⟨_, rfl, (h.register amount).delegate drep⟩
  | stakeDeregistration cred | deregistration cred amount =>
    cases hstep
    exact ⟨_, rfl, h.deregister⟩
  | voteDelegation cred drep | stakeVoteDelegation cred pool drep =>
    cases hstep
    exact ⟨_, rfl, h.delegate drep⟩
  | registrationDrep cred amount anchor =>
    cases hstep
    exact ⟨_, rfl, h.setDRep _⟩
  | updateDrep cred anchor =>
    obtain ⟨registration, hregistration, hb'⟩ := bind_eq_ok.mp hstep
    have hdrep : s.drep cred = .ok registration := by rw [← h.drep cred, hregistration]
    refine ⟨s.setDRep cred (registration.map fun reg => { reg with anchor := anchor }), ?_, ?_⟩
    · rw [EagerState.applyCertificate, hdrep]
      rfl
    · cases registration with
      | none =>
        -- Nothing is registered, and nothing is recorded.
        cases hb'
        refine { h with drep := fun c => ?_ }
        rw [EagerState.drep_setDRep, h.drep c]
        split
        · rename_i hc
          rw [hc, hdrep]
          rfl
        · rfl
      | some reg =>
        cases hb'
        exact h.setDRep _
  | deregistrationDrep cred amount =>
    cases hstep
    exact ⟨_, rfl, h.deregisterDRep hfresh⟩
  | poolRegistration cert =>
    obtain ⟨_, _, _, rfl⟩ := applyPoolRegistration_eq hstep
    exact ⟨s, rfl, h.of_parts rfl rfl rfl⟩
  | moveInstantaneousRewards source rewards =>
    cases hstep
    rw [applyMirRewards_eq]
    exact ⟨s, rfl, h.of_parts rfl rfl rfl⟩
  | poolRetirement pool epoch | authCommitteeHot cold hot | resignCommitteeCold cold
  | stakeDelegation cred pool | genesisKeyDelegation =>
    cases hstep
    exact ⟨s, rfl, h.of_parts rfl rfl rfl⟩

theorem loop {α : Type} {certs : α → List Certificate}
    {f : BlockLedgerState → α → Except LedgerError BlockLedgerState}
    {g : EagerState → α → Except LedgerError EagerState} {l : List α}
    (hn : n + (l.flatMap certs).length < 2 ^ 64) (hrun : l.foldlM f b = .ok b')
    (hstep : ∀ {n b b' s a}, Agrees base n b s → n + (certs a).length < 2 ^ 64 →
      f b a = .ok b' → ∃ s', g s a = .ok s' ∧ Agrees base (n + (certs a).length) b' s') :
    ∃ s', l.foldlM g s = .ok s' ∧ Agrees base (n + (l.flatMap certs).length) b' s' := by
  induction l generalizing n b s with
  | nil =>
    rw [foldlM_nil_eq_ok] at hrun
    exact ⟨s, rfl, hrun ▸ h⟩
  | cons a l ih =>
    rw [List.flatMap_cons, List.length_append, ← Nat.add_assoc] at hn ⊢
    obtain ⟨b₁, hfirst, hrest⟩ := foldlM_cons_eq_ok.mp hrun
    obtain ⟨s₁, hs₁, h₁⟩ := hstep h (by omega) hfirst
    obtain ⟨s', hs', h'⟩ := ih h₁ hn hrest
    exact ⟨s', foldlM_cons_eq_ok.mpr ⟨s₁, hs₁, hs'⟩, h'⟩

theorem applyCertificates {certs : List Certificate}
    (hn : n + certs.length < 2 ^ 64) (hrun : b.applyCertificates pp certs = .ok b') :
    ∃ s', certs.foldlM (EagerState.applyCertificate pp) s = .ok s' ∧
      Agrees base (n + certs.length) b' s' := by
  rw [← List.flatMap_singleton' certs] at hn
  have hloop := h.loop hn hrun fun h hn hc => h.applyCertificate hn hc
  rwa [List.flatMap_singleton'] at hloop

theorem balance_eq (c : Credential) : b.rewardAccountBalance c = (s.account c).balance :=
  congrArg AccountAnswer.balance (h.account c)

theorem applyWithdrawal {w : Address × Option Int} (hstep : b.applyWithdrawal w = .ok b') :
    ∃ s', s.applyWithdrawal w = .ok s' ∧ Agrees base n b' s' := by
  unfold EagerState.applyWithdrawal
  rcases applyWithdrawal_cases hstep with ⟨e, he, rfl⟩ | ⟨cred, balance, hcred, hbalance, rfl⟩
  · rw [he]
    exact ⟨s, rfl, h⟩
  · rw [hcred]
    dsimp only
    rw [← h.balance_eq cred, hbalance]
    refine ⟨_, rfl, ?_⟩
    have hset := h.setBalance hbalance (remainingBalance balance w.2)
    cases balance with
    | none | some => exact hset

theorem applyDirectDeposit {d : DirectDeposit} (hstep : b.applyDirectDeposit d = .ok b') :
    ∃ s', s.applyDirectDeposit d = .ok s' ∧ Agrees base n b' s' := by
  unfold EagerState.applyDirectDeposit
  rw [← h.balance_eq d.credential]
  rcases applyDirectDeposit_cases hstep with ⟨hbalance, rfl⟩ | ⟨balance, hbalance, rfl⟩
  · rw [hbalance]
    refine ⟨_, rfl, ?_⟩
    -- The eager state writes the absent balance again.
    have hsame : s.setBalance d.credential none = s := by
      have hnone : (s.account d.credential).balance = .ok none := by
        rw [← h.balance_eq d.credential, hbalance]
      unfold EagerState.setBalance EagerState.setAccount
      rw [← hnone, Function.update_eq_self]
    rw [Option.map_none, hsame]
    exact h
  · rw [hbalance]
    exact ⟨_, rfl, h.setBalance hbalance (balance + d.amount)⟩

theorem applyLevel {level : LedgerEffectLevel} (hn : n + level.certificates.length < 2 ^ 64)
    (hstep : applyLevel pp b level = .ok b') :
    ∃ s', s.applyLevel pp level = .ok s' ∧ Agrees base (n + level.certificates.length) b' s' := by
  obtain ⟨b₁, hwithdrawals, hstep⟩ := bind_eq_ok.mp hstep
  obtain ⟨b₂, hcertificates, hstep⟩ := bind_eq_ok.mp hstep
  obtain ⟨b₃, hdeposits, hstep⟩ := bind_eq_ok.mp hstep
  injection hstep with hstep
  have hsim₁ : ∃ s₁, level.withdrawals.values.foldlM EagerState.applyWithdrawal s = .ok s₁ ∧
      Agrees base n b₁ s₁ :=
    foldlM_sim (Agrees base n) (fun _ _ _ _ _ hR hw => hR.applyWithdrawal hw) h hwithdrawals
  obtain ⟨s₁, hs₁, h₁⟩ := hsim₁
  obtain ⟨s₂, hs₂, h₂⟩ := h₁.applyCertificates hn hcertificates
  have hsim₃ : ∃ s₃, level.directDeposits.foldlM EagerState.applyDirectDeposit s₂ = .ok s₃ ∧
      Agrees base (n + level.certificates.length) b₃ s₃ :=
    foldlM_sim (Agrees base (n + level.certificates.length))
      (fun _ _ _ _ _ hR hd => hR.applyDirectDeposit hd) h₂ hdeposits
  obtain ⟨s₃, hs₃, h₃⟩ := hsim₃
  rw [← hstep]
  have hparts := sameParts_recordProposals b₃ level.id level.proposalProcedures
  refine ⟨s₃, ?_, h₃.of_parts hparts.account hparts.drep (seq_recordProposals _ _ _)⟩
  exact bind_eq_ok.mpr ⟨s₁, hs₁, bind_eq_ok.mpr ⟨s₂, hs₂, hs₃⟩⟩

theorem applyLevels {levels : List LedgerEffectLevel}
    (hn : n + (levels.flatMap (·.certificates)).length < 2 ^ 64)
    (hrun : levels.foldlM (BlockLedgerState.applyLevel pp) b = .ok b') :
    ∃ s', levels.foldlM (EagerState.applyLevel pp) s = .ok s' ∧
      Agrees base (n + (levels.flatMap (·.certificates)).length) b' s' := by
  exact h.loop hn hrun fun h hn hl => h.applyLevel hn hl

theorem applyTransaction {tx : Transaction} (hn : n + (appliedCertificates tx).length < 2 ^ 64)
    (hstep : b.applyTransaction tx pp = .ok b') :
    ∃ s', s.applyTransaction tx pp = .ok s' ∧
      Agrees base (n + (appliedCertificates tx).length) b' s' := by
  have hparts := sameBesidesUtxo_applyUtxo b tx
  have hutxo : Agrees base n (b.applyUtxo tx) s :=
    h.of_parts hparts.account hparts.drep (seq_applyUtxo b tx)
  unfold BlockLedgerState.applyTransaction at hstep
  unfold EagerState.applyTransaction
  unfold appliedCertificates at hn ⊢
  cases hvalid : tx.isValid with
  | false =>
    rw [hvalid] at hstep
    cases hstep
    exact ⟨s, rfl, hutxo⟩
  | true =>
    rw [hvalid] at hstep hn
    obtain ⟨levels, hlevels, hrun⟩ := bind_eq_ok.mp hstep
    rw [hlevels] at hn ⊢
    exact hutxo.applyLevels hn hrun

theorem applyTransactions {txs : List (Transaction × ProtocolParameters)}
    (hn : n + (blockCertificates txs).length < 2 ^ 64) (hrun : b.applyTransactions txs = .ok b') :
    ∃ s', s.applyTransactions txs = .ok s' ∧
      Agrees base (n + (blockCertificates txs).length) b' s' := by
  exact h.loop hn hrun fun h hn htx => h.applyTransaction hn htx

end

end Agrees

/-! ## The queries -/

/-- The provider lists the registrations that it answers one by one, and each carries its
own credential. -/
structure DRepsListed (ls : LedgerState) : Prop where
  credential_eq : ∀ cred reg, ls.dRepRegistration cred = .ok (some reg) → reg.credential = cred
  mem_iff : ∃ regs, ls.dRepRegistrations = .ok regs ∧
    ∀ reg, reg ∈ regs ↔ ls.dRepRegistration reg.credential = .ok (some reg)

def EagerState.Keyed (s : EagerState) : Prop :=
  ∀ cred reg, s.drep cred = .ok (some reg) → reg.credential = cred

namespace EagerState

variable {s s' : EagerState}

theorem Keyed.setDRep {cred : Credential} {registration : Option DRepRegistration} (h : s.Keyed)
    (hregistration : ∀ reg, registration = some reg → reg.credential = cred) :
    (s.setDRep cred registration).Keyed := by
  intro c reg hreg
  rw [drep_setDRep] at hreg
  split at hreg
  · rename_i hc
    injection hreg with hreg
    rw [hc]
    exact hregistration reg hreg
  · exact h c reg hreg

theorem Keyed.applyCertificate {pp : ProtocolParameters} {cert : Certificate} (h : s.Keyed)
    (hstep : s.applyCertificate pp cert = .ok s') : s'.Keyed := by
  cases cert with
  | stakeRegistration cred =>
    obtain ⟨deposit, -, hs'⟩ := bind_eq_ok.mp hstep
    cases hs'
    exact h
  | registrationDrep cred amount anchor =>
    cases hstep
    refine h.setDRep fun reg hreg => ?_
    injection hreg with hreg
    rw [← hreg]
  | updateDrep cred anchor =>
    obtain ⟨registration, hregistration, hs'⟩ := bind_eq_ok.mp hstep
    cases hs'
    refine h.setDRep fun reg hreg => ?_
    obtain ⟨old, hold, rfl⟩ := Option.map_eq_some_iff.mp hreg
    rw [hold] at hregistration
    exact h cred old hregistration
  | deregistrationDrep cred amount =>
    cases hstep
    show (s.setDRep cred none).Keyed
    exact h.setDRep nofun
  | _ =>
    cases hstep
    exact h

theorem Keyed.applyTransactions {txs : List (Transaction × ProtocolParameters)} (h : s.Keyed)
    (hrun : s.applyTransactions txs = .ok s') : s'.Keyed :=
  applyTransactions_invariant (fun _ _ _ ht => ht) (fun _ _ _ _ _ ht hc => ht.applyCertificate hc)
    h hrun

end EagerState

structure Answers (b : BlockLedgerState) (s : EagerState) : Prop where
  registered : ∀ c, b.isStakeCredentialRegistered c = (s.account c).registered
  balance : ∀ c, b.rewardAccountBalance c = (s.account c).balance
  deposit : ∀ state, stakeCredentialDepositStateFor b.toLedgerState = some state →
    ∀ c, state c = (s.account c).deposit
  delegation : ∀ state, dRepDelegationStateFor b.toLedgerState = some state →
    ∀ c, state c = (s.account c).delegation
  drep : ∀ c, b.dRepRegistration c = s.drep c
  dreps : DRepsListed b.base → ∃ regs, b.dRepRegistrations = .ok regs ∧
    ∀ reg, reg ∈ regs ↔ ∃ c, s.drep c = .ok (some reg)

theorem dRepDelegationStateFor_toLedgerState {b : BlockLedgerState} {state : DRepDelegationState}
    (h : dRepDelegationStateFor b.toLedgerState = some state) : state = b.delegationAnswer := by
  obtain ⟨provider, hprovider, rfl⟩ := Option.map_eq_some_iff.mp h
  have hsome : b.base.dRepDelegation? = some provider := hprovider
  unfold BlockLedgerState.delegationAnswer BlockLedgerState.providerDelegation
  rw [hsome]
  rfl

variable {base : LedgerState}

theorem Agrees.dreps {n : Nat} {b : BlockLedgerState} {s : EagerState} (h : Agrees base n b s)
    (hkeyed : s.Keyed) (hlisted : DRepsListed b.base) :
    ∃ regs, b.dRepRegistrations = .ok regs ∧
      ∀ reg, reg ∈ regs ↔ ∃ c, s.drep c = .ok (some reg) := by
  obtain ⟨regs, hregs, hmem⟩ := hlisted.mem_iff
  refine ⟨regs.filter (fun reg => (b.dreps.lookup reg.credential).isNone) ++
    b.dreps.values.filterMap (·.registration), ?_, fun reg => ?_⟩
  · rw [BlockLedgerState.dRepRegistrations, hregs]
    rfl
  · rw [List.mem_append, List.mem_filter, List.mem_filterMap, hmem]
    constructor
    · rintro (⟨hbase, huntouched⟩ | ⟨d, hd, hreg⟩)
      · refine ⟨reg.credential, ?_⟩
        rw [← h.drep, BlockLedgerState.dRepRegistration, Option.isNone_iff_eq_none.mp huntouched]
        exact hbase
      · obtain ⟨entry, hentry, rfl⟩ := List.mem_map.mp hd
        refine ⟨entry.1, ?_⟩
        have hlookup : b.dreps.lookup entry.1 = some entry.2 := AList.mem_lookup_iff.mpr hentry
        rw [← h.drep, BlockLedgerState.dRepRegistration, hlookup]
        exact congrArg Except.ok hreg
    · rintro ⟨c, hc⟩
      have hcred := hkeyed c reg hc
      rw [← h.drep, BlockLedgerState.dRepRegistration] at hc
      cases hlookup : b.dreps.lookup c with
      | none =>
        rw [hlookup] at hc
        rw [hcred, hlookup]
        exact .inl ⟨hc, rfl⟩
      | some d =>
        rw [hlookup] at hc
        injection hc with hc
        have hentry : (⟨c, d⟩ : Sigma fun _ : Credential => BlockDRep) ∈ b.dreps.entries :=
          AList.mem_lookup_iff.mp hlookup
        exact .inr ⟨d, List.mem_map.mpr ⟨_, hentry, rfl⟩, hc⟩

/-- The delegations that `DRepDelegationStateFor` reports for `ls` are its provider's. It
holds unless `ls` is a block-scoped view that has changed one. -/
def LedgerState.DelegationsOfProvider (ls : LedgerState) : Prop :=
  ∀ provider, ls.dRepDelegation? = some provider → recordedDelegation ls = provider

theorem LedgerState.delegationsOfProvider_of_plain {ls : LedgerState} (hplain : ls.blocks = []) :
    ls.DelegationsOfProvider := by
  intro provider hprovider
  unfold recordedDelegation dRepDelegationStateFor
  rw [hplain, hprovider]
  rfl

theorem delegationAnswer_newBlockLedgerState (base : LedgerState) (c : Credential) :
    (newBlockLedgerState base).delegationAnswer c =
      (newBlockLedgerState base).providerDelegation c := by
  have hstands : ∀ d, (newBlockLedgerState base).stands 0 d := by
    intro d
    unfold BlockLedgerState.stands
    split <;> rfl
  rw [BlockLedgerState.delegationAnswer_eq]
  show ((_ : Except LedgerError (Option Drep)).map fun drep => (drep, (0 : UInt64))).map _ = _
  cases (newBlockLedgerState base).providerDelegation c with
  | error e => rfl
  | ok drep =>
    cases drep with
    | none => rfl
    | some d =>
      show Except.ok ((some d).filter _) = _
      rw [Option.filter_some, if_pos (hstands d)]

theorem agrees_of_answers {base : LedgerState} {s : EagerState}
    (haccount : ∀ c, (newBlockLedgerState base).accountAnswer c = (s.account c).answer)
    (hdelegation : ∀ c, (newBlockLedgerState base).providerDelegation c = (s.account c).delegation)
    (hdrep : ∀ c, base.dRepRegistration c = s.drep c) : Agrees base 0 (newBlockLedgerState base) s := by
  refine ⟨rfl, rfl, haccount, fun c => ?_, hdrep, fun c hc => ?_, fun c => UInt64.zero_le,
    fun k => UInt64.zero_le⟩
  · rw [delegationAnswer_newBlockLedgerState]
    exact hdelegation c
  · cases hc

theorem agrees_newBlockLedgerState (h : base.DelegationsOfProvider) :
    Agrees base 0 (newBlockLedgerState base) (.ofLedgerState base) := by
  refine agrees_of_answers (fun c => rfl) (fun c => ?_) (fun c => rfl)
  show base.dRepDelegation?.getD (fun _ => .ok none) c = recordedDelegation base c
  cases hprovider : base.dRepDelegation? with
  | none =>
    unfold recordedDelegation dRepDelegationStateFor
    rw [hprovider]
    rfl
  | some provider =>
    rw [h provider hprovider]
    rfl

/-- The view answers what the eager state holds, after every block with fewer certificates
than its numbers count, exactly when the wrapped state's delegations are its
provider's. -/
theorem overlay_faithful_iff (base : LedgerState) :
    (∀ txs b, (newBlockLedgerState base).applyTransactions txs = .ok b →
      (BlockLedgerState.blockCertificates txs).length < 2 ^ 64 →
      ∃ s, (EagerState.ofLedgerState base).applyTransactions txs = .ok s ∧ Answers b s) ↔
    base.DelegationsOfProvider := by
  constructor
  · intro hall provider hprovider
    obtain ⟨s, hs, hanswers⟩ := hall [] (newBlockLedgerState base) rfl (by decide)
    injection hs with hs
    have hstate : dRepDelegationStateFor (newBlockLedgerState base).toLedgerState =
        some (newBlockLedgerState base).delegationAnswer := by
      show base.dRepDelegation?.map _ = some (blockDRepDelegations _ (base.dRepDelegation?.getD _))
      rw [hprovider]
      rfl
    funext c
    have hc := hanswers.delegation _ hstate c
    rw [← hs, delegationAnswer_newBlockLedgerState] at hc
    rw [show recordedDelegation base c = _ from hc.symm]
    show base.dRepDelegation?.getD (fun _ => .ok none) c = provider c
    rw [hprovider]
    rfl
  · intro hprovider txs b hrun hcount
    obtain ⟨s, hs, h⟩ := (agrees_newBlockLedgerState hprovider).applyTransactions
      (by rw [Nat.zero_add]; exact hcount) hrun
    refine ⟨s, hs, fun c => congrArg AccountAnswer.registered (h.account c), h.balance_eq,
      fun state hstate c => ?_, fun state hstate c => ?_, h.drep, fun hlisted => ?_⟩
    · rw [stakeCredentialDepositStateFor_eq_some hstate]
      exact congrArg AccountAnswer.deposit (h.account c)
    · rw [dRepDelegationStateFor_toLedgerState hstate]
      exact h.delegation c
    · refine h.dreps (EagerState.Keyed.applyTransactions ?_ hs) hlisted
      rw [h.wraps] at hlisted
      exact hlisted.credential_eq

def delegatingBlock : List (Transaction × ProtocolParameters) :=
  [({ Transaction.empty with certificates := [.voteDelegation ⟨0, 1⟩ ⟨drepTypeAbstain, []⟩] },
    ⟨10, none, none, 0, 0⟩)]

/-- A view over the view of that block, with no transactions of its own, does not report
the delegation. -/
theorem nested_view_loses_delegation :
    ∃ inner state, (newBlockLedgerState .empty).applyTransactions delegatingBlock = .ok inner ∧
      dRepDelegationStateFor (newBlockLedgerState inner.toLedgerState).toLedgerState = some state ∧
      state ⟨0, 1⟩ = .ok none ∧
      ((EagerState.ofLedgerState inner.toLedgerState).account ⟨0, 1⟩).delegation =
        .ok (some ⟨drepTypeAbstain, []⟩) :=
  ⟨_, _, rfl, rfl, by decide, by decide⟩

end Gouroboros.Ledger

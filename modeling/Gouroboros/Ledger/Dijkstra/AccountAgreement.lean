import Gouroboros.Ledger.Conway.CertificateValue
import Gouroboros.Ledger.Conway.WithdrawalSteps
import Gouroboros.Ledger.Dijkstra.AccountSteps

/-!
# The rules and the block fold keep the same accounts

The overlay that the Dijkstra account rules thread through the levels and the
block-scoped view that `ApplyTransaction` updates are written separately. They
agree after each level (`AccountsAgree.level`), hence after the transaction.

Both sides visit Go maps, and the fold may visit the entries in another order than
the rules did (`SameUpToOrder`).
-/

namespace Gouroboros.Ledger.Dijkstra

open DijkstraAccountStateOverlay ExceptFold BlockLedgerState

variable {s s' : DijkstraAccountStateOverlay} {b b' : BlockLedgerState} {networkId : Nat}

def AccountsAgree (s : DijkstraAccountStateOverlay) (b : BlockLedgerState) : Prop :=
  ∀ c, b.rewardAccountBalance c = s.rewardAccountBalance c

theorem accountsAgree_new (ls : LedgerState) :
    AccountsAgree (newDijkstraAccountStateOverlay ls) (newBlockLedgerState ls) := by
  intro c
  have hoverlay : (newDijkstraAccountStateOverlay ls).accountAt c =
      (ls.rewardAccountBalance c).map ofBalance := rfl
  have hview : (newBlockLedgerState ls).rewardAccountBalance c = ls.rewardAccountBalance c := rfl
  rw [rewardAccountBalance_eq, hoverlay, hview]
  cases ls.rewardAccountBalance c with
  | error e => rfl
  | ok balance => cases balance <;> rfl

theorem AccountsAgree.congr (h : AccountsAgree s b) (hparts : b'.accountPart = b.accountPart) :
    AccountsAgree s b' := fun c =>
  (congrArg AccountAnswer.balance (accountAnswer_congr hparts c)).trans (h c)

/-! ## Withdrawals -/

/-- The withdrawals of a body are from reward accounts with distinct
credentials. -/
structure WithdrawalsValid (ws : List (Address × Option Int)) : Prop where
  credentials : ∀ w ∈ ws, ∃ cred, w.1.rewardAccountCredential = .ok cred
  distinct : (ws.map withdrawalCredential).Nodup

theorem WithdrawalsValid.perm {ws ws' : List (Address × Option Int)} (h : WithdrawalsValid ws)
    (hperm : ws'.Perm ws) : WithdrawalsValid ws' :=
  ⟨fun w hw => h.credentials w (hperm.mem_iff.mp hw),
    (hperm.map withdrawalCredential).nodup_iff.mpr h.distinct⟩

variable {ls : LedgerState}

theorem withdrawalsValid_of_network {W : Type} {level : DijkstraLevel W}
    (h : Shelley.utxoValidateWrongNetworkWithdrawal level.toTransaction ls = .ok ()) :
    WithdrawalsValid level.body.withdrawalMap.values := by
  obtain ⟨hws, hbytes⟩ := Shelley.utxoValidateWrongNetworkWithdrawal_eq_ok h
  refine ⟨fun w hw => (hws w hw).2, ?_⟩
  refine List.Nodup.map_on ?_ (List.Nodup.of_map _ hbytes)
  intro w hw w' hw' heq
  obtain ⟨hnet, cred, hcred⟩ := hws w hw
  obtain ⟨hnet', cred', hcred'⟩ := hws w' hw'
  rw [withdrawalCredential_eq hcred, withdrawalCredential_eq hcred'] at heq
  -- distinct bytes on one network are distinct credentials
  have hsame : w.1.bytes = w'.1.bytes :=
    Address.bytes_eq_of_credential hcred (heq ▸ hcred') (hnet.trans hnet'.symm)
  exact List.inj_on_of_nodup_map hbytes hw hw' hsame

def lowerAnswer (w : Address × Option Int) :
    Except LedgerError (Option UInt64) → Except LedgerError (Option UInt64) :=
  Except.map (Option.map (lower w))

def AnswerCovers (w : Address × Option Int) (answer : Except LedgerError (Option UInt64)) : Prop :=
  ∃ amount balance, answer = .ok (some balance) ∧ w.2.bind uint64? = some amount ∧ amount ≤ balance

theorem inRange_iff {answer : Credential → Except LedgerError (Option UInt64)}
    {w : Address × Option Int} {cred : Credential} (hcred : w.1.rewardAccountCredential = .ok cred) :
    WithdrawalInRange answer w ↔ AnswerCovers w (answer (withdrawalCredential w)) := by
  rw [withdrawalCredential_eq hcred]
  constructor
  · rintro ⟨cred', amount, balance, hcov⟩
    have hsame : cred' = cred := Except.ok.inj (hcov.credential_eq.symm.trans hcred)
    subst hsame
    exact ⟨amount, balance, hcov.balance_eq, hcov.amount_eq, hcov.le⟩
  · rintro ⟨amount, balance, hbal, hamount, hle⟩
    exact ⟨cred, amount, balance, hcred, hbal, hamount, hle⟩

theorem applyWithdrawals_pointwise {ws : List (Address × Option Int)} (hvalid : WithdrawalsValid ws)
    (hcov : ∀ w ∈ ws, WithdrawalInRange b.rewardAccountBalance w) :
    AllSteps applyWithdrawal
        (fun b w => WithdrawalInRange b.rewardAccountBalance w) b ws ∧
      ∃ b', ws.foldlM applyWithdrawal b = .ok b' ∧
        Pointwise withdrawalCredential lowerAnswer ws b.rewardAccountBalance
          b'.rewardAccountBalance := by
  have hloop := foldlM_pointwise (f := applyWithdrawal)
    rewardAccountBalance lowerAnswer AnswerCovers (l := ws) (s := b) ?_
    hvalid.distinct ?_
  · obtain ⟨hall, hrest⟩ := hloop
    refine ⟨hall.imp ?_, hrest⟩
    intro u w hw hP
    obtain ⟨cred, hcred⟩ := hvalid.credentials w hw
    exact (inRange_iff hcred).mpr hP
  · intro u w hw hP
    obtain ⟨cred, hcred⟩ := hvalid.credentials w hw
    obtain ⟨cred', amount, balance, hcovers⟩ := (inRange_iff hcred).mpr hP
    obtain ⟨u', hu', _, hanswer⟩ := applyWithdrawal_of_covers hcovers
    refine ⟨u', hu', fun k => ?_⟩
    have hk := congrArg AccountAnswer.balance (hanswer k)
    rw [withdrawalCredential_eq hcovers.credential_eq]
    change u'.rewardAccountBalance k = _ at hk
    rw [hk]
    split
    · rename_i heq
      rw [heq, hcovers.balance_eq]
      simp [lowerAnswer, Except.map, lower, hcovers.amount_eq, hcovers.le]
    · rfl
  · intro w hw
    obtain ⟨cred, hcred⟩ := hvalid.credentials w hw
    exact (inRange_iff hcred).mp (hcov w hw)

variable {body body' : DijkstraSubTransactionBody}

theorem dijkstraApplyAccountWithdrawals_pointwise
    (hvalid : WithdrawalsValid body.withdrawalMap.values)
    (hs : dijkstraApplyAccountWithdrawals body s = .ok s') :
    Pointwise withdrawalCredential lowerAnswer body.withdrawalMap.values s.rewardAccountBalance
      s'.rewardAccountBalance := by
  obtain ⟨_, hpoint⟩ := pointwise_of_foldlM_eq_ok accountAt
    (fun w => Except.map (lowerAccount w)) (fun _ _ => True)
    (fun u u' w hw hu => ⟨trivial, accountAt_withdrawal hw hu⟩) hvalid.distinct hs
  have hmap := hpoint.map (Except.map balanceOf) lowerAnswer ?_
  · rw [show s.rewardAccountBalance = _ from funext (rewardAccountBalance_eq s),
      show s'.rewardAccountBalance = _ from funext (rewardAccountBalance_eq s')]
    exact hmap
  · intro w v
    cases v with
    | error e => rfl
    | ok account =>
      cases hreg : account.registered <;>
        simp [Except.map, balanceOf, lowerAccount, lowerAnswer, hreg]

theorem dijkstraApplyAccountWithdrawals_inRange
    (hvalid : WithdrawalsValid body.withdrawalMap.values)
    (hcov : ∀ w ∈ body.withdrawalMap.values, WithdrawalInRange s.rewardAccountBalance w) :
    AllSteps dijkstraApplyAccountWithdrawal
      (fun s w => WithdrawalInRange s.rewardAccountBalance w) s body.withdrawalMap.values := by
  have hall := allSteps_of_distinct (f := dijkstraApplyAccountWithdrawal)
    rewardAccountBalance (Q := AnswerCovers) (s := s) ?_ hvalid.distinct ?_
  · refine hall.imp fun u w hw hP => ?_
    obtain ⟨cred, hcred⟩ := hvalid.credentials w hw
    exact (inRange_iff hcred).mpr hP
  · intro u u' w hw hu k hk
    rw [rewardAccountBalance_eq, rewardAccountBalance_eq, accountAt_withdrawal hw hu, if_neg hk]
  · intro w hw
    obtain ⟨cred, hcred⟩ := hvalid.credentials w hw
    exact (inRange_iff hcred).mp (hcov w hw)

/-! ## Certificates -/

/-- A provider query that `applyCertificate` makes for the certificate fails. -/
def QueryFails (ls : LedgerState) (cert : Certificate) (e : LedgerError) : Prop :=
  (∃ c, cert = .poolRegistration c ∧ ls.poolCurrentState c.operator = .error e) ∨
    ∃ cred anchor, cert = .updateDrep cred anchor ∧ ls.dRepRegistration cred = .error e

theorem poolCurrentState_eq_error {p : PoolKeyHash} {e : LedgerError}
    (h : b.poolCurrentState p = .error e) : b.base.poolCurrentState p = .error e := by
  rw [poolCurrentState_eq] at h
  split at h
  · cases h
  · cases hbase : b.base.poolCurrentState p with
    | error e' =>
      rw [hbase] at h
      cases h
      rfl
    | ok state =>
      rw [hbase] at h
      cases h

theorem dRepRegistration_eq_error {cred : Credential} {e : LedgerError}
    (h : b.dRepRegistration cred = .error e) : b.base.dRepRegistration cred = .error e := by
  unfold dRepRegistration at h
  split at h
  · cases h
  · exact h

variable {pp : ConwayProtocolParameters}

theorem queryFails_of_applyCertificate {cert : Certificate} {e : LedgerError}
    (h : applyCertificate pp.toProtocolParameters b cert = .error e) :
    QueryFails b.base cert e := by
  cases cert with
  | poolRegistration c =>
    refine .inl ⟨c, rfl, ?_⟩
    change applyPoolRegistration { b with seq := b.seq + 1 } c = .error e at h
    unfold applyPoolRegistration at h
    cases hcur : poolCurrentState { b with seq := b.seq + 1 } c.operator with
    | error e' =>
      rw [hcur] at h
      cases h
      exact poolCurrentState_eq_error hcur
    | ok state =>
      rw [hcur] at h
      obtain ⟨current, ret⟩ := state
      cases current with
      | none => cases h
      | some current => cases h
  | updateDrep cred anchor =>
    refine .inr ⟨cred, anchor, rfl, ?_⟩
    change ((dRepRegistration { b with seq := b.seq + 1 } cred) >>= _) = .error e at h
    cases hreg : dRepRegistration { b with seq := b.seq + 1 } cred with
    | error e' =>
      rw [hreg] at h
      cases h
      exact dRepRegistration_eq_error hreg
    | ok reg =>
      rw [hreg] at h
      cases reg with
      | none => cases h
      | some reg => cases h
  | stakeRegistration cred =>
    change (blockKeyDeposit pp.toProtocolParameters >>= _) = .error e at h
    rw [Conway.blockKeyDeposit_conway] at h
    cases h
  | _ => cases h

theorem stakeEffect_eq_accountChange (cert : Certificate) (keyDeposit : UInt64) :
    (cert.stakeEffect keyDeposit).map (fun x => (x.1, x.2.isSome)) = accountChange cert := by
  cases cert <;> rfl

theorem AccountsAgree.certificate {cert : Certificate} (h : AccountsAgree s b)
    (hb : applyCertificate pp.toProtocolParameters b cert = .ok b') :
    AccountsAgree (dijkstraApplyAccountCertificate s cert) b' := by
  intro c
  have hview := congrArg AccountAnswer.balance (accountAnswer_applyCertificate
    (Conway.blockKeyDeposit_conway pp) hb c)
  rw [rewardAccountBalance_eq, accountAt_applyAccountCertificate,
    ← stakeEffect_eq_accountChange cert pp.keyDeposit]
  refine Eq.trans hview ?_
  cases cert.stakeEffect pp.keyDeposit with
  | none => exact (h c).trans (rewardAccountBalance_eq s c)
  | some effect =>
    obtain ⟨cred, deposit⟩ := effect
    dsimp only [Option.map_some, AccountAnswer.after]
    by_cases hc : c = cred
    · rw [if_pos hc, if_pos hc]
      cases deposit <;> rfl
    · rw [if_neg hc, if_neg hc]
      exact (h c).trans (rewardAccountBalance_eq s c)

theorem AccountsAgree.certificates (h : AccountsAgree s b) (hbase : b.base = ls)
    (pp : ConwayProtocolParameters) (certs : List Certificate) :
    (∃ b', b.applyCertificates pp.toProtocolParameters certs = .ok b' ∧ b'.base = ls ∧
        AccountsAgree (certs.foldl dijkstraApplyAccountCertificate s) b') ∨
      ∃ e, b.applyCertificates pp.toProtocolParameters certs = .error e ∧
        ∃ cert ∈ certs, QueryFails ls cert e := by
  induction certs generalizing s b with
  | nil => exact .inl ⟨b, rfl, hbase, h⟩
  | cons cert certs ih =>
    cases hstep : applyCertificate pp.toProtocolParameters b cert with
    | error e =>
      refine .inr ⟨e, ?_, cert, by simp, hbase ▸ queryFails_of_applyCertificate hstep⟩
      simp [applyCertificates, List.foldlM_cons, hstep, bind, Except.bind]
    | ok b₁ =>
      have hrun : b.applyCertificates pp.toProtocolParameters (cert :: certs) =
          b₁.applyCertificates pp.toProtocolParameters certs := by
        simp [applyCertificates, List.foldlM_cons, hstep, bind, Except.bind]
      have hbase₁ : b₁.base = ls := (base_applyCertificate hstep).trans hbase
      rw [hrun]
      rcases ih (h.certificate hstep) hbase₁ with hok | ⟨e, he, x, hx, hfails⟩
      · exact .inl hok
      · exact .inr ⟨e, he, x, List.mem_cons_of_mem cert hx, hfails⟩

/-! ## Direct deposits -/

def sortedDeposits (deposits : DijkstraDirectDeposits) : List (ByteString × UInt64) :=
  (sortedDijkstraAccountAddresses deposits).map fun key => (key, (deposits.lookup key).getD 0)

def ledgerDeposit (d : ByteString × UInt64) : DirectDeposit := ⟨keyCredential d.1, d.2⟩

variable {deposits : DijkstraDirectDeposits}

theorem mem_sortedDeposits {d : ByteString × UInt64} :
    d ∈ sortedDeposits deposits ↔ deposits.lookup d.1 = some d.2 := by
  unfold sortedDeposits
  rw [List.mem_map]
  constructor
  · rintro ⟨key, hkey, rfl⟩
    rw [mem_sortedDijkstraAccountAddresses, ← AList.mem_keys, ← AList.lookup_isSome] at hkey
    obtain ⟨amount, hamount⟩ := Option.isSome_iff_exists.mp hkey
    simp [hamount]
  · intro h
    refine ⟨d.1, ?_, by simp [h]⟩
    rw [mem_sortedDijkstraAccountAddresses, ← AList.mem_keys, ← AList.lookup_isSome, h]
    rfl

theorem nodup_sortedDeposits (h : ∀ key ∈ deposits.keys, OnNetwork networkId key) :
    ((sortedDeposits deposits).map fun d => keyCredential d.1).Nodup := by
  have hcomp : ((sortedDeposits deposits).map fun d => keyCredential d.1) =
      (sortedDijkstraAccountAddresses deposits).map keyCredential := by
    rw [sortedDeposits, List.map_map]
    rfl
  have hkeys : (sortedDijkstraAccountAddresses deposits).Nodup :=
    (List.perm_insertionSort _ _).nodup_iff.mpr deposits.keys_nodup
  rw [hcomp]
  refine List.Nodup.map_on ?_ hkeys
  intro x hx y hy heq
  exact keyCredential_inj (h x (mem_sortedDijkstraAccountAddresses.mp hx))
    (h y (mem_sortedDijkstraAccountAddresses.mp hy)) heq

theorem dijkstraLedgerDirectDeposits_eq (h : ∀ key ∈ deposits.keys, OnNetwork networkId key) :
    DijkstraTransaction.dijkstraLedgerDirectDeposits deposits =
      .ok ((sortedDeposits deposits).map ledgerDeposit) := by
  unfold DijkstraTransaction.dijkstraLedgerDirectDeposits
  split
  · rename_i hempty
    have hnone : sortedDijkstraAccountAddresses deposits = [] := by
      rw [sortedDijkstraAccountAddresses, List.length_eq_zero_iff.mp hempty]
      rfl
    rw [sortedDeposits, hnone]
    rfl
  · rw [sortedDeposits, List.map_map]
    refine mapM_eq_ok_map fun key hkey => ?_
    obtain ⟨address, haddress, _, hcred⟩ := h key (mem_sortedDijkstraAccountAddresses.mp hkey)
    simp only [DijkstraTransaction.ledgerDirectDeposit, haddress, hcred, bind, Except.bind]
    rfl

theorem applyDirectDeposits_pointwise {ds : List (ByteString × UInt64)}
    (hdistinct : (ds.map fun d => keyCredential d.1).Nodup)
    (hroom : ∀ d ∈ ds, DepositInRange b.rewardAccountBalance (keyCredential d.1) d.2) :
    AllSteps applyDirectDeposit
        (fun b d => DepositInRange b.rewardAccountBalance d.credential d.amount) b
        (ds.map ledgerDeposit) ∧
      ∃ b', b.applyDirectDeposits (ds.map ledgerDeposit) = .ok b' ∧
        Pointwise (fun d : ByteString × UInt64 => keyCredential d.1)
          (fun d => Except.map (Option.map (· + d.2))) ds b.rewardAccountBalance
          b'.rewardAccountBalance := by
  have hloop := foldlM_pointwise
    (f := fun b d => applyDirectDeposit b (ledgerDeposit d))
    rewardAccountBalance
    (fun d : ByteString × UInt64 => Except.map (Option.map (· + d.2)))
    (fun d v => ∃ balance, v = .ok (some balance) ∧ balance.toNat + d.2.toNat < 2 ^ 64)
    ?_ hdistinct hroom
  · obtain ⟨hall, b', hb', hpoint⟩ := hloop
    refine ⟨allSteps_map hall, b', ?_, hpoint⟩
    unfold applyDirectDeposits
    rw [List.foldlM_map]
    exact hb'
  · rintro u d _ ⟨balance, hbal, _⟩
    refine ⟨_, bind_eq_ok.mpr ⟨some balance, hbal, rfl⟩, fun k => ?_⟩
    have hk := congrArg AccountAnswer.balance
      (accountAnswer_setBalance hbal (balance + d.2) k)
    refine Eq.trans hk ?_
    split
    · rename_i heq
      rw [heq, hbal]
      rfl
    · rfl

/-! ## Levels -/

/-- The bodies have the same entries; the maps may be visited in another
order. -/
structure SameUpToOrder (body body' : DijkstraSubTransactionBody) : Prop where
  certificates : body'.txCertificates = body.txCertificates
  withdrawals : body'.withdrawalMap.values.Perm body.withdrawalMap.values
  deposits : body'.txDirectDeposits.entries.Perm body.txDirectDeposits.entries

theorem SameUpToOrder.refl (body : DijkstraSubTransactionBody) : SameUpToOrder body body :=
  ⟨rfl, .refl _, .refl _⟩

/-- No step of the overlay's level wraps around. -/
structure OverlayLevelInRange (networkId : Nat) (s : DijkstraAccountStateOverlay)
    (body : DijkstraSubTransactionBody) : Prop where
  withdrawals : AllSteps dijkstraApplyAccountWithdrawal
    (fun s w => WithdrawalInRange s.rewardAccountBalance w) s body.withdrawalMap.values
  deposits : ∀ s₁ credentials s₂, dijkstraApplyAccountWithdrawals body s = .ok s₁ →
    (sortedDijkstraAccountAddresses body.txDirectDeposits).foldlM resolveDeposit
      ((∅, []), dijkstraApplyAccountCertificates body s₁) = .ok ((credentials, []), s₂) →
    AllSteps (creditDeposit credentials)
      (fun s d => DepositInRange s.rewardAccountBalance (keyCredential d.1) d.2) s₂
      body.txDirectDeposits.toPairs

/-- No step of the view's level wraps around. -/
structure ViewLevelInRange (pp : ProtocolParameters) (b : BlockLedgerState)
    (level : LedgerEffectLevel) : Prop where
  withdrawals : AllSteps applyWithdrawal
    (fun b w => WithdrawalInRange b.rewardAccountBalance w) b level.withdrawals.values
  deposits : ∀ b₁ b₂, b.applyWithdrawals level.withdrawals = .ok b₁ →
    b₁.applyCertificates pp level.certificates = .ok b₂ →
    AllSteps applyDirectDeposit
      (fun b d => DepositInRange b.rewardAccountBalance d.credential d.amount) b₂
      level.directDeposits

section

variable (hvalid : WithdrawalsValid body.withdrawalMap.values)
  (hcov : ∀ w ∈ body.withdrawalMap.values, WithdrawalInRange s.rewardAccountBalance w)
include hvalid hcov

theorem overlayLevelInRange (hs : dijkstraApplyAccountLevel networkId s body = .ok s') :
    OverlayLevelInRange networkId s body := by
  refine ⟨dijkstraApplyAccountWithdrawals_inRange hvalid hcov, ?_⟩
  intro s₁ credentials s₂ hs₁ hresolve
  obtain ⟨_, s₁', hs₁', hdeposits⟩ := dijkstraApplyAccountLevel_eq_ok.mp hs
  rw [hs₁] at hs₁'
  cases hs₁'
  obtain ⟨hnetwork, hroom, _⟩ := dijkstraApplyDirectDeposits_spec hdeposits
  obtain ⟨_, hsame, _, hlookup⟩ := resolveDeposits_spec hresolve rfl
  refine allSteps_of_distinct DijkstraAccountStateOverlay.rewardAccountBalance
    (Q := fun d v => ∃ balance, v = .ok (some balance) ∧ balance.toNat + d.2.toNat < 2 ^ 64)
    ?_ (nodup_keyCredential hnetwork) ?_
  · intro u u' d hd hu k hk
    have hkey : credentials.lookup d.1 = some (keyCredential d.1) := by
      rw [hlookup, if_pos (mem_sortedDijkstraAccountAddresses.mpr (mem_keys_of_mem_toPairs hd))]
    rw [rewardAccountBalance_eq, rewardAccountBalance_eq, accountAt_creditDeposit hkey hu,
      if_neg hk]
  · intro d hd
    have hbal := SameAccounts.balance hsame (keyCredential d.1)
    rw [hbal]
    exact hroom d hd

theorem AccountsAgree.withdrawals {s₁ : DijkstraAccountStateOverlay} (h : AccountsAgree s b)
    (horder : SameUpToOrder body body') (hs : dijkstraApplyAccountWithdrawals body s = .ok s₁) :
    AllSteps applyWithdrawal
        (fun b w => WithdrawalInRange b.rewardAccountBalance w) b body'.withdrawalMap.values ∧
      ∃ b₁, b.applyWithdrawals body'.withdrawalMap = .ok b₁ ∧ AccountsAgree s₁ b₁ := by
  have hsame : b.rewardAccountBalance = s.rewardAccountBalance := funext h
  have hcov' : ∀ w ∈ body'.withdrawalMap.values, WithdrawalInRange b.rewardAccountBalance w := by
    intro w hw
    rw [hsame]
    exact hcov w (horder.withdrawals.mem_iff.mp hw)
  obtain ⟨hall, b₁, hb₁, hpoint⟩ :=
    applyWithdrawals_pointwise (hvalid.perm horder.withdrawals) hcov'
  refine ⟨hall, b₁, hb₁, ?_⟩
  rw [hsame] at hpoint
  have hoverlay := dijkstraApplyAccountWithdrawals_pointwise hvalid hs
  exact congrFun (hpoint.eq_of_mem_iff hoverlay fun w => horder.withdrawals.mem_iff)

end

theorem SameUpToOrder.lookup_deposits (h : SameUpToOrder body body') (key : ByteString) :
    body'.txDirectDeposits.lookup key = body.txDirectDeposits.lookup key :=
  AList.perm_lookup h.deposits

theorem SameUpToOrder.onNetwork (h : SameUpToOrder body body')
    (hnetwork : ∀ key ∈ body.txDirectDeposits.keys, OnNetwork networkId key) :
    ∀ key ∈ body'.txDirectDeposits.keys, OnNetwork networkId key := by
  intro key hkey
  apply hnetwork
  rw [← AList.mem_keys, ← AList.lookup_isSome] at hkey ⊢
  rwa [← h.lookup_deposits]

theorem AccountsAgree.directDeposits (h : AccountsAgree s b) (horder : SameUpToOrder body body')
    (hs : dijkstraApplyDirectDeposits body.txDirectDeposits networkId s = .ok s') :
    AllSteps applyDirectDeposit
        (fun b d => DepositInRange b.rewardAccountBalance d.credential d.amount) b
        ((sortedDeposits body'.txDirectDeposits).map ledgerDeposit) ∧
      ∃ b', b.applyDirectDeposits ((sortedDeposits body'.txDirectDeposits).map ledgerDeposit) =
        .ok b' ∧ AccountsAgree s' b' := by
  have hsame : b.rewardAccountBalance = s.rewardAccountBalance := funext h
  obtain ⟨hnetwork, hroom, hoverlay⟩ := dijkstraApplyDirectDeposits_spec hs
  have hmem : ∀ d, d ∈ sortedDeposits body'.txDirectDeposits ↔
      d ∈ body.txDirectDeposits.toPairs := by
    intro d
    rw [mem_sortedDeposits, horder.lookup_deposits]
    exact ⟨GoMap.mem_toPairs_of_lookup, GoMap.lookup_of_mem_toPairs⟩
  have hroom' : ∀ d ∈ sortedDeposits body'.txDirectDeposits,
      DepositInRange b.rewardAccountBalance (keyCredential d.1) d.2 := by
    intro d hd
    rw [hsame]
    exact hroom d ((hmem d).mp hd)
  obtain ⟨hall, b', hb', hpoint⟩ :=
    applyDirectDeposits_pointwise (nodup_sortedDeposits (horder.onNetwork hnetwork)) hroom'
  refine ⟨hall, b', hb', ?_⟩
  rw [hsame] at hpoint
  exact congrFun (hpoint.eq_of_mem_iff hoverlay hmem)

def effectLevel (body : DijkstraSubTransactionBody) : LedgerEffectLevel :=
  ⟨body.id, body.withdrawalMap, body.txCertificates, body.txProposalProcedures,
    (sortedDeposits body.txDirectDeposits).map ledgerDeposit⟩

theorem ledgerEffectLevel_eq (h : ∀ key ∈ body.txDirectDeposits.keys, OnNetwork networkId key) :
    DijkstraTransaction.ledgerEffectLevel body = .ok (effectLevel body) := by
  unfold DijkstraTransaction.ledgerEffectLevel
  rw [dijkstraLedgerDirectDeposits_eq h]
  rfl

theorem AccountsAgree.level (h : AccountsAgree s b) (hbase : b.base = ls)
    (hvalid : WithdrawalsValid body.withdrawalMap.values)
    (hcov : ∀ w ∈ body.withdrawalMap.values, WithdrawalInRange s.rewardAccountBalance w)
    (horder : SameUpToOrder body body') (hs : dijkstraApplyAccountLevel networkId s body = .ok s') :
    ViewLevelInRange pp.toProtocolParameters b (effectLevel body') ∧
      ((∃ b', applyLevel pp.toProtocolParameters b (effectLevel body') = .ok b' ∧
          b'.base = ls ∧ AccountsAgree s' b') ∨
        ∃ e, applyLevel pp.toProtocolParameters b (effectLevel body') = .error e ∧
          ∃ cert ∈ body.txCertificates, QueryFails ls cert e) := by
  obtain ⟨_, s₁, hs₁, hs'⟩ := dijkstraApplyAccountLevel_eq_ok.mp hs
  obtain ⟨hwithdrawals, b₁, hb₁, h₁⟩ := h.withdrawals hvalid hcov horder hs₁
  have hbase₁ : b₁.base = ls := (sameBesidesAccounts_applyWithdrawals hb₁).base.trans hbase
  have hcerts := h₁.certificates hbase₁ pp body.txCertificates
  rw [← horder.certificates] at hcerts
  have hlevel : applyLevel pp.toProtocolParameters b (effectLevel body') = (do
      let b₂ ← b₁.applyCertificates pp.toProtocolParameters body'.txCertificates
      let b₃ ← b₂.applyDirectDeposits
        ((sortedDeposits body'.txDirectDeposits).map ledgerDeposit)
      .ok (b₃.recordProposals body'.id body'.txProposalProcedures)) := by
    change (b.applyWithdrawals body'.withdrawalMap >>= _) = _
    rw [hb₁]
    rfl
  rw [hlevel]
  rcases hcerts with ⟨b₂, hb₂, hbase₂, h₂⟩ | ⟨e, he, hfails⟩
  · rw [horder.certificates] at h₂
    obtain ⟨hdeposits, b₃, hb₃, h₃⟩ := AccountsAgree.directDeposits h₂ horder hs'
    have hparts := sameParts_recordProposals b₃ body'.id
      body'.txProposalProcedures
    refine ⟨⟨hwithdrawals, ?_⟩, .inl ⟨b₃.recordProposals body'.id body'.txProposalProcedures, ?_,
      ?_, h₃.congr hparts.account⟩⟩
    · intro c₁ c₂ hc₁ hc₂
      cases hb₁.symm.trans hc₁
      cases hb₂.symm.trans hc₂
      exact hdeposits
    · exact bind_eq_ok.mpr ⟨b₂, hb₂, bind_eq_ok.mpr ⟨b₃, hb₃, rfl⟩⟩
    · exact (congrArg Prod.fst hparts.utxo).trans
        ((sameBesidesAccounts_applyDirectDeposits hb₃).base.trans hbase₂)
  · refine ⟨⟨hwithdrawals, ?_⟩, .inr ⟨e, ?_, horder.certificates ▸ hfails⟩⟩
    · intro c₁ c₂ hc₁ hc₂
      cases hb₁.symm.trans hc₁
      cases he.symm.trans hc₂
    · rw [he]
      rfl

/-! ## Transactions -/

/-- The withdrawals of a level are covered when their turn comes. -/
def LevelCovered (s : DijkstraAccountStateOverlay) (body : DijkstraSubTransactionBody) : Prop :=
  ∀ w ∈ body.withdrawalMap.values, WithdrawalInRange s.rewardAccountBalance w

variable {bodies bodies' : List DijkstraSubTransactionBody}

theorem onNetwork_of_threadAccounts (h : threadAccounts networkId s bodies = .ok s') :
    ∀ body ∈ bodies, ∀ key ∈ body.txDirectDeposits.keys, OnNetwork networkId key := by
  induction bodies generalizing s with
  | nil => simp
  | cons body bodies ih =>
    obtain ⟨t, ht, hrest⟩ := foldlM_cons_eq_ok.mp h
    obtain ⟨_, _, _, hdeposits⟩ := dijkstraApplyAccountLevel_eq_ok.mp ht
    exact List.forall_mem_cons.mpr
      ⟨(dijkstraApplyDirectDeposits_spec hdeposits).1, ih hrest⟩

theorem onNetwork_of_order (horder : List.Forall₂ SameUpToOrder bodies bodies')
    (h : ∀ body ∈ bodies, ∀ key ∈ body.txDirectDeposits.keys, OnNetwork networkId key) :
    ∀ body ∈ bodies', ∀ key ∈ body.txDirectDeposits.keys, OnNetwork networkId key := by
  induction horder with
  | nil => simp
  | cons hbody _ ih =>
    obtain ⟨hfirst, hrest⟩ := List.forall_mem_cons.mp h
    exact List.forall_mem_cons.mpr ⟨hbody.onNetwork hfirst, ih hrest⟩

section

variable (hvalid : ∀ body ∈ bodies, WithdrawalsValid body.withdrawalMap.values)
  (hcov : AllSteps (dijkstraApplyAccountLevel networkId) LevelCovered s bodies)
  (hs : threadAccounts networkId s bodies = .ok s')
include hvalid hcov hs

theorem threadAccounts_inRange :
    AllSteps (dijkstraApplyAccountLevel networkId) (OverlayLevelInRange networkId) s bodies := by
  induction bodies generalizing s with
  | nil => trivial
  | cons body bodies ih =>
    obtain ⟨t, ht, hrest⟩ := foldlM_cons_eq_ok.mp hs
    obtain ⟨hvalid₁, hvalid⟩ := List.forall_mem_cons.mp hvalid
    obtain ⟨hcov₁, hcov⟩ := hcov
    refine ⟨overlayLevelInRange hvalid₁ hcov₁ ht, fun t' ht' => ?_⟩
    rw [ht] at ht'
    cases ht'
    exact ih hvalid (hcov t ht) hrest

theorem AccountsAgree.run (h : AccountsAgree s b) (hbase : b.base = ls)
    (pp : ConwayProtocolParameters) (horder : List.Forall₂ SameUpToOrder bodies bodies') :
    AllSteps (applyLevel pp.toProtocolParameters)
        (ViewLevelInRange pp.toProtocolParameters) b (bodies'.map effectLevel) ∧
      ((∃ b', (bodies'.map effectLevel).foldlM
          (applyLevel pp.toProtocolParameters) b = .ok b' ∧ AccountsAgree s' b') ∨
        ∃ e, (bodies'.map effectLevel).foldlM
            (applyLevel pp.toProtocolParameters) b = .error e ∧
          ∃ body ∈ bodies, ∃ cert ∈ body.txCertificates, QueryFails ls cert e) := by
  induction horder generalizing s b with
  | nil =>
    cases hs
    exact ⟨trivial, .inl ⟨b, rfl, h⟩⟩
  | @cons body body' bodies bodies' hbody _ ih =>
    obtain ⟨t, ht, hrest⟩ := foldlM_cons_eq_ok.mp hs
    obtain ⟨hvalid₁, hvalid⟩ := List.forall_mem_cons.mp hvalid
    obtain ⟨hcov₁, hcov⟩ := hcov
    obtain ⟨hview, hstep⟩ := h.level hbase hvalid₁ hcov₁ hbody ht
    rcases hstep with ⟨b₁, hb₁, hbase₁, h₁⟩ | ⟨e, he, cert, hcert, hfails⟩
    · obtain ⟨hall, hend⟩ := ih hvalid (hcov t ht) hrest h₁ hbase₁
      refine ⟨⟨hview, fun b' hb' => ?_⟩, ?_⟩
      · rw [hb₁] at hb'
        cases hb'
        exact hall
      · rw [List.map_cons, List.foldlM_cons, hb₁]
        rcases hend with hok | ⟨e, he, x, hx, hfails⟩
        · exact .inl hok
        · exact .inr ⟨e, he, x, List.mem_cons_of_mem body hx, hfails⟩
    · refine ⟨⟨hview, fun b' hb' => ?_⟩, .inr ⟨e, ?_, body, by simp, cert, hcert, hfails⟩⟩
      · rw [he] at hb'
        cases hb'
      · rw [List.map_cons, List.foldlM_cons, he]
        rfl

end

section Rules

variable {W : Type} {tx tx' : DijkstraTransaction W} {ls : LedgerState}
  {newTxScriptView : W → Transaction → LedgerState → TxScriptView × Option LedgerError}
  {dijkstraWitnessRuleLevels : DijkstraTransaction W → LedgerState →
    Except LedgerError (List TxScriptView)}

theorem withdrawalsValid_of_rule (hvalid : tx.txIsValid)
    (h : utxoValidateWrongNetworkWithdrawal tx ls = .ok ()) :
    ∀ body ∈ tx.bodies, WithdrawalsValid body.withdrawalMap.values := by
  unfold utxoValidateWrongNetworkWithdrawal at h
  rw [hvalid] at h
  intro body hbody
  rw [← DijkstraTransaction.map_body_levels] at hbody
  obtain ⟨level, hlevel, rfl⟩ := List.mem_map.mp hbody
  exact withdrawalsValid_of_network (forM_eq_ok.mp h level hlevel)

theorem levelsCovered_of_run {pp : ProtocolParameters} {levels : List (DijkstraLevel W)}
    (hvalid : ∀ level ∈ levels, level.isValid)
    (h : levels.foldlM (validateLevelWithdrawals newTxScriptView pp networkId) s = .ok s') :
    AllSteps (dijkstraApplyAccountLevel networkId) LevelCovered s (levels.map (·.body)) := by
  induction levels generalizing s with
  | nil => trivial
  | cons level levels ih =>
    obtain ⟨t, ht, hrest⟩ := foldlM_cons_eq_ok.mp h
    obtain ⟨hlevel, hlevels⟩ := List.forall_mem_cons.mp hvalid
    obtain ⟨hrule, happly⟩ := seq_eq_ok.mp ht
    refine ⟨Conway.inRange_of_utxoValidateWithdrawals hlevel hrule, fun t' ht' => ?_⟩
    rw [happly] at ht'
    cases ht'
    exact ih hlevels hrest

theorem map_body_levelsWithMode (tx : DijkstraTransaction W) (legacyWithdrawalMode : Bool) :
    (levelsWithMode tx legacyWithdrawalMode).map (·.body) = tx.bodies := by
  simp [levelsWithMode, DijkstraTransaction.bodies, DijkstraTransaction.subLevel,
    DijkstraTransaction.topLevel]

theorem levelsCovered_of_rule {pp : ProtocolParameters} (hvalid : tx.txIsValid)
    (h : utxoValidateWithdrawals newTxScriptView dijkstraWitnessRuleLevels tx ls pp = .ok ()) :
    AllSteps (dijkstraApplyAccountLevel ls.networkId) LevelCovered
      (newDijkstraAccountStateOverlay ls) tx.bodies := by
  unfold utxoValidateWithdrawals at h
  rw [hvalid] at h
  simp only [Bool.not_true, Bool.false_eq_true, if_false] at h
  split at h
  · -- no level withdraws anything
    rename_i hnone
    refine allSteps_of_forall fun t body hbody w hw => ?_
    rw [← DijkstraTransaction.map_body_levels] at hbody
    obtain ⟨level, hlevel, rfl⟩ := List.mem_map.mp hbody
    simp only [Bool.not_eq_true', List.any_eq_false, decide_eq_true_eq, not_lt,
      Nat.le_zero, List.length_eq_zero_iff] at hnone
    have hempty : level.body.withdrawalMap.values = [] := by
      have hkeys : level.body.withdrawalMap.keys = [] := hnone level hlevel
      simpa [GoMap.values, AList.keys, List.keys] using hkeys
    rw [hempty] at hw
    cases hw
  · obtain ⟨mode, _, h⟩ := bind_eq_ok.mp h
    obtain ⟨s, hrun, _⟩ := bind_eq_ok.mp h
    rw [← map_body_levelsWithMode tx mode]
    refine levelsCovered_of_run ?_ hrun
    intro level hlevel
    rcases List.mem_append.mp hlevel with hsub | htop
    · obtain ⟨sub, _, rfl⟩ := List.mem_map.mp hsub
      exact hvalid
    · rw [List.mem_singleton.mp htop]
      exact hvalid

end Rules

/-- The overlay the rules validate against and the view the block fold leaves
behind answer alike for every credential, and neither leaves the range of a
balance on the way. The fold stops early only when a provider query fails. -/
theorem account_state_agrees {W : Type}
    (newTxScriptView : W → Transaction → LedgerState → TxScriptView × Option LedgerError)
    (dijkstraWitnessRuleLevels : DijkstraTransaction W → LedgerState →
      Except LedgerError (List TxScriptView))
    (tx tx' : DijkstraTransaction W) (ls : LedgerState) (pp : ConwayProtocolParameters)
    (hvalid : tx.txIsValid = true)
    (hnetwork : utxoValidateWrongNetworkWithdrawal tx ls = .ok ())
    (hwithdrawals : utxoValidateWithdrawals newTxScriptView dijkstraWitnessRuleLevels tx ls
      pp.toProtocolParameters = .ok ())
    (hintervals : utxoValidateAccountBalanceIntervals tx ls = .ok ())
    (hvalid' : tx'.txIsValid = true)
    (horder : List.Forall₂ SameUpToOrder tx.bodies tx'.bodies) :
    ∃ s, threadAccounts ls.networkId (newDijkstraAccountStateOverlay ls) tx.bodies = .ok s ∧
      AllSteps (dijkstraApplyAccountLevel ls.networkId) (OverlayLevelInRange ls.networkId)
        (newDijkstraAccountStateOverlay ls) tx.bodies ∧
      ∃ levels, tx'.ledgerEffectLevels = .ok levels ∧
        AllSteps (BlockLedgerState.applyLevel pp.toProtocolParameters)
          (ViewLevelInRange pp.toProtocolParameters)
          ((newBlockLedgerState ls).applyUtxo tx'.toTransaction) levels ∧
        match (newBlockLedgerState ls).applyTransaction tx'.toTransaction
          pp.toProtocolParameters with
        | .ok b => ∀ c, b.rewardAccountBalance c = s.rewardAccountBalance c
        | .error e => ∃ body ∈ tx.bodies, ∃ cert ∈ body.txCertificates, QueryFails ls cert e := by
  obtain ⟨s, hs⟩ := threadAccounts_of_intervals hintervals
  have hws := withdrawalsValid_of_rule hvalid hnetwork
  have hcov := levelsCovered_of_rule hvalid hwithdrawals
  have hkeys := onNetwork_of_threadAccounts hs
  have hlevels : tx'.ledgerEffectLevels = .ok (tx'.bodies.map effectLevel) := by
    refine mapM_eq_ok_map fun body' hbody' => ?_
    exact ledgerEffectLevel_eq (onNetwork_of_order horder hkeys body' hbody')
  have hutxo := sameBesidesUtxo_applyUtxo (newBlockLedgerState ls)
    tx'.toTransaction
  obtain ⟨hrange, hend⟩ := ((accountsAgree_new ls).congr hutxo.account).run
    hws hcov hs (congrArg Prod.fst hutxo.account) pp horder
  refine ⟨s, hs, threadAccounts_inRange hws hcov hs, _, hlevels, hrange, ?_⟩
  have happly : (newBlockLedgerState ls).applyTransaction tx'.toTransaction
      pp.toProtocolParameters = (tx'.bodies.map effectLevel).foldlM
        (applyLevel pp.toProtocolParameters)
        ((newBlockLedgerState ls).applyUtxo tx'.toTransaction) := by
    have hflag : tx'.toTransaction.isValid := hvalid'
    have hlevelsOf : levelsOf tx'.toTransaction = .ok (tx'.bodies.map effectLevel) := hlevels
    unfold applyTransaction
    rw [hflag, hlevelsOf]
    rfl
  rw [happly]
  rcases hend with ⟨b, hb, hagree⟩ | ⟨e, he, hfails⟩
  · rw [hb]
    exact hagree
  · rw [he]
    exact hfails

/-! ### A batch over two accounts -/

def keyAccount (hash : Blake2b224) : Address where
  addressType := Address.typeNoneKey
  networkId := Address.networkTestnet
  paymentPayload := none
  stakingPayload := some (.keyHash hash)
  trailingBytes := []
  byronNetwork := none

def twoAccounts : LedgerState :=
  { LedgerState.empty with
    rewardAccountBalance := fun c =>
      if c = ⟨0, 0⟩ then .ok (some 10) else if c = ⟨0, 1⟩ then .ok (some 5) else .ok none }

def accountKey (last : UInt8) : ByteString := 0xe0 :: (List.replicate 27 0 ++ [last])

def batchAccountParameters : ConwayProtocolParameters where
  protocolVersionMajor := 12
  keyDeposit := 2
  poolDeposit := 5
  dRepDeposit := 3
  govActionDeposit := 4
  minPoolCost := 0
  maxEpoch := 18

/-- A sub-transaction withdraws from the first account and deposits into both; the top level drains
the first account and closes the second. -/
def depositingBatch (deposits : DijkstraDirectDeposits) : DijkstraTransaction Unit where
  body :=
    { DijkstraSubTransactionBody.empty with
      txWithdrawals := some (AList.singleton 0 (keyAccount 0, 9))
      txCertificates := [.stakeDeregistration ⟨0, 1⟩]
      txAccountBalanceIntervals := AList.singleton (accountKey 1) (some ⟨some 7, none, none⟩)
      txFee := 0
      txCollateral := []
      txCollateralReturn := none
      txSubTransactions :=
        [{ body :=
            { DijkstraSubTransactionBody.empty with
              txWithdrawals := some (AList.singleton 0 (keyAccount 0, 4))
              txDirectDeposits := deposits }
           witnessSet := () }]
      txStartingBalanceIntervals := AList.singleton (accountKey 0) (some ⟨none, some 10, some 11⟩) }
  witnessSet := ()
  txIsValid := true

def depositsInOrder : DijkstraDirectDeposits :=
  (AList.singleton (accountKey 1) 2).insert (accountKey 0) 3

def depositsReversed : DijkstraDirectDeposits :=
  (AList.singleton (accountKey 0) 3).insert (accountKey 1) 2

theorem account_state_agrees_depositingBatch :
    utxoValidateWrongNetworkWithdrawal (depositingBatch depositsInOrder) twoAccounts = .ok () ∧
    utxoValidateWithdrawals (fun _ _ _ => (⟨[]⟩, none)) (fun _ _ => .ok [])
      (depositingBatch depositsInOrder) twoAccounts batchAccountParameters.toProtocolParameters =
        .ok () ∧
    utxoValidateAccountBalanceIntervals (depositingBatch depositsInOrder) twoAccounts = .ok () ∧
    ∃ s, threadAccounts 0 (newDijkstraAccountStateOverlay twoAccounts)
      (depositingBatch depositsInOrder).bodies = .ok s ∧
      match (newBlockLedgerState twoAccounts).applyTransaction
        (depositingBatch depositsReversed).toTransaction
        batchAccountParameters.toProtocolParameters with
      | .ok b => ∀ c, b.rewardAccountBalance c = s.rewardAccountBalance c
      | .error _ => False := by
  refine ⟨by decide, by decide, by decide, ?_⟩
  have horder : List.Forall₂ SameUpToOrder (depositingBatch depositsInOrder).bodies
      (depositingBatch depositsReversed).bodies :=
    .cons ⟨rfl, .refl _, by decide⟩ (.cons (.refl _) .nil)
  obtain ⟨s, hs, _, _, _, _, hend⟩ := account_state_agrees (fun _ _ _ => (⟨[]⟩, none))
    (fun _ _ => .ok []) (depositingBatch depositsInOrder) (depositingBatch depositsReversed)
    twoAccounts batchAccountParameters rfl (by decide) (by decide) (by decide) rfl horder
  refine ⟨s, hs, ?_⟩
  split at hend
  · exact hend
  · obtain ⟨body, hbody, cert, hcert, hfails⟩ := hend
    rcases hfails with ⟨c, rfl, hquery⟩ | ⟨cred, anchor, rfl, hquery⟩
    · cases hquery
    · cases hquery

end Gouroboros.Ledger.Dijkstra

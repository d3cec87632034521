import Gouroboros.Ledger.Conway.CertificateValue
import Gouroboros.Ledger.Conway.Transaction
import Gouroboros.Ledger.Conway.ValueRule
import Gouroboros.Ledger.Conway.WithdrawalSteps

/-!
# Conway preserves value

The rules that accept a Conway transaction and the fold that applies it agree on the
value it moves (`value_preserved`). The withdrawals run first, in lockstep with the
deposit rule's (`Agrees.withdraw`), then the certificates (`Agrees.run`); the
outputs move on their own.
-/

namespace Gouroboros.Ledger.Conway

open Total ExceptFold BlockLedgerState

/-! ## The state the rules run on -/

/-- The rules and the view are asked the same questions and give the same
answers. -/
structure SameAnswers (ls : LedgerState) (b : BlockLedgerState) : Prop where
  utxo : ls.utxoById = b.utxoById
  registered : ls.isStakeCredentialRegistered = b.isStakeCredentialRegistered
  balance : ls.rewardAccountBalance = b.rewardAccountBalance
  deposit : recordedStakeDeposit ls = recordedStakeDeposit b.toLedgerState
  drep : ls.dRepRegistration = b.dRepRegistration
  pool : ls.poolCurrentState = b.poolCurrentState

theorem sameAnswers_toLedgerState (b : BlockLedgerState) : SameAnswers b.toLedgerState b :=
  ⟨rfl, rfl, rfl, rfl, rfl, rfl⟩

theorem sameAnswers_newBlockLedgerState (ls : LedgerState) :
    SameAnswers ls (newBlockLedgerState ls) :=
  ⟨rfl, rfl, rfl, rfl, rfl, rfl⟩

/-- An unregistered credential has no reward balance and no deposit. -/
def AccountsDocumented (ls : LedgerState) : Prop :=
  ∀ c, ls.isStakeCredentialRegistered c = false → rewardOf ls c = 0 ∧ stakeDepositOf ls c = 0

section Withdrawals

variable {ls : LedgerState} {pp : ConwayProtocolParameters} {dereg : List Credential}
  {b b' : BlockLedgerState} {s s' : DepositState} {cred : Credential}

theorem agrees_init (hview : SameAnswers ls b) (hdoc : AccountsDocumented ls) :
    Agrees ls pp dereg b {} {} := by
  refine ⟨fun c => ⟨?_, ?_, ?_, ?_, ?_⟩, fun c => ⟨?_, ?_⟩⟩
  · exact congrFun hview.registered c
  · intro st hst hreg
    obtain ⟨_, _, hcap, hdep, _, _⟩ := DepositState.recorded_of_query hst hreg
    rw [stakeCredentialDepositStateFor_eq_some hcap, hview.deposit] at hdep
    exact hdep
  · intro _ st hst hreg
    obtain ⟨_, _, _, _, hbal, _⟩ := DepositState.recorded_of_query hst hreg
    rw [hview.balance] at hbal
    exact hbal
  · intro st st' hst hreg hst'
    -- Both rules read the same record; the fallback of the value rule is not used.
    obtain ⟨hls, _, hcap, hdep, _, _⟩ := DepositState.recorded_of_query hst hreg
    have hquery : ValueState.queryStake ls pp c = .ok ⟨true, st.deposit⟩ := by
      simp [ValueState.queryStake, hls, stakeCredentialDepositOrDefault, hcap, hdep, bind,
        Except.bind]
    have := Except.ok.inj (hquery.symm.trans hst')
    rw [← this]
  · intro hreg
    have := hdoc c ((congrFun hview.registered c).trans hreg)
    rw [rewardOf, stakeDepositOf, hview.balance, hview.deposit] at this
    exact this
  · intro reg hreg
    exact ⟨reg, (congrFun hview.drep c).symm.trans hreg, rfl⟩
  · intro reg reg' hreg hreg'
    obtain ⟨state, hstate, hrest⟩ := bind_eq_ok.mp hreg'
    have hsame : state = some reg := Except.ok.inj (hstate.symm.trans hreg)
    rw [hsame] at hrest
    obtain ⟨_, hok⟩ := guard_eq_ok.mp hrest
    have := Option.some.inj (Except.ok.inj hok)
    rw [this]

theorem Agrees.withdraw (h : Agrees ls pp dereg b s {}) {w : Address × Option Int}
    {amount balance : UInt64} (hcov : Covers b.rewardAccountBalance w cred amount balance)
    (hs : s.applyWithdrawal ls dereg w = .ok s')
    (hacc : ∀ c, b'.accountAnswer c =
      if c = cred then { b.accountAnswer cred with balance := .ok (some (balance - amount)) }
      else b.accountAnswer c)
    (hdrep : ∀ c, b'.dRepRegistration c = b.dRepRegistration c) :
    Agrees ls pp dereg b' s' {} := by
  have hcred := Address.stakeCredential_of_rewardAccountCredential hcov.credential_eq
  have hold := h.stake cred
  have hle : (balance - amount).toNat = balance.toNat - amount.toNat :=
    UInt64.toNat_sub_of_le _ _ hcov.le
  have hunreg : (b.accountAnswer cred).registered = false →
      recordedAmount (.ok (some (balance - amount))) = 0 ∧
        recordedAmount (b.accountAnswer cred).deposit = 0 := by
    intro hreg
    obtain ⟨hbal, hdep⟩ := hold.unregistered hreg
    rw [show (b.accountAnswer cred).balance = _ from hcov.balance_eq] at hbal
    refine ⟨?_, hdep⟩
    simp only [recordedAmount] at hbal ⊢
    omega
  rcases DepositState.applyWithdrawal_cases hcred hcov.amount_eq hs with
    ⟨hmem, rfl⟩ | ⟨hmem, state, state', hanswer, hws, hregistered, hdeposit, hlowered⟩
  · -- The rule does not follow this balance, and no certificate will read it.
    refine ⟨fun c => ?_, fun c => ?_⟩
    · rw [hacc]
      by_cases hc : c = cred
      · rw [if_pos hc, hc]
        exact ⟨hold.registered, hold.deposit_eq, fun hd => absurd hd hmem, hold.refund_eq, hunreg⟩
      · rw [if_neg hc]
        exact h.stake c
    · rw [hdrep]
      exact h.drep c
  · have hvalue : ∀ c, ValueState.stakeAnswer ls pp {} c =
        if c = cred then ValueState.stakeAnswer ls pp {} cred
        else ValueState.stakeAnswer ls pp {} c := by
      intro c
      rw [← Function.update_apply, Function.update_eq_self]
    refine h.write_stake hws hvalue (fun _ => rfl) hacc hdrep ⟨?_, ?_, ?_, ?_, hunreg⟩
    · exact hregistered.trans
        ((DepositState.registered_of_stakeAnswer hanswer).trans hold.registered)
    · rintro _ ⟨⟩ hst
      rw [hdeposit]
      exact hold.deposit_eq state hanswer (hregistered.symm.trans hst)
    · rintro _ _ ⟨⟩ hst
      have hbal := hold.balance_eq hmem state hanswer (hregistered.symm.trans hst)
      have hsame : balance = state.balance :=
        Option.some.inj (Except.ok.inj (hcov.balance_eq.symm.trans hbal))
      rw [hsame, hlowered (hsame ▸ hcov.le)]
    · rintro _ vst ⟨⟩ hst hvst
      rw [hdeposit]
      exact hold.refund_eq state vst hanswer (hregistered.symm.trans hst) hvst

theorem Agrees.withdrawals {ws : List (Address × Option Int)} (h : Agrees ls pp dereg b s {})
    (hcov : ∀ w ∈ ws, WithdrawalInRange b.rewardAccountBalance w)
    (hdistinct : (ws.map fun w => w.1.stakeCredential).Nodup)
    (hs : ws.foldlM (DepositState.applyWithdrawal ls dereg) s = .ok s') :
    ∃ b', ws.foldlM applyWithdrawal b = .ok b' ∧ Agrees ls pp dereg b' s' {} ∧
      BlockLedgerState.SameBesidesAccounts b b' ∧
      Moves (rewardOf b.toLedgerState) (rewardOf b'.toLedgerState)
        (-(ws.map fun w => w.2.getD 0).sum) ∧
      Moves (stakeDepositOf b.toLedgerState) (stakeDepositOf b'.toLedgerState) 0 := by
  induction ws generalizing b s with
  | nil =>
    cases hs
    exact ⟨b, rfl, h, .refl b, by simpa using Moves.refl _, Moves.refl _⟩
  | cons w ws ih =>
    obtain ⟨hnew, hdistinct⟩ := List.nodup_cons.mp hdistinct
    obtain ⟨s₁, hs₁, hs⟩ := foldlM_cons_eq_ok.mp hs
    obtain ⟨cred, amount, balance, hw⟩ := hcov w (by simp)
    obtain ⟨b₁, hb₁, hsame₁, hacc⟩ := applyWithdrawal_of_covers hw
    have h₁ := h.withdraw hw hs₁ hacc (dRepRegistration_congr hsame₁.drep)
    -- The accounts of the other withdrawals are not the one just lowered.
    have hcov₁ : ∀ w' ∈ ws, WithdrawalInRange b₁.rewardAccountBalance w' := by
      intro w' hw'
      obtain ⟨cred', amount', balance', hcov'⟩ := hcov w' (by simp [hw'])
      have hne : cred' ≠ cred := by
        rintro rfl
        refine hnew (List.mem_map.mpr ⟨w', hw', ?_⟩)
        exact (Address.stakeCredential_of_rewardAccountCredential hcov'.credential_eq).trans
          (Address.stakeCredential_of_rewardAccountCredential hw.credential_eq).symm
      have hbal : b₁.rewardAccountBalance cred' = b.rewardAccountBalance cred' := by
        have := congrArg AccountAnswer.balance (hacc cred')
        rwa [if_neg hne] at this
      exact ⟨cred', amount', balance', hcov'.credential_eq, hbal.trans hcov'.balance_eq,
        hcov'.amount_eq, hcov'.le⟩
    obtain ⟨b', hb', h', hsame, hrew, hdep⟩ := ih h₁ hcov₁ hdistinct hs
    refine ⟨b', foldlM_cons_eq_ok.mpr ⟨b₁, hb₁, hb'⟩, h', hsame₁.trans hsame, ?_, ?_⟩
    · have hone := rewards_move hacc
      have hle : (balance - amount).toNat = balance.toNat - amount.toNat :=
        UInt64.toNat_sub_of_le _ _ hw.le
      have hlt : amount.toNat ≤ balance.toNat := hw.le
      have hbefore : rewardOf b.toLedgerState cred = balance.toNat := by
        exact congrArg recordedAmount hw.balance_eq
      have hd : recordedAmount (.ok (some (balance - amount))) - rewardOf b.toLedgerState cred =
          -(w.2.getD 0) := by
        rw [hbefore, hw.value_eq]
        simp only [recordedAmount]
        omega
      rw [hd] at hone
      have := hone.trans hrew
      rwa [List.map_cons, List.sum_cons, neg_add]
    · have hone := stakeDeposits_move hacc
      have hzero : recordedAmount (b.accountAnswer cred).deposit -
          stakeDepositOf b.toLedgerState cred = 0 := sub_self _
      rw [hzero] at hone
      simpa using hone.trans hdep

end Withdrawals

/-! ## Transactions -/

/-- The input, withdrawal, certificate and value rules all accept.
`newTxScriptView` resolves the scripts a transaction needs. -/
structure Accepted
    (newTxScriptView : Transaction → LedgerState → TxScriptView × Option LedgerError)
    (tx : Transaction) (slot : UInt64) (ls : LedgerState) (pp : ConwayProtocolParameters) :
    Prop where
  noDuplicateInputs : Shelley.utxoValidateNoDuplicateInputs tx = .ok ()
  badInputs : Shelley.utxoValidateBadInputsUtxo tx ls = .ok ()
  withdrawals : utxoValidateWithdrawals newTxScriptView tx ls pp.toProtocolParameters = .ok ()
  delegation : utxoValidateDelegation tx ls pp = .ok ()
  certificateDeposits :
    utxoValidateCertificateDeposits tx ls pp.toProtocolParameters = .ok ()
  valueNotConserved : utxoValidateValueNotConservedUtxo newTxScriptView tx slot ls pp = .ok ()

section Accepted

variable {newTxScriptView : Transaction → LedgerState → TxScriptView × Option LedgerError}
  {tx : Transaction} {slot : UInt64} {ls : LedgerState} {pp : ConwayProtocolParameters}
  {b : BlockLedgerState}

theorem firstDuplicateInput_eq_none {seen inputs : List TransactionInput} :
    Shelley.firstDuplicateInput seen inputs = none ↔
      inputs.Nodup ∧ ∀ input ∈ inputs, input ∉ seen := by
  induction inputs generalizing seen with
  | nil => simp [Shelley.firstDuplicateInput]
  | cons input inputs ih =>
    unfold Shelley.firstDuplicateInput
    by_cases hmem : input ∈ seen
    · simp [hmem]
    · rw [if_neg hmem, ih]
      simp only [List.nodup_cons, List.mem_cons, not_or, forall_eq_or_imp]
      constructor
      · rintro ⟨hnodup, hall⟩
        exact ⟨⟨fun hin => (hall input hin).1 rfl, hnodup⟩, hmem, fun x hx => (hall x hx).2⟩
      · rintro ⟨⟨hnotin, hnodup⟩, _, hall⟩
        exact ⟨hnodup, fun x hx => ⟨fun h => hnotin (h ▸ hx), hall x hx⟩⟩

section

variable (h : Accepted newTxScriptView tx slot ls pp)
include h

theorem Accepted.inputs_nodup : tx.inputs.Nodup := by
  obtain ⟨⟨⟩, hregular, _⟩ := bind_eq_ok.mp h.noDuplicateInputs
  unfold Shelley.checkDuplicates at hregular
  cases hdup : Shelley.firstDuplicateInput [] tx.inputs with
  | some input =>
    rw [hdup] at hregular
    cases hregular
  | none => exact (firstDuplicateInput_eq_none.mp hdup).1

theorem Accepted.covered (hvalid : tx.isValid)
    (hbal : ls.rewardAccountBalance = b.rewardAccountBalance) :
    ∀ w ∈ tx.withdrawalMap.values, WithdrawalInRange b.rewardAccountBalance w := by
  rw [← hbal]
  exact inRange_of_utxoValidateWithdrawals hvalid h.withdrawals

theorem Accepted.deposit_loops (hvalid : tx.isValid) :
    ∃ s s', tx.withdrawalMap.values.foldlM
        (DepositState.applyWithdrawal ls (deregisteredStakeCredentials tx.certificates)) {} =
          .ok s ∧
      tx.certificates.foldlM (DepositState.step ls pp.keyDeposit pp.dRepDeposit) s = .ok s' := by
  have hd := h.certificateDeposits
  unfold utxoValidateCertificateDeposits at hd
  rw [hvalid, certificateDepositAmounts_conway] at hd
  obtain ⟨_, ⟨⟩, hd⟩ := bind_eq_ok.mp hd
  obtain ⟨s, hs, hd⟩ := bind_eq_ok.mp hd
  obtain ⟨s', hs', _⟩ := bind_eq_ok.mp hd
  exact ⟨s, s', hs, hs'⟩

end

theorem deregistered_mem {certs : List Certificate} {cert : Certificate} (hmem : cert ∈ certs)
    {keyDeposit : UInt64} {c : Credential} (hc : cert.stakeEffect keyDeposit = some (c, none)) :
    c ∈ deregisteredStakeCredentials certs := by
  refine List.mem_filterMap.mpr ⟨cert, hmem, ?_⟩
  cases cert with
  | stakeDeregistration | deregistration =>
    cases hc
    rfl
  | _ => cases hc

/-- An accepted transaction is applied, the withdrawn amounts leave the rewards, and the recorded
deposits move by what the value rule counts. -/
theorem Accepted.accounts_move (h : Accepted newTxScriptView tx slot ls pp)
    (hvalid : tx.isValid) (hlevels : tx.ledgerEffectLevels = none)
    (hview : SameAnswers ls b) (hdoc : AccountsDocumented ls)
    (hdistinct : (tx.withdrawalMap.values.map fun w => w.1.stakeCredential).Nodup)
    (hpools : ∀ op ∈ registeredOperators tx.certificates,
      ∃ due, poolRegistrationDepositDue ls slot op = .ok due)
    {v : ValueState} (hv : tx.certificates.foldlM (ValueState.step ls pp true) {} = .ok v) :
    ∃ b', b.applyTransaction tx pp.toProtocolParameters = .ok b' ∧
      b'.utxoPart = (b.applyUtxo tx).utxoPart ∧
      Moves (rewardOf ls) (rewardOf b'.toLedgerState) (-withdrawalCoin tx.withdrawalMap) ∧
      ∃ ds dd, Moves (stakeDepositOf ls) (stakeDepositOf b'.toLedgerState) ds ∧
        Moves (drepDepositOf ls) (drepDepositOf b'.toLedgerState) dd ∧
        ds + dd = v.deposits - v.refunds := by
  obtain ⟨s, s', hs, hs'⟩ := h.deposit_loops hvalid
  have hutxo := sameBesidesUtxo_applyUtxo b tx
  have hacc₁ := accountAnswer_congr hutxo.account
  have hdrep₁ := dRepRegistration_congr hutxo.drep
  have h₁ : Agrees ls pp (deregisteredStakeCredentials tx.certificates) (b.applyUtxo tx) {} {} :=
    (agrees_init hview hdoc).congr hacc₁ hdrep₁
  have hcov : ∀ w ∈ tx.withdrawalMap.values, 
      WithdrawalInRange (b.applyUtxo tx).rewardAccountBalance w := by
    refine h.covered hvalid (hview.balance.trans (funext fun c => ?_))
    exact (congrArg AccountAnswer.balance (hacc₁ c)).symm
  obtain ⟨b₂, hb₂, h₂, hsame, hrew, hdep⟩ := h₁.withdrawals hcov hdistinct hs
  have hanswered : ∀ c, .poolRegistration c ∈ tx.certificates →
      ∃ x, b₂.poolCurrentState c.operator = .ok x := by
    intro c hc
    have hop : c.operator ∈ registeredOperators tx.certificates := by
      simp only [registeredOperators, List.mem_toFinset, List.mem_filterMap]
      exact ⟨_, hc, rfl⟩
    obtain ⟨due, hdue⟩ := hpools _ hop
    obtain ⟨x, hx, _⟩ := bind_eq_ok.mp hdue
    refine ⟨x, ?_⟩
    rw [poolCurrentState_congr (hsame.pool.trans hutxo.pool), ← hview.pool]
    exact hx
  obtain ⟨b₃, hb₃, hmove⟩ := h₂.run (fun _ hmem _ hc => deregistered_mem hmem hc) hanswered hs' hv
  have hparts := sameParts_recordProposals b₃ tx.hash tx.proposalProcedures
  refine ⟨b₃.recordProposals tx.hash tx.proposalProcedures, ?_, ?_, ?_, ?_⟩
  · rw [applyTransaction_eq hvalid hlevels]
    exact bind_eq_ok.mpr ⟨b₂, hb₂, bind_eq_ok.mpr ⟨b₃, hb₃, rfl⟩⟩
  · exact hparts.utxo.trans
      ((utxoPart_applyCertificates hb₃).trans hsame.utxo)
  · have hm := hrew.trans hmove.rewards
    rw [add_zero, rewardOf_congr hacc₁, ← rewardOf_congr
      (accountAnswer_congr hparts.account)] at hm
    rwa [show rewardOf ls = rewardOf b.toLedgerState by
      funext c; rw [rewardOf, hview.balance]; rfl]
  · obtain ⟨ds, dd, hds, hdd, hsum⟩ := hmove.deposits
    have hm := hdep.trans hds
    rw [zero_add, stakeDepositOf_congr hacc₁, ← stakeDepositOf_congr
        (accountAnswer_congr hparts.account)] at hm
    rw [drepDepositOf_congr (dRepRegistration_congr hsame.drep),
      drepDepositOf_congr hdrep₁, ← drepDepositOf_congr
        (dRepRegistration_congr hparts.drep)] at hdd
    refine ⟨ds, dd, ?_, ?_, ?_⟩
    · rwa [show stakeDepositOf ls = stakeDepositOf b.toLedgerState by
        funext c; rw [stakeDepositOf, hview.deposit]; rfl]
    · rwa [show drepDepositOf ls = drepDepositOf b.toLedgerState by
        funext c; rw [drepDepositOf, hview.drep]; rfl]
    · rw [hsum]
      ring

end Accepted

/-! ## Preservation of value -/

theorem inputCoin_eq (ls : LedgerState) (inputs : List TransactionInput) :
    inputCoin ls inputs = (inputs.map (amountAt coinOf ls)).sum := rfl

theorem inputQuantity_eq (ls : LedgerState) (key : AssetKey) :
    inputQuantity ls key = amountAt (fun output => assetQuantity output.assets key) ls := rfl

theorem donationCoin_natCast (donation : UInt64) :
    donationCoin (some (donation.toNat : Int)) = donation.toNat := by
  unfold donationCoin
  dsimp only
  split
  · rfl
  · omega

section

variable {mint : Option MultiAsset} (h : ∀ m, mint = some m → m.asset 0 [] = none)
include h

theorem mintedAda_eq_zero : mintedAda mint = 0 := by
  cases mint with
  | none => rfl
  | some m =>
    unfold mintedAda
    dsimp only
    rw [h m rfl]
    rfl

theorem mintedQuantity_eq (key : AssetKey) : mintedQuantity mint key = assetQuantity mint key := by
  unfold mintedQuantity
  split
  · rename_i hkey
    obtain ⟨policy, name⟩ := key
    simp only [isAdaKey, Bool.and_eq_true, beq_iff_eq, List.length_eq_zero_iff] at hkey
    rw [hkey.1, hkey.2]
    exact (mintedAda_eq_zero h).symm
  · rfl

end

/-- What an accepted Conway transaction takes out of the outputs and the reward
accounts is its fee, its donation and its deposits, and it changes every asset
by what it mints. The rules run on the view it is applied to, or on the state a
fresh view wraps. No output may reuse the id of an entry that the transaction
does not spend: such an entry would be lost. -/
theorem value_preserved
    (newTxScriptView : Transaction → LedgerState → TxScriptView × Option LedgerError)
    (b : BlockLedgerState) (ls : LedgerState)
    (hview : ls = b.toLedgerState ∨ b = newBlockLedgerState ls) (hdoc : AccountsDocumented ls)
    (slot : UInt64) (pp : ConwayProtocolParameters) (tx : ConwayTransaction)
    (hvalid : tx.txIsValid = true)
    (hdistinct : (tx.toTransaction.withdrawalMap.values.map fun w => w.1.stakeCredential).Nodup)
    (hmint : ∀ mint, tx.txMint = some mint → mint.asset 0 [] = none)
    (hfresh : ∀ u ∈ tx.produced, u.id ∈ tx.txInputs ∨ ∀ utxo, ls.utxoById u.id ≠ .ok utxo)
    (haccepted : Accepted newTxScriptView tx.toTransaction slot ls pp) :
    ∃ b', b.applyTransaction tx.toTransaction pp.toProtocolParameters = .ok b' ∧
      (∃ du dr ds dd,
        Moves (amountAt coinOf ls) (amountAt coinOf b'.toLedgerState) du ∧
        Moves (rewardOf ls) (rewardOf b'.toLedgerState) dr ∧
        Moves (stakeDepositOf ls) (stakeDepositOf b'.toLedgerState) ds ∧
        Moves (drepDepositOf ls) (drepDepositOf b'.toLedgerState) dd ∧
        du + dr + ds + dd + tx.txFee.toNat + tx.txDonation.toNat +
          pp.govActionDeposit.toNat * tx.txProposalProcedures.length +
          pp.poolDeposit.toNat * (dueOperators ls slot tx.txCertificates).card = 0) ∧
      ∀ key, Moves (amountAt (fun output => assetQuantity output.assets key) ls)
        (amountAt (fun output => assetQuantity output.assets key) b'.toLedgerState)
        (assetQuantity tx.txMint key) := by
  have hsame : SameAnswers ls b := by
    rcases hview with rfl | rfl
    · exact sameAnswers_toLedgerState b
    · exact sameAnswers_newBlockLedgerState ls
  obtain ⟨refunds, deposits, hcerts, hpools, _, hcoin, hassets⟩ :=
    utxoValidateValueNotConservedUtxo_eq_ok.mp haccepted.valueNotConserved
  obtain ⟨v, hv, hcerts⟩ := bind_eq_ok.mp hcerts
  obtain ⟨⟨⟩, _, hcerts⟩ := bind_eq_ok.mp hcerts
  cases hcerts
  have hvalid' : tx.toTransaction.isValid := hvalid
  rw [hvalid'] at hv
  obtain ⟨b', hb', hutxo, hrewards, ds, dd, hds, hdd, hsum⟩ :=
    haccepted.accounts_move hvalid' rfl hsame hdoc hdistinct hpools hv
  have hconsumed : tx.toTransaction.consumed = tx.txInputs := if_pos hvalid
  -- The outputs move by what is created less what is spent, whatever is measured.
  have hmoves : ∀ amount : TransactionOutput → Int,
      Moves (amountAt amount ls) (amountAt amount b'.toLedgerState)
        ((tx.txOutputs.map amount).sum - (tx.txInputs.map (amountAt amount ls)).sum) := by
    intro amount
    have hls : amountAt amount ls = amountAt amount b.toLedgerState := by
      funext k
      rw [amountAt, hsame.utxo]
      rfl
    have hm := applyUtxo_moves b amount tx.toTransaction
      (hconsumed ▸ haccepted.inputs_nodup) (tx.produced_ids_nodup hvalid)
      (fun u hu => by rw [hconsumed, ← hsame.utxo]; exact hfresh u hu)
    have hproduced : (tx.toTransaction.produced.map fun u => amount u.output) =
        tx.txOutputs.map amount := by
      rw [← tx.produced_outputs hvalid, List.map_map]
      rfl
    rw [hconsumed, hproduced, ← amountAt_congr amount hutxo] at hm
    rwa [hls]
  refine ⟨b', hb', ⟨_, _, ds, dd, hmoves coinOf, hrewards, hds, hdd, ?_⟩, fun key => ?_⟩
  · rw [inputCoin_eq] at hcoin
    change _ + _ + _ + mintedAda tx.txMint = _ + (tx.txFee.toNat : Int) + _ + _ + _ +
      donationCoin (some (tx.txDonation.toNat : Int)) at hcoin
    rw [mintedAda_eq_zero hmint, donationCoin_natCast] at hcoin
    change (tx.txInputs.map _).sum + _ + _ + 0 = (tx.txOutputs.map coinOf).sum + _ + _ +
      pp.poolDeposit.toNat * ((dueOperators ls slot tx.txCertificates).card : Int) +
      (tx.txProposalProcedures.length : Int) * _ + _ at hcoin
    linarith
  · have hm := hmoves fun output => assetQuantity output.assets key
    have hkey : (tx.txInputs.map (inputQuantity ls key)).sum + mintedQuantity tx.txMint key =
        (tx.txOutputs.map fun output => assetQuantity output.assets key).sum := hassets key
    rw [inputQuantity_eq, mintedQuantity_eq hmint] at hkey
    rwa [← hkey, add_sub_cancel_left] at hm

/-! ### A registration, a deregistration and a withdrawal in one transaction -/

def closingCredential : Credential := ⟨credentialTypeScriptHash, 7⟩

def closingAddress : Address where
  addressType := Address.typeNoneScript
  networkId := Address.networkTestnet
  paymentPayload := none
  stakingPayload := some (.scriptHash 7)
  trailingBytes := []
  byronNetwork := none

def closingState : LedgerState :=
  { LedgerState.empty with
    utxoById := fun input =>
      if input = ⟨1, 0⟩ then .ok ⟨input, ⟨some 100, none⟩⟩ else .error (.provider "utxo not found")
    isStakeCredentialRegistered := fun cred => cred = closingCredential
    rewardAccountBalance := fun cred => .ok (if cred = closingCredential then some 5 else none)
    stakeCredentialDeposit? :=
      some fun cred => .ok (if cred = closingCredential then some 2 else none) }

def closingParameters : ConwayProtocolParameters where
  protocolVersionMajor := 11
  keyDeposit := 2
  poolDeposit := 500
  dRepDeposit := 3
  govActionDeposit := 4
  minPoolCost := 0
  maxEpoch := 18

def closingTransaction : ConwayTransaction where
  hash := 2
  txIsValid := true
  txInputs := [⟨1, 0⟩]
  txOutputs := [⟨some 101, none⟩]
  txCollateral := []
  txCollateralReturn := none
  txReferenceInputs := []
  txFee := 1
  txCertificates :=
    [.deregistration closingCredential 2, .stakeRegistration ⟨0, 8⟩,
      .registrationDrep ⟨0, 9⟩ 3 none]
  txWithdrawals := some (AList.singleton 0 (closingAddress, 5))
  txMint := none
  txProposalProcedures := []
  txDonation := 0
  outputs_lt := by decide

def noScripts : Transaction → LedgerState → TxScriptView × Option LedgerError :=
  fun _ _ => (⟨[]⟩, none)

theorem accountsDocumented_closingState : AccountsDocumented closingState := by
  intro c hc
  have hne : c ≠ closingCredential := by simpa [closingState] using hc
  constructor
  · simp [rewardOf, closingState, hne, recordedAmount]
  · simp [stakeDepositOf, recordedStakeDeposit, closingState, LedgerState.empty, hne,
      recordedAmount]

theorem accepted_closing :
    Accepted noScripts closingTransaction.toTransaction 0 closingState closingParameters where
  noDuplicateInputs := by decide
  badInputs := by decide
  withdrawals := by decide
  delegation := by decide
  certificateDeposits := by decide
  valueNotConserved := by decide

theorem value_preserved_closing :
    ∃ b', (newBlockLedgerState closingState).applyTransaction closingTransaction.toTransaction
        closingParameters.toProtocolParameters = .ok b' ∧
      (∃ du dr ds dd,
        Moves (amountAt coinOf closingState) (amountAt coinOf b'.toLedgerState) du ∧
        Moves (rewardOf closingState) (rewardOf b'.toLedgerState) dr ∧
        Moves (stakeDepositOf closingState) (stakeDepositOf b'.toLedgerState) ds ∧
        Moves (drepDepositOf closingState) (drepDepositOf b'.toLedgerState) dd ∧
        du + dr + ds + dd + (1 : UInt64).toNat + (0 : UInt64).toNat +
          (4 : UInt64).toNat * (0 : Nat) + (500 : UInt64).toNat *
            (dueOperators closingState 0 closingTransaction.txCertificates).card = 0) ∧
      ∀ key, Moves (amountAt (fun output => assetQuantity output.assets key) closingState)
        (amountAt (fun output => assetQuantity output.assets key) b'.toLedgerState)
        (assetQuantity none key) := by
  refine value_preserved noScripts (newBlockLedgerState closingState) closingState (.inr rfl)
    accountsDocumented_closingState 0 closingParameters closingTransaction rfl (by decide)
    nofun (fun u hu => .inr ?_) accepted_closing
  have hid : u.id = ⟨2, 0⟩ := by
    have hids : closingTransaction.produced.map (·.id) = [⟨2, 0⟩] := rfl
    exact List.mem_singleton.mp (hids ▸ List.mem_map_of_mem hu)
  rw [hid]
  exact nofun

/-! ### An output that overwrites an entry -/

def overwrittenState : LedgerState :=
  { LedgerState.empty with
    utxoById := fun input =>
      if input = ⟨1, 0⟩ then .ok ⟨input, ⟨some 10, none⟩⟩
      else if input = ⟨2, 0⟩ then .ok ⟨input, ⟨some 7, none⟩⟩
      else .error (.provider "utxo not found") }

def overwritingTransaction : ConwayTransaction where
  hash := 2
  txIsValid := true
  txInputs := [⟨1, 0⟩]
  txOutputs := [⟨some 10, none⟩]
  txCollateral := []
  txCollateralReturn := none
  txReferenceInputs := []
  txFee := 0
  txCertificates := []
  txWithdrawals := none
  txMint := none
  txProposalProcedures := []
  txDonation := 0
  outputs_lt := by decide

theorem accountsDocumented_overwrittenState : AccountsDocumented overwrittenState :=
  fun _ _ => ⟨rfl, rfl⟩

theorem accepted_overwriting :
    Accepted noScripts overwritingTransaction.toTransaction 0 overwrittenState
      closingParameters where
  noDuplicateInputs := by decide
  badInputs := by decide
  withdrawals := by decide
  delegation := by decide
  certificateDeposits := by decide
  valueNotConserved := by decide

theorem overwriting_moves : Moves (amountAt coinOf overwrittenState)
      (amountAt coinOf ((newBlockLedgerState overwrittenState).applyUtxo
        overwritingTransaction.toTransaction).toLedgerState) (-7) := by
  have hspend := (consume_moves coinOf
    (List.nodup_singleton (⟨1, 0⟩ : TransactionInput)) (newBlockLedgerState overwrittenState)).1
  have hcreate := Moves.of_ne
    (f := amountAt coinOf ((newBlockLedgerState overwrittenState).consume ⟨1, 0⟩).toLedgerState)
    (g := amountAt coinOf (((newBlockLedgerState overwrittenState).consume ⟨1, 0⟩).produce
      ⟨⟨2, 0⟩, ⟨some 10, none⟩⟩).toLedgerState) ⟨2, 0⟩
    (fun k hk => by rw [amountAt_produce, if_neg hk])
  exact hspend.trans hcreate

/-- The rules accept a transaction whose output takes the id of an entry it
does not spend, and the lovelace of that entry is lost. -/
theorem value_lost_when_overwriting :
    AccountsDocumented overwrittenState ∧ overwritingTransaction.txIsValid = true ∧
    overwritingTransaction.txWithdrawals = none ∧ overwritingTransaction.txMint = none ∧
    Accepted noScripts overwritingTransaction.toTransaction 0 overwrittenState closingParameters ∧
    ∃ b', (newBlockLedgerState overwrittenState).applyTransaction
        overwritingTransaction.toTransaction closingParameters.toProtocolParameters = .ok b' ∧
      ∀ du dr ds dd,
        Moves (amountAt coinOf overwrittenState) (amountAt coinOf b'.toLedgerState) du →
        Moves (rewardOf overwrittenState) (rewardOf b'.toLedgerState) dr →
        Moves (stakeDepositOf overwrittenState) (stakeDepositOf b'.toLedgerState) ds →
        Moves (drepDepositOf overwrittenState) (drepDepositOf b'.toLedgerState) dd →
        du + dr + ds + dd + overwritingTransaction.txFee.toNat +
          overwritingTransaction.txDonation.toNat +
          closingParameters.govActionDeposit.toNat *
            overwritingTransaction.txProposalProcedures.length +
          closingParameters.poolDeposit.toNat *
            (dueOperators overwrittenState 0 overwritingTransaction.txCertificates).card ≠ 0 := by
  refine ⟨accountsDocumented_overwrittenState, rfl, rfl, rfl, accepted_overwriting, ?_⟩
  obtain ⟨b', hb', hutxo, hrewards, ds₀, dd₀, hds, hdd, hsum⟩ :=
    accepted_overwriting.accounts_move (b := newBlockLedgerState overwrittenState) rfl rfl
      (sameAnswers_newBlockLedgerState _) accountsDocumented_overwrittenState List.nodup_nil
      nofun (v := {}) rfl
  refine ⟨b', hb', ?_⟩
  intro du dr ds dd hdu hdr hds' hdd'
  have hu : du = -7 := by
    rw [amountAt_congr coinOf hutxo] at hdu
    exact hdu.unique overwriting_moves
  have hr : dr = 0 := hdr.unique hrewards
  have hs : ds = ds₀ := hds'.unique hds
  have hd : dd = dd₀ := hdd'.unique hdd
  have hzero : ds₀ + dd₀ = 0 := hsum
  change du + dr + ds + dd + 0 + 0 + 4 * 0 + 500 * 0 ≠ 0
  omega

/-! ### One account under two addresses -/

def twoNetworksTransaction : ConwayTransaction :=
  { overwritingTransaction with
    txOutputs := [⟨some 110, none⟩]
    txWithdrawals := some (AList.insert 1 ({ closingAddress with networkId := Address.networkMainnet }, 5)
      (AList.singleton 0 (closingAddress, 5)))
    outputs_lt := by decide }

theorem accepted_twoNetworks :
    Accepted noScripts twoNetworksTransaction.toTransaction 0 closingState closingParameters where
  noDuplicateInputs := by decide
  badInputs := by decide
  withdrawals := by decide
  delegation := by decide
  certificateDeposits := by decide
  valueNotConserved := by decide

theorem answer_twoNetworks {b' : BlockLedgerState} (h : (newBlockLedgerState closingState).applyTransaction
      twoNetworksTransaction.toTransaction closingParameters.toProtocolParameters = .ok b')
    (c : Credential) : b'.accountAnswer c =
      if c = closingCredential then ⟨true, .ok (some 0), .ok (some 2)⟩
      else (newBlockLedgerState closingState).accountAnswer c := by
  cases h
  change (setAccount (setAccount _ closingCredential _) closingCredential _).accountAnswer c = _
  rw [accountAnswer_setAccount, accountAnswer_setAccount]
  split
  next hc =>
    rw [hc]
    refine (AccountAnswer.mk.injEq ..).mpr ⟨rfl, ?_, rfl⟩
    decide +kernel
  next => rfl

/-- The rules accept the balance of one credential twice, under the addresses of two networks. The
outputs gain both amounts, and the account loses one. -/
theorem value_created_by_two_networks :
    Accepted noScripts twoNetworksTransaction.toTransaction 0 closingState closingParameters ∧
    ∃ b', (newBlockLedgerState closingState).applyTransaction
        twoNetworksTransaction.toTransaction closingParameters.toProtocolParameters = .ok b' ∧
      Moves (amountAt coinOf closingState) (amountAt coinOf b'.toLedgerState) 10 ∧
      Moves (rewardOf closingState) (rewardOf b'.toLedgerState) (-5) ∧
      Moves (stakeDepositOf closingState) (stakeDepositOf b'.toLedgerState) 0 ∧
      Moves (drepDepositOf closingState) (drepDepositOf b'.toLedgerState) 0 := by
  have happly : (newBlockLedgerState closingState).applyTransaction
      twoNetworksTransaction.toTransaction closingParameters.toProtocolParameters = .ok _ := rfl
  have hanswer := answer_twoNetworks happly
  refine ⟨accepted_twoNetworks, _, happly, ?_, rewards_move hanswer, stakeDeposits_move hanswer,
    Moves.refl _⟩
  refine applyUtxo_moves (newBlockLedgerState closingState) coinOf
    twoNetworksTransaction.toTransaction (by decide) (by decide) (fun u hu => .inr ?_)
  have hid : u.id = ⟨2, 0⟩ := List.mem_singleton.mp (List.mem_map_of_mem (f := (·.id)) hu)
  rw [hid]
  exact nofun

end Gouroboros.Ledger.Conway

import Mathlib.Algebra.Order.BigOperators.Group.List
import Gouroboros.Lib.NestedMap
import Gouroboros.Ledger.Conway.ValueRule
import Gouroboros.Ledger.Dijkstra.Transaction

/-!
# Value conservation over a batch

The Dijkstra rule flattens the levels of a transaction into one view, carries
the direct deposits and donations of all levels on the fee, and hands the view
to the Conway rule (`ledger/dijkstra/rules.go`). What it decides is the balance
of the whole batch: `utxoValidateValueNotConservedUtxo_eq_ok`.
-/

namespace Gouroboros.Ledger

open ExceptFold Total

namespace MultiAsset

/-- One quantity added under its policy and name; the sum is never nil. -/
def addQuantity (m : MultiAsset) (policy : Blake2b224) (assetName : ByteString)
    (amount : Option Int) : MultiAsset :=
  ⟨m.data.insert policy (((m.data.lookup policy).getD ∅).insert assetName
    (some ((m.asset policy assetName).getD 0 + amount.getD 0)))⟩

def addPolicy (m : MultiAsset) (entry : Blake2b224 × GoMap ByteString (Option Int)) : MultiAsset :=
  entry.2.toPairs.foldl (fun m a => m.addQuantity entry.1 a.1 a.2) m

def add (m assets : MultiAsset) : MultiAsset := assets.data.toPairs.foldl addPolicy m

theorem asset_eq (m : MultiAsset) (key : Conway.AssetKey) :
    m.asset key.1 key.2 = (m.data.lookup₂ key).join := by
  unfold asset GoMap.lookup₂
  cases m.data.lookup key.1 <;> rfl

theorem quantity_eq (m : MultiAsset) (key : Conway.AssetKey) :
    Conway.assetQuantity (some m) key = (m.data.lookup₂ key).join.getD 0 :=
  congrArg (Option.getD · 0) (m.asset_eq key)

theorem add_eq (m assets : MultiAsset) :
    m.add assets = assets.data.toPairs₂.foldl (fun m e => m.addQuantity e.1.1 e.1.2 e.2) m := by
  unfold add GoMap.toPairs₂
  rw [List.foldl_flatMap]
  simp only [List.foldl_map]
  rfl

end MultiAsset

namespace Dijkstra

open Conway

variable {W : Type}

/-! ## The batch view -/

def mergeWithdrawal (ret : Withdrawals) (entry : Nat × (Address × Option Int)) : Withdrawals :=
  match entry.2.2 with
  | none => ret
  | some amount =>
    match ret.lookup entry.1 with
    | some existing => ret.insert entry.1 (existing.1, some (existing.2.getD 0 + amount))
    | none => ret.insert entry.1 (entry.2.1, some amount)

def mergeWithdrawals (ret : Withdrawals) (body : DijkstraSubTransactionBody) : Withdrawals :=
  body.withdrawalMap.toPairs.foldl mergeWithdrawal ret

/-- The merged `AssetMint()`: nil when no body mints. -/
def mergeMint (ret : Option MultiAsset) (body : DijkstraSubTransactionBody) : Option MultiAsset :=
  match body.txMint with
  | none => ret
  | some mint => some ((ret.getD MultiAsset.empty).add mint)

/-- The merged `Donation()`; a Dijkstra body's donation is never nil. -/
def mergeDonation (ret : Option Int) (body : DijkstraSubTransactionBody) : Option Int :=
  some (ret.getD 0 + body.txDonation.toNat)

/-- The bodies of all levels flattened. The fee and the reference inputs stay those of the top
level. -/
def dijkstraBatchTransaction (tx : DijkstraTransaction W) : Transaction :=
  { tx.toTransaction with
    inputs := tx.bodies.flatMap (·.txInputs)
    outputs := tx.bodies.flatMap (·.txOutputs)
    certificates := tx.bodies.flatMap (·.txCertificates)
    withdrawals := some (tx.bodies.foldl mergeWithdrawals ∅)
    proposalProcedures := tx.bodies.flatMap (·.txProposalProcedures)
    donation := tx.bodies.foldl mergeDonation none
    assetMint := tx.bodies.foldl mergeMint none
    ledgerEffectLevels := none }

/-- The transaction itself when it has no sub-transactions. -/
def dijkstraBatchView (tx : DijkstraTransaction W) : Transaction :=
  if tx.body.txSubTransactions.length = 0 then tx.toTransaction else dijkstraBatchTransaction tx

def directDepositCoin (deposits : DijkstraDirectDeposits) : Int :=
  (deposits.values.map fun amount => (amount.toNat : Int)).sum

def dijkstraDirectDepositsTotal (tx : DijkstraTransaction W) : Int :=
  directDepositCoin tx.body.txDirectDeposits +
    (tx.body.txSubTransactions.map fun sub => directDepositCoin sub.body.txDirectDeposits).sum

/-- Both totals on the fee, and no donation of its own. -/
def dijkstraProducedAdjustmentTransaction (tx : Transaction) (directDeposits donations : Int) :
    Transaction :=
  { tx with
    fee := some (directDeposits + donations + tx.fee.getD 0)
    donation := none }

section Rule

variable (newTxScriptView : W → Transaction → LedgerState → TxScriptView × Option LedgerError)

/-- One level's donation, after its own compatibility check. -/
def addLevelDonation (ls : LedgerState) (donations : Int) (level : DijkstraLevel W) :
    Except LedgerError Int := do
  validateTreasuryDonationScriptCompatibility (newTxScriptView level.witnesses)
    level.toTransaction ls
  .ok (donations + level.toTransaction.donation.getD 0)

def utxoValidateValueNotConservedUtxo (tx : DijkstraTransaction W) (slot : UInt64)
    (ls : LedgerState) (pp : ConwayProtocolParameters) : Except LedgerError Unit := do
  let view := dijkstraBatchView tx
  let directDeposits := dijkstraDirectDepositsTotal tx
  let donations ← tx.levels.foldlM (addLevelDonation newTxScriptView ls) 0
  let view :=
    if 0 < directDeposits ∨ 0 < donations then
      dijkstraProducedAdjustmentTransaction view directDeposits donations
    else view
  Conway.utxoValidateValueNotConservedUtxo (newTxScriptView tx.witnessSet) view slot ls pp

end Rule

/-! ## What the view adds up to -/

theorem asset_addQuantity (m : MultiAsset) (policy : Blake2b224) (assetName : ByteString)
    (amount : Option Int) (key : AssetKey) :
    assetQuantity (some (m.addQuantity policy assetName amount)) key =
      assetQuantity (some m) key + if key = (policy, assetName) then amount.getD 0 else 0 := by
  rw [MultiAsset.quantity_eq, MultiAsset.quantity_eq, MultiAsset.addQuantity]
  have hlookup := GoMap.lookup₂_insert₂ m.data (policy, assetName) key
    (some ((m.asset policy assetName).getD 0 + amount.getD 0))
  rw [GoMap.insert₂] at hlookup
  rw [hlookup]
  by_cases hkey : key = (policy, assetName)
  · simp [hkey, ← MultiAsset.asset_eq]
  · simp [hkey]

theorem asset_add (m assets : MultiAsset) (key : AssetKey) :
    assetQuantity (some (m.add assets)) key =
      assetQuantity (some m) key + assetQuantity (some assets) key := by
  rw [MultiAsset.add_eq, @foldl_total _ _ _ (fun m => assetQuantity (some m) key) _
    fun m e => asset_addQuantity m e.1.1 e.1.2 e.2 key]
  rw [GoMap.sum_toPairs₂_ite assets.data key fun amount => amount.getD 0]
  rw [assets.quantity_eq]
  rcases assets.data.lookup₂ key with - | - | amount <;> rfl

theorem asset_mergeMint (bodies : List DijkstraSubTransactionBody) (mint : Option MultiAsset)
    (key : AssetKey) :
    assetQuantity (bodies.foldl mergeMint mint) key =
      assetQuantity mint key + (bodies.map fun body => assetQuantity body.txMint key).sum := by
  refine @foldl_total _ _ _ (assetQuantity · key) _ (fun mint body => ?_) bodies mint
  unfold mergeMint
  cases body.txMint with
  | none => simp [assetQuantity]
  | some added =>
    rw [asset_add]
    cases mint with
    | none => rfl
    | some mint => rfl

theorem withdrawalCoin_mergeWithdrawal (ret : Withdrawals) (entry : Nat × (Address × Option Int)) :
    withdrawalCoin (mergeWithdrawal ret entry) = withdrawalCoin ret + entry.2.2.getD 0 := by
  unfold mergeWithdrawal withdrawalCoin
  cases entry.2.2 with
  | none => simp
  | some amount =>
    cases hl : ret.lookup entry.1 with
    | none =>
      rw [GoMap.sum_values_insert, hl]
      simp
    | some existing =>
      rw [GoMap.sum_values_insert, hl]
      simp only [Option.map_some, Option.getD_some]
      ring

theorem withdrawalCoin_mergeWithdrawals (ret : Withdrawals) (body : DijkstraSubTransactionBody) :
    withdrawalCoin (mergeWithdrawals ret body) =
      withdrawalCoin ret + withdrawalCoin body.withdrawalMap := by
  rw [mergeWithdrawals, foldl_total withdrawalCoin_mergeWithdrawal]
  simp [withdrawalCoin, GoMap.values, GoMap.toPairs, List.map_map, Function.comp_def]

/-! ## The batch view, level by level -/

section View

variable (tx : DijkstraTransaction W)

theorem bodies_of_no_subTransactions (h : tx.body.txSubTransactions.length = 0) :
    tx.bodies = [tx.body.toDijkstraSubTransactionBody] := by
  rw [DijkstraTransaction.bodies, List.length_eq_zero_iff.mp h]
  rfl

theorem dijkstraBatchView_lists :
    (dijkstraBatchView tx).inputs = tx.bodies.flatMap (·.txInputs) ∧
    (dijkstraBatchView tx).outputs = tx.bodies.flatMap (·.txOutputs) ∧
    (dijkstraBatchView tx).certificates = tx.bodies.flatMap (·.txCertificates) ∧
    (dijkstraBatchView tx).proposalProcedures = tx.bodies.flatMap (·.txProposalProcedures) ∧
    (dijkstraBatchView tx).isValid = tx.txIsValid ∧
    (dijkstraBatchView tx).fee = some (tx.body.txFee.toNat : Int) := by
  unfold dijkstraBatchView
  split
  · rename_i h
    rw [bodies_of_no_subTransactions tx h]
    simp [DijkstraTransaction.toTransaction]
  · exact ⟨rfl, rfl, rfl, rfl, rfl, rfl⟩

theorem sum_dijkstraBatchView {coin : Transaction → Int}
    {levelCoin : DijkstraSubTransactionBody → Int}
    (hone : coin tx.toTransaction = levelCoin tx.body.toDijkstraSubTransactionBody)
    (hbatch : coin (dijkstraBatchTransaction tx) = (tx.bodies.map levelCoin).sum) :
    coin (dijkstraBatchView tx) = (tx.bodies.map levelCoin).sum := by
  unfold dijkstraBatchView
  split
  next h => rw [bodies_of_no_subTransactions tx h, List.map_singleton, List.sum_singleton, hone]
  next => exact hbatch

theorem withdrawalCoin_dijkstraBatchView :
    withdrawalCoin (dijkstraBatchView tx).withdrawalMap =
      (tx.bodies.map fun body => withdrawalCoin body.withdrawalMap).sum := by
  refine @sum_dijkstraBatchView _ tx (fun t => withdrawalCoin t.withdrawalMap) _ rfl ?_
  change withdrawalCoin (tx.bodies.foldl mergeWithdrawals ∅) = _
  rw [foldl_total withdrawalCoin_mergeWithdrawals]
  simp [withdrawalCoin, GoMap.values]

theorem assetQuantity_dijkstraBatchView (key : AssetKey) :
    assetQuantity (dijkstraBatchView tx).assetMint key =
      (tx.bodies.map fun body => assetQuantity body.txMint key).sum := by
  refine @sum_dijkstraBatchView _ tx (fun t => assetQuantity t.assetMint key) _ rfl ?_
  change assetQuantity (tx.bodies.foldl mergeMint none) key = _
  rw [asset_mergeMint]
  simp [assetQuantity]

theorem donation_dijkstraBatchView :
    (dijkstraBatchView tx).donation.getD 0 =
      (tx.bodies.map fun body => (body.txDonation.toNat : Int)).sum := by
  refine @sum_dijkstraBatchView _ tx (fun t => t.donation.getD 0) _ rfl ?_
  change (tx.bodies.foldl mergeDonation none).getD 0 = _
  rw [@foldl_total _ _ mergeDonation (·.getD 0) _ fun _ _ => rfl]
  simp

theorem dijkstraDirectDepositsTotal_eq :
    dijkstraDirectDepositsTotal tx =
      (tx.bodies.map fun body => directDepositCoin body.txDirectDeposits).sum := by
  simp [dijkstraDirectDepositsTotal, DijkstraTransaction.bodies, List.map_map, Function.comp_def,
    add_comm]

theorem directDepositCoin_nonneg (deposits : DijkstraDirectDeposits) :
    0 ≤ directDepositCoin deposits := by
  refine List.sum_nonneg fun amount h => ?_
  obtain ⟨a, _, rfl⟩ := List.mem_map.mp h
  omega

end View

theorem foldlM_addLevelDonation
    {newTxScriptView : W → Transaction → LedgerState → TxScriptView × Option LedgerError}
    {ls : LedgerState} {levels : List (DijkstraLevel W)}
    (h : ∀ level ∈ levels, validateTreasuryDonationScriptCompatibility
      (newTxScriptView level.witnesses) level.toTransaction ls = .ok ()) (donations : Int) :
    levels.foldlM (addLevelDonation newTxScriptView ls) donations =
      .ok (donations + (levels.map fun level => (level.body.txDonation.toNat : Int)).sum) := by
  induction levels generalizing donations with
  | nil => simp [pure, Except.pure]
  | cons level levels ih =>
    obtain ⟨hlevel, hrest⟩ := List.forall_mem_cons.mp h
    refine foldlM_cons_eq_ok.mpr
      ⟨donations + level.body.txDonation.toNat, seq_eq_ok.mpr ⟨hlevel, rfl⟩, ?_⟩
    rw [ih hrest, List.map_cons, List.sum_cons, add_assoc]

/-- The view handed to the Conway rule, in terms of the levels: the totals of
direct deposits and donations are on the fee, and no donation is left to
check. -/
structure FlattensTo (tx : DijkstraTransaction W) (view : Transaction) : Prop where
  isValid : view.isValid = tx.txIsValid
  inputs : view.inputs = tx.bodies.flatMap (·.txInputs)
  outputs : view.outputs = tx.bodies.flatMap (·.txOutputs)
  certificates : view.certificates = tx.bodies.flatMap (·.txCertificates)
  proposals : view.proposalProcedures = tx.bodies.flatMap (·.txProposalProcedures)
  withdrawals : withdrawalCoin view.withdrawalMap =
    (tx.bodies.map fun body => withdrawalCoin body.withdrawalMap).sum
  mint : ∀ key, assetQuantity view.assetMint key =
    (tx.bodies.map fun body => assetQuantity body.txMint key).sum
  fee : view.fee.getD 0 = tx.body.txFee.toNat +
    (tx.bodies.map fun body => (body.txDonation.toNat : Int)).sum +
    (tx.bodies.map fun body => directDepositCoin body.txDirectDeposits).sum
  donation : donationCoin view.donation = 0

theorem flattensTo_adjusted (tx : DijkstraTransaction W) {donations : Int}
    (hdonations : donations = (tx.bodies.map fun body => (body.txDonation.toNat : Int)).sum) :
    FlattensTo tx
      (if 0 < dijkstraDirectDepositsTotal tx ∨ 0 < donations then
        dijkstraProducedAdjustmentTransaction (dijkstraBatchView tx)
          (dijkstraDirectDepositsTotal tx) donations
      else dijkstraBatchView tx) := by
  obtain ⟨hinputs, houtputs, hcerts, hproposals, hvalid, hfee⟩ := dijkstraBatchView_lists tx
  have hwithdrawals := withdrawalCoin_dijkstraBatchView tx
  have hmint := assetQuantity_dijkstraBatchView tx
  have hdirect := dijkstraDirectDepositsTotal_eq tx
  split
  · refine ⟨hvalid, hinputs, houtputs, hcerts, hproposals, hwithdrawals, hmint, ?_, rfl⟩
    have hadjusted : (dijkstraProducedAdjustmentTransaction (dijkstraBatchView tx)
        (dijkstraDirectDepositsTotal tx) donations).fee.getD 0 =
        dijkstraDirectDepositsTotal tx + donations + (dijkstraBatchView tx).fee.getD 0 := rfl
    rw [hadjusted, hfee, Option.getD_some, ← hdonations, ← hdirect]
    ring
  · -- neither total is positive, so both are zero
    have hdonations₀ : 0 ≤ donations := by
      rw [hdonations]
      refine List.sum_nonneg fun x hx => ?_
      obtain ⟨body, _, rfl⟩ := List.mem_map.mp hx
      omega
    have hdirect₀ : 0 ≤ dijkstraDirectDepositsTotal tx := by
      rw [hdirect]
      refine List.sum_nonneg fun x hx => ?_
      obtain ⟨body, _, rfl⟩ := List.mem_map.mp hx
      exact directDepositCoin_nonneg _
    refine ⟨hvalid, hinputs, houtputs, hcerts, hproposals, hwithdrawals, hmint, ?_, ?_⟩
    · rw [hfee, Option.getD_some, ← hdonations, ← hdirect]
      omega
    · have hview := donation_dijkstraBatchView tx
      unfold donationCoin
      cases hd : (dijkstraBatchView tx).donation with
      | none => rfl
      | some donation =>
        rw [hd, Option.getD_some] at hview
        dsimp only
        rw [if_neg (by omega)]

/-! ## The verdict -/

section Verdict

variable {newTxScriptView : W → Transaction → LedgerState → TxScriptView × Option LedgerError}
  {ls : LedgerState} {slot : UInt64} {pp : ConwayProtocolParameters} {tx : DijkstraTransaction W}
  {view : Transaction}

def consumedCoin (ls : LedgerState) (body : DijkstraSubTransactionBody) : Int :=
  inputCoin ls body.txInputs + withdrawalCoin body.withdrawalMap + mintedAda body.txMint

/-- The lovelace a level produces, certificates and fee apart. -/
def producedCoin (pp : ConwayProtocolParameters) (body : DijkstraSubTransactionBody) : Int :=
  (body.txOutputs.map coinOf).sum +
    (body.txProposalProcedures.length : Int) * pp.govActionDeposit.toNat +
    body.txDonation.toNat + directDepositCoin body.txDirectDeposits

theorem sum_flatMap {α β : Type} (l : List α) (f : α → List β) (g : β → Int) :
    ((l.flatMap f).map g).sum = (l.map fun a => ((f a).map g).sum).sum := by
  rw [List.map_flatMap, List.flatMap, List.sum_flatten, List.map_map]
  rfl

theorem length_flatMap_mul {α β : Type} (l : List α) (f : α → List β) (n : Int) :
    ((l.flatMap f).length : Int) * n = (l.map fun a => ((f a).length : Int) * n).sum := by
  rw [List.sum_map_mul_right, List.length_flatMap]
  push_cast
  rw [List.map_map]
  rfl

section

variable (h : FlattensTo tx view)
include h

theorem FlattensTo.consumed (ls : LedgerState) :
    inputCoin ls view.inputs + withdrawalCoin view.withdrawalMap + mintedAda view.assetMint =
      (tx.bodies.map (consumedCoin ls)).sum := by
  have hmint : mintedAda view.assetMint = (tx.bodies.map fun body => mintedAda body.txMint).sum :=
    h.mint (0, [])
  have hinputs : inputCoin ls view.inputs =
      (tx.bodies.map fun body => inputCoin ls body.txInputs).sum := by
    rw [h.inputs]
    exact sum_flatMap _ _ _
  rw [hmint, hinputs, h.withdrawals, ← List.sum_map_add, ← List.sum_map_add]
  rfl

theorem FlattensTo.produced (pp : ConwayProtocolParameters) :
    (view.outputs.map coinOf).sum + view.fee.getD 0 +
        (view.proposalProcedures.length : Int) * pp.govActionDeposit.toNat =
      (tx.bodies.map (producedCoin pp)).sum + tx.body.txFee.toNat := by
  have hsum : (tx.bodies.map (producedCoin pp)).sum =
      (tx.bodies.map fun body => (body.txOutputs.map coinOf).sum).sum +
        (tx.bodies.map fun body =>
          (body.txProposalProcedures.length : Int) * pp.govActionDeposit.toNat).sum +
        (tx.bodies.map fun body => (body.txDonation.toNat : Int)).sum +
        (tx.bodies.map fun body => directDepositCoin body.txDirectDeposits).sum := by
    rw [← List.sum_map_add, ← List.sum_map_add, ← List.sum_map_add]
    rfl
  rw [h.outputs, h.proposals, h.fee, sum_flatMap, length_flatMap_mul, hsum]
  ring

theorem FlattensTo.consumedAssets (ls : LedgerState) (key : AssetKey) :
    (view.inputs.map (inputQuantity ls key)).sum + mintedQuantity view.assetMint key =
      (tx.bodies.map fun body =>
        (body.txInputs.map (inputQuantity ls key)).sum + mintedQuantity body.txMint key).sum := by
  have hmint : mintedQuantity view.assetMint key =
      (tx.bodies.map fun body => mintedQuantity body.txMint key).sum := by
    unfold mintedQuantity
    split
    · simp
    · exact h.mint key
  rw [h.inputs, hmint, sum_flatMap, ← List.sum_map_add]

theorem FlattensTo.producedAssets (key : AssetKey) :
    (view.outputs.map fun output => assetQuantity output.assets key).sum =
      (tx.bodies.map fun body =>
        (body.txOutputs.map fun output => assetQuantity output.assets key).sum).sum := by
  rw [h.outputs, sum_flatMap]

theorem FlattensTo.deposits {s : ValueState}
    (hcerts : (tx.bodies.flatMap (·.txCertificates)).foldlM
      (ValueState.step ls pp tx.txIsValid) {} = .ok s) {refunds deposits : Int} :
    conwayValueConservationDeposits view ls pp = .ok (refunds, deposits) ↔
      (∀ proposal ∈ tx.bodies.flatMap (·.txProposalProcedures),
        checkProposalDeposit pp tx.txIsValid proposal = .ok ()) ∧
      refunds = s.refunds ∧ deposits = s.deposits := by
  unfold conwayValueConservationDeposits
  rw [h.certificates, h.proposals, h.isValid, hcerts, ← forM_eq_ok]
  constructor
  · intro hok
    obtain ⟨hproposals, hok⟩ := seq_eq_ok.mp hok
    cases hok
    exact ⟨hproposals, rfl, rfl⟩
  · rintro ⟨hproposals, rfl, rfl⟩
    exact bind_eq_ok.mpr ⟨s, rfl, seq_eq_ok.mpr ⟨hproposals, rfl⟩⟩

end

theorem exists_flattened (tx : DijkstraTransaction W) (slot : UInt64)
    (pp : ConwayProtocolParameters)
    (hdonation : ∀ level ∈ tx.levels, validateTreasuryDonationScriptCompatibility
      (newTxScriptView level.witnesses) level.toTransaction ls = .ok ()) :
    ∃ view, FlattensTo tx view ∧
      utxoValidateValueNotConservedUtxo newTxScriptView tx slot ls pp =
        Conway.utxoValidateValueNotConservedUtxo (newTxScriptView tx.witnessSet) view slot ls pp := by
  have hfold := foldlM_addLevelDonation hdonation 0
  have hlevels : (tx.levels.map fun level => (level.body.txDonation.toNat : Int)) =
      tx.bodies.map fun body => (body.txDonation.toNat : Int) := by
    rw [← DijkstraTransaction.map_body_levels, List.map_map]
    rfl
  rw [zero_add, hlevels] at hfold
  refine ⟨_, flattensTo_adjusted tx rfl, ?_⟩
  unfold utxoValidateValueNotConservedUtxo
  rw [hfold]
  rfl

/-- The rule accepts a batch exactly when the proposals and pool deposits are in
order and the lovelace and every asset balance over all levels. Direct deposits
and donations count at every level, the fee once, and the deposits and refunds
are those of one walk over the certificates of all levels. -/
theorem batch_value_conserved_iff (tx : DijkstraTransaction W)
    (hdonation : ∀ level ∈ tx.levels, validateTreasuryDonationScriptCompatibility
      (newTxScriptView level.witnesses) level.toTransaction ls = .ok ())
    {s : ValueState} (hcerts : (tx.bodies.flatMap (·.txCertificates)).foldlM
      (ValueState.step ls pp tx.txIsValid) {} = .ok s) :
    utxoValidateValueNotConservedUtxo newTxScriptView tx slot ls pp = .ok () ↔
      (∀ proposal ∈ tx.bodies.flatMap (·.txProposalProcedures),
        checkProposalDeposit pp tx.txIsValid proposal = .ok ()) ∧
      (∀ op ∈ registeredOperators (tx.bodies.flatMap (·.txCertificates)),
        ∃ due, poolRegistrationDepositDue ls slot op = .ok due) ∧
      (tx.bodies.map (consumedCoin ls)).sum + s.refunds =
        (tx.bodies.map (producedCoin pp)).sum + s.deposits +
          pp.poolDeposit.toNat *
            (dueOperators ls slot (tx.bodies.flatMap (·.txCertificates))).card +
          tx.body.txFee.toNat ∧
      ∀ key,
        (tx.bodies.map fun body => (body.txInputs.map (inputQuantity ls key)).sum +
          mintedQuantity body.txMint key).sum =
        (tx.bodies.map fun body =>
          (body.txOutputs.map fun output => assetQuantity output.assets key).sum).sum := by
  obtain ⟨view, hview, hrule⟩ := exists_flattened tx slot pp hdonation
  have hconsumed := hview.consumed ls
  have hproduced := hview.produced pp
  rw [hrule, utxoValidateValueNotConservedUtxo_eq_ok, ← hview.certificates]
  constructor
  · rintro ⟨refunds, deposits, hdep, hdue, _, hcoin, hassets⟩
    obtain ⟨hproposals, rfl, rfl⟩ := (hview.deposits hcerts).mp hdep
    refine ⟨hproposals, hdue, ?_, fun key => ?_⟩
    · rw [hview.donation] at hcoin
      linarith
    · rw [← hview.consumedAssets, ← hview.producedAssets]
      exact hassets key
  · rintro ⟨hproposals, hdue, hcoin, hassets⟩
    refine ⟨s.refunds, s.deposits, (hview.deposits hcerts).mpr ⟨hproposals, rfl, rfl⟩, hdue, ?_,
      ?_, fun key => ?_⟩
    · rw [checkDonation, hview.donation, if_neg (by omega)]
    · rw [hview.donation]
      linarith
    · rw [hview.consumedAssets, hview.producedAssets]
      exact hassets key

/-! ### Two batches -/

def noScripts : Unit → Transaction → LedgerState → TxScriptView × Option LedgerError :=
  fun _ _ _ => (⟨[]⟩, none)

def fundedState (amount : Int) : LedgerState :=
  { LedgerState.empty with
    utxoById := fun input =>
      if input = ⟨1, 0⟩ then .ok ⟨input, ⟨some amount, none⟩⟩
      else .error (.provider "utxo not found") }

def batchParameters : ConwayProtocolParameters where
  protocolVersionMajor := 12
  keyDeposit := 2
  poolDeposit := 5
  dRepDeposit := 3
  govActionDeposit := 4
  minPoolCost := 0
  maxEpoch := 18

def fundingSubTransaction : DijkstraSubTransaction Unit where
  body :=
    { DijkstraSubTransactionBody.empty with
      id := 2
      txInputs := [⟨1, 0⟩]
      txDonation := 1
      txCertificates := [.poolRegistration ⟨1, 7, 0, none, none⟩]
      txDirectDeposits := AList.singleton (0xe0 :: List.replicate 28 0) 3 }
  witnessSet := ()

/-- A sub-transaction brings the funds, donates and deposits, under a top level that registers the
same pool again. -/
def fundedBatch : DijkstraTransaction Unit where
  body :=
    { DijkstraSubTransactionBody.empty with
      id := 3
      txOutputs := [⟨some 4, none⟩]
      txCertificates := [.poolRegistration ⟨1, 8, 0, none, none⟩]
      txFee := 2
      txCollateral := []
      txCollateralReturn := none
      txSubTransactions := [fundingSubTransaction]
      txStartingBalanceIntervals := ∅ }
  witnessSet := ()
  txIsValid := true

theorem donation_noScripts (level : DijkstraLevel Unit) (ls : LedgerState) :
    validateTreasuryDonationScriptCompatibility (noScripts level.witnesses) level.toTransaction ls =
      .ok () := by
  unfold validateTreasuryDonationScriptCompatibility
  split
  · rfl
  · split <;> rfl

theorem batch_value_conserved_iff_fundedBatch :
    utxoValidateValueNotConservedUtxo noScripts fundedBatch 0 (fundedState 15) batchParameters =
      .ok () ∧
    (fundedBatch.bodies.map (consumedCoin (fundedState 15))).sum + 0 =
      (fundedBatch.bodies.map (producedCoin batchParameters)).sum + 0 +
        (5 : UInt64).toNat * (dueOperators (fundedState 15) 0
          (fundedBatch.bodies.flatMap (·.txCertificates))).card + (2 : UInt64).toNat := by
  have hok : utxoValidateValueNotConservedUtxo noScripts fundedBatch 0 (fundedState 15)
      batchParameters = .ok () := by decide
  have hverdict := (batch_value_conserved_iff fundedBatch
    (fun level _ => donation_noScripts level (fundedState 15)) (s := {}) rfl).mp hok
  exact ⟨hok, hverdict.2.2.1⟩

def mintingTransaction : DijkstraTransaction Unit where
  body :=
    { DijkstraSubTransactionBody.empty with
      id := 2
      txInputs := [⟨1, 0⟩]
      txOutputs := [⟨some 15, none⟩]
      txMint := some ⟨AList.singleton 0 (AList.singleton [] (some 5))⟩
      txFee := 0
      txCollateral := []
      txCollateralReturn := none
      txSubTransactions := []
      txStartingBalanceIntervals := ∅ }
  witnessSet := ()
  txIsValid := true

/-- Such a mint counts as lovelace and not as an asset: the rule accepts although
the asset's inputs and mint do not equal its outputs. -/
theorem mint_of_lovelace_accepted :
    utxoValidateValueNotConservedUtxo noScripts mintingTransaction 0 (fundedState 10)
      batchParameters = .ok () ∧
    (∀ level ∈ mintingTransaction.levels, validateTreasuryDonationScriptCompatibility
      (noScripts level.witnesses) level.toTransaction (fundedState 10) = .ok ()) ∧
    (∃ s, (mintingTransaction.bodies.flatMap (·.txCertificates)).foldlM
      (ValueState.step (fundedState 10) batchParameters mintingTransaction.txIsValid) {} =
        .ok s) ∧
    (∀ body ∈ mintingTransaction.bodies, ∀ input ∈ body.txInputs,
      ((fundedState 10).utxoById input).isOk = true) ∧
    ¬ ∀ key,
      (mintingTransaction.bodies.map fun body =>
        (body.txInputs.map (inputQuantity (fundedState 10) key)).sum +
          assetQuantity body.txMint key).sum =
      (mintingTransaction.bodies.map fun body =>
        (body.txOutputs.map fun output => assetQuantity output.assets key).sum).sum := by
  refine ⟨by decide, ?_, ⟨_, rfl⟩, ?_, ?_⟩
  · exact fun level _ => donation_noScripts level (fundedState 10)
  · intro body hbody input hinput
    rw [List.mem_singleton.mp hbody] at hinput
    rw [List.mem_singleton.mp hinput]
    rfl
  · intro h
    exact absurd (h (0, [])) (by decide)

end Verdict

end Dijkstra

end Gouroboros.Ledger

import Mathlib.Data.Finset.Card
import Gouroboros.Lib.Total
import Gouroboros.Ledger.Conway.Rules

/-!
# What the value-conservation rule decides

`UtxoValidateValueNotConservedUtxo` accumulates quantities in maps and walks
them with early exits. Its verdict is arithmetic
(`utxoValidateValueNotConservedUtxo_eq_ok`).
-/

namespace Gouroboros.Ledger.Conway

open ExceptFold Total

/-! ## Asset totals -/

def assetQuantity (value : Option MultiAsset) (key : AssetKey) : Int :=
  match value with
  | none => 0
  | some value => (value.asset key.1 key.2).getD 0

def totalOf (totals : GoMap AssetKey Int) (key : AssetKey) : Int := (totals.lookup key).getD 0

theorem totalOf_insert (totals : GoMap AssetKey Int) (key key' : AssetKey) (amount : Int) :
    totalOf (totals.insert key (totalOf totals key + amount)) key' =
      totalOf totals key' + if key' = key then amount else 0 := by
  unfold totalOf
  by_cases h : key' = key
  · subst h
    simp
  · simp [h]

theorem mem_assets_of_asset {value : MultiAsset} {p : Blake2b224} {n : ByteString} {amount : Int}
    (h : value.asset p n = some amount) : p ∈ value.policies ∧ n ∈ value.assets p := by
  unfold MultiAsset.asset at h
  unfold MultiAsset.policies MultiAsset.assets
  cases hp : value.data.lookup p with
  | none =>
    rw [hp] at h
    cases h
  | some policy =>
    rw [hp] at h
    dsimp only at h
    have hn : (policy.lookup n).isSome := by
      cases hl : policy.lookup n with
      | none =>
        rw [hl] at h
        cases h
      | some x => rfl
    exact ⟨AList.lookup_isSome.mp (by simp [hp]), AList.lookup_isSome.mp hn⟩

section

variable (value : MultiAsset)
include value

theorem totalOf_addAsset (skip : AssetKey → Bool) (p : Blake2b224) (totals : GoMap AssetKey Int)
    (n : ByteString) (key : AssetKey) :
    totalOf (addAsset skip value p totals n) key =
      totalOf totals key +
        if key = (p, n) ∧ skip key = false then (value.asset p n).getD 0 else 0 := by
  unfold addAsset
  split
  · rename_i h
    simp [h]
  · rename_i amount h
    split
    · rename_i hs
      have : ¬ (key = (p, n) ∧ skip key = false) := by
        rintro ⟨rfl, hs'⟩
        simp [hs] at hs'
      simp [this]
    · rename_i hs
      rw [show (totals.lookup (p, n)).getD 0 = totalOf totals (p, n) from rfl, totalOf_insert, h]
      by_cases hk : key = (p, n)
      · subst hk
        simp [hs]
      · simp [hk]

theorem totalOf_addNames (skip : AssetKey → Bool) (p : Blake2b224) {names : List ByteString}
    (hnodup : names.Nodup) (totals : GoMap AssetKey Int) (key : AssetKey) :
    totalOf (names.foldl (addAsset skip value p) totals) key =
      totalOf totals key +
        if key.1 = p ∧ key.2 ∈ names ∧ skip key = false then (value.asset p key.2).getD 0
        else 0 := by
  induction names generalizing totals with
  | nil => simp
  | cons n names ih =>
    obtain ⟨hn, hnodup⟩ := List.nodup_cons.mp hnodup
    rw [List.foldl_cons, ih hnodup, totalOf_addAsset, add_assoc]
    congr 1
    obtain ⟨kp, kn⟩ := key
    -- The name is either the head or in the rest, never both.
    by_cases hkn : kn = n
    · subst hkn
      simp [hn]
    · simp [hkn]

theorem nodup_policies : value.policies.Nodup := value.data.keys_nodup

theorem nodup_assets (p : Blake2b224) : (value.assets p).Nodup := by
  unfold MultiAsset.assets
  split
  · exact List.nodup_nil
  · rename_i assets _
    exact assets.keys_nodup

theorem totalOf_addPolicies (skip : AssetKey → Bool) {policies : List Blake2b224}
    (hnodup : policies.Nodup) (totals : GoMap AssetKey Int) (key : AssetKey) :
    totalOf (policies.foldl (addPolicy skip value) totals) key =
      totalOf totals key +
        if key.1 ∈ policies ∧ key.2 ∈ value.assets key.1 ∧ skip key = false then
          (value.asset key.1 key.2).getD 0
        else 0 := by
  induction policies generalizing totals with
  | nil => simp
  | cons p policies ih =>
    obtain ⟨hp, hnodup⟩ := List.nodup_cons.mp hnodup
    rw [List.foldl_cons, ih hnodup, addPolicy, totalOf_addNames value skip p (nodup_assets value p)]
    obtain ⟨kp, kn⟩ := key
    by_cases hkp : kp = p
    · subst hkp
      simp [hp]
    · simp [hkp]

theorem totalOf_addAssets (skip : AssetKey → Bool) (totals : GoMap AssetKey Int) (key : AssetKey) :
    totalOf (addAssets skip totals value) key =
      totalOf totals key + if skip key then 0 else assetQuantity (some value) key := by
  rw [addAssets, totalOf_addPolicies value skip (nodup_policies value)]
  congr 1
  by_cases hs : skip key
  · simp [hs]
  · cases ha : value.asset key.1 key.2 with
    | none => simp [assetQuantity, ha]
    | some amount =>
      have hmem := mem_assets_of_asset ha
      simp [assetQuantity, ha, hmem.1, hmem.2, hs]

end

theorem totalOf_addOutputAssets (totals : GoMap AssetKey Int) (output : TransactionOutput)
    (key : AssetKey) :
    totalOf (addOutputAssets totals output) key =
      totalOf totals key + assetQuantity output.assets key := by
  unfold addOutputAssets
  split
  · rename_i h
    simp [h, assetQuantity]
  · rename_i assets h
    rw [totalOf_addAssets, h]
    simp

def inputQuantity (ls : LedgerState) (key : AssetKey) (input : TransactionInput) : Int :=
  match ls.utxoById input with
  | .ok utxo => assetQuantity utxo.output.assets key
  | .error _ => 0

theorem totalOf_addInputAssets (ls : LedgerState) (totals : GoMap AssetKey Int)
    (input : TransactionInput) (key : AssetKey) :
    totalOf (addInputAssets ls totals input) key =
      totalOf totals key + inputQuantity ls key input := by
  unfold addInputAssets inputQuantity
  cases ls.utxoById input with
  | error e => simp
  | ok utxo => exact totalOf_addOutputAssets totals utxo.output key

/-- The minted quantity of an asset; lovelace is not an asset. -/
def mintedQuantity (mint : Option MultiAsset) (key : AssetKey) : Int :=
  if isAdaKey key then 0 else assetQuantity mint key

theorem totalOf_consumedAssets (tx : Transaction) (ls : LedgerState) (key : AssetKey) :
    totalOf (consumedAssets tx ls) key =
      (tx.inputs.map (inputQuantity ls key)).sum + mintedQuantity tx.assetMint key := by
  have hinputs : totalOf (tx.inputs.foldl (addInputAssets ls) ∅) key =
      (tx.inputs.map (inputQuantity ls key)).sum := by
    rw [@foldl_total _ _ _ (totalOf · key) _ (fun totals input => totalOf_addInputAssets ls totals input key)]
    simp [totalOf]
  unfold consumedAssets mintedQuantity
  split
  · rename_i h
    rw [hinputs]
    simp [assetQuantity, h]
  · rename_i mint h
    rw [totalOf_addAssets, hinputs, h]

theorem totalOf_producedAssets (tx : Transaction) (key : AssetKey) :
    totalOf (producedAssets tx) key =
      (tx.outputs.map fun output => assetQuantity output.assets key).sum := by
  unfold producedAssets
  rw [@foldl_total _ _ _ (totalOf · key) _ (fun totals output => totalOf_addOutputAssets totals output key)]
  simp [totalOf]

/-! ## Comparing the totals -/

variable {produced unmatched : GoMap AssetKey Int}

theorem matchAsset_eq_ok {t : GoMap AssetKey Int} {entry : AssetKey × Int} :
    matchAsset produced entry = .ok t ↔
      entry.2 = totalOf produced entry.1 ∧ produced.erase entry.1 = t := by
  unfold matchAsset totalOf
  dsimp only
  split <;> simp_all

variable {pairs : List (AssetKey × Int)}

theorem totalOf_erase_of_mem {key : AssetKey} (hmem : key ∉ pairs.map Prod.fst) {e : AssetKey × Int}
    (he : e ∈ pairs) : totalOf (produced.erase key) e.1 = totalOf produced e.1 := by
  have hne : e.1 ≠ key := by
    intro h
    exact hmem (h ▸ List.mem_map_of_mem he)
  simp [totalOf, AList.lookup_erase_ne hne]

theorem matchAssets_of_ok (hnodup : (pairs.map Prod.fst).Nodup)
    (h : pairs.foldlM matchAsset produced = .ok unmatched) :
    (∀ entry ∈ pairs, entry.2 = totalOf produced entry.1) ∧
    ∀ key, unmatched.lookup key =
      if key ∈ pairs.map Prod.fst then none else produced.lookup key := by
  induction pairs generalizing produced with
  | nil =>
    cases h
    simp
  | cons entry pairs ih =>
    obtain ⟨hmem, hnodup⟩ := List.nodup_cons.mp hnodup
    obtain ⟨t, hstep, hrest⟩ := foldlM_cons_eq_ok.mp h
    obtain ⟨hhead, rfl⟩ := matchAsset_eq_ok.mp hstep
    obtain ⟨htail, hlookup⟩ := ih hnodup hrest
    constructor
    · rw [List.forall_mem_cons]
      exact ⟨hhead, fun e he => (htail e he).trans (totalOf_erase_of_mem hmem he)⟩
    · intro key
      rw [hlookup, GoMap.lookup_erase_ite, List.map_cons]
      by_cases h₁ : key ∈ pairs.map Prod.fst
      · rw [if_pos h₁, if_pos (List.mem_cons_of_mem _ h₁)]
      · by_cases h₂ : key = entry.1
        · rw [if_neg h₁, if_pos h₂, if_pos (by simp [h₂])]
        · rw [if_neg h₁, if_neg h₂, if_neg (by simp [h₂, h₁])]

theorem matchAssets_ok_of_forall (hnodup : (pairs.map Prod.fst).Nodup)
    (h : ∀ entry ∈ pairs, entry.2 = totalOf produced entry.1) :
    ∃ unmatched, pairs.foldlM matchAsset produced = .ok unmatched := by
  induction pairs generalizing produced with
  | nil => exact ⟨produced, rfl⟩
  | cons entry pairs ih =>
    obtain ⟨hmem, hnodup⟩ := List.nodup_cons.mp hnodup
    obtain ⟨hhead, htail⟩ := List.forall_mem_cons.mp h
    have hrest : ∀ e ∈ pairs, e.2 = totalOf (produced.erase entry.1) e.1 :=
      fun e he => (htail e he).trans (totalOf_erase_of_mem hmem he).symm
    obtain ⟨u, hu⟩ := ih hnodup hrest
    exact ⟨u, foldlM_cons_eq_ok.mpr ⟨_, matchAsset_eq_ok.mpr ⟨hhead, rfl⟩, hu⟩⟩

theorem checkUnmatched_eq_ok :
    unmatched.values.forM checkUnmatched = .ok () ↔ ∀ key, totalOf unmatched key = 0 := by
  rw [forM_eq_ok]
  have hzero : ∀ amount, checkUnmatched amount = .ok () ↔ amount = 0 := by
    intro amount
    unfold checkUnmatched
    split <;> simp_all
  simp only [hzero]
  constructor
  · intro h key
    unfold totalOf
    cases hk : unmatched.lookup key with
    | none => rfl
    | some amount =>
      refine h amount (List.mem_map.mpr ⟨⟨key, amount⟩, ?_, rfl⟩)
      exact AList.mem_lookup_iff.mp hk
  · intro h amount hmem
    obtain ⟨⟨key, v⟩, he, rfl⟩ := List.mem_map.mp hmem
    have hk : unmatched.lookup key = some v := AList.mem_lookup_iff.mpr he
    simpa [totalOf, hk] using h key

theorem checkAssets_eq_ok {consumed : GoMap AssetKey Int} :
    checkAssets consumed produced = .ok () ↔
      ∀ key, totalOf consumed key = totalOf produced key := by
  have hnodup := consumed.toPairs_fst_nodup
  have hkeys : ∀ key, key ∈ consumed.toPairs.map Prod.fst ↔ (consumed.lookup key).isSome := by
    intro key
    constructor
    · intro h
      obtain ⟨⟨k, v⟩, he, rfl⟩ := List.mem_map.mp h
      simp [GoMap.lookup_of_mem_toPairs he]
    · intro h
      obtain ⟨v, hv⟩ := Option.isSome_iff_exists.mp h
      exact List.mem_map.mpr ⟨(key, v), GoMap.mem_toPairs_of_lookup hv, rfl⟩
  unfold checkAssets
  rw [bind_eq_ok]
  constructor
  · rintro ⟨unmatched, hfold, hrest⟩ key
    obtain ⟨hall, hlookup⟩ := matchAssets_of_ok hnodup hfold
    have hzero := checkUnmatched_eq_ok.mp hrest key
    cases hc : consumed.lookup key with
    | some amount =>
      have := hall (key, amount) (GoMap.mem_toPairs_of_lookup hc)
      simpa [totalOf, hc] using this
    | none =>
      have hmem : key ∉ consumed.toPairs.map Prod.fst := by simp [hkeys, hc]
      rw [totalOf, hlookup, if_neg hmem] at hzero
      simpa [totalOf, hc] using hzero.symm
  · intro h
    have hall : ∀ entry ∈ consumed.toPairs, entry.2 = totalOf produced entry.1 := by
      intro entry he
      rw [← h entry.1, totalOf, GoMap.lookup_of_mem_toPairs he]
      rfl
    obtain ⟨unmatched, hfold⟩ := matchAssets_ok_of_forall hnodup hall
    have hlookup := (matchAssets_of_ok hnodup hfold).2
    refine ⟨unmatched, hfold, checkUnmatched_eq_ok.mpr ?_⟩
    intro key
    rw [totalOf, hlookup]
    split
    · rfl
    · rename_i hmem
      have hnone : consumed.lookup key = none := by simpa [hkeys] using hmem
      have := h key
      simpa [totalOf, hnone] using this.symm

/-! ## Pool deposits -/

def registeredOperators (certs : List Certificate) : Finset PoolKeyHash :=
  (certs.filterMap fun
    | .poolRegistration c => some c.operator
    | _ => none).toFinset

def dueOperators (ls : LedgerState) (slot : UInt64) (certs : List Certificate) :
    Finset PoolKeyHash :=
  (registeredOperators certs).filter fun op => poolRegistrationDepositDue ls slot op = .ok true

theorem registeredOperators_cons_pool (c : PoolRegistrationCertificate) (certs : List Certificate) :
    registeredOperators (.poolRegistration c :: certs) =
      insert c.operator (registeredOperators certs) := by
  simp [registeredOperators]

theorem registeredOperators_cons_of_not_pool {cert : Certificate} (certs : List Certificate)
    (h : ∀ c, cert ≠ .poolRegistration c) :
    registeredOperators (cert :: certs) = registeredOperators certs := by
  cases cert with
  | poolRegistration c => exact absurd rfl (h c)
  | _ => simp [registeredOperators]

theorem card_due_insert {P : PoolKeyHash → Prop} [DecidablePred P] (ops : Finset PoolKeyHash)
    {op : PoolKeyHash} {seen : List PoolKeyHash} (hop : op ∉ seen) :
    (((insert op ops).filter P).filter (· ∉ seen)).card =
      (if P op then 1 else 0) + ((ops.filter P).filter (· ∉ op :: seen)).card := by
  have hnew : op ∉ (ops.filter P).filter (· ∉ op :: seen) := by simp
  by_cases hP : P op
  · have heq : ((insert op ops).filter P).filter (· ∉ seen) =
        insert op ((ops.filter P).filter (· ∉ op :: seen)) := by
      ext q
      by_cases hq : q = op
      · simp [hq, hP, hop]
      · simp [hq]
    rw [heq, Finset.card_insert_of_notMem hnew, if_pos hP, add_comm]
  · have heq : ((insert op ops).filter P).filter (· ∉ seen) =
        (ops.filter P).filter (· ∉ op :: seen) := by
      ext q
      by_cases hq : q = op
      · simp [hq, hP]
      · simp [hq]
    rw [heq, if_neg hP, zero_add]

variable {slot poolDeposit : UInt64}

/-- The pool deposits beyond the operators already seen: every due question is answered, and each
due operator counted once. -/
theorem poolDeposits_seen_eq_ok {ls : LedgerState} {certs : List Certificate}
    {seen : List PoolKeyHash} {value : Int} :
    poolDeposits ls slot poolDeposit seen certs = .ok value ↔
    (∀ op ∈ registeredOperators certs, op ∉ seen →
      ∃ due, poolRegistrationDepositDue ls slot op = .ok due) ∧
    value = poolDeposit.toNat * ((dueOperators ls slot certs).filter (· ∉ seen)).card := by
  induction certs generalizing seen value with
  | nil => simp [poolDeposits, dueOperators, registeredOperators, eq_comm]
  | cons cert certs ih =>
    by_cases hpool : ∃ c, cert = .poolRegistration c
    · obtain ⟨c, rfl⟩ := hpool
      unfold dueOperators
      rw [registeredOperators_cons_pool, poolDeposits]
      by_cases hseen : c.operator ∈ seen
      · have hfilter : ((insert c.operator (registeredOperators certs)).filter
            (fun op => poolRegistrationDepositDue ls slot op = .ok true)).filter (· ∉ seen) =
            (dueOperators ls slot certs).filter (· ∉ seen) := by
          ext q
          by_cases hq : q = c.operator
          · simp [hq, hseen]
          · simp [hq, dueOperators]
        rw [if_pos hseen, ih, hfilter]
        simp [hseen]
      · rw [if_neg hseen, card_due_insert _ hseen, bind_eq_ok]
        constructor
        · rintro ⟨due, hdue, h⟩
          obtain ⟨rest, hrest, hvalue⟩ := bind_eq_ok.mp h
          obtain ⟨hall, hcount⟩ := ih.mp hrest
          refine ⟨?_, ?_⟩
          · intro op hop hns
            by_cases heq : op = c.operator
            · exact ⟨due, heq ▸ hdue⟩
            · refine hall op (Finset.mem_of_mem_insert_of_ne hop heq) ?_
              simpa [heq] using hns
          · simp only [Except.ok.injEq] at hvalue
            rw [← hvalue, hcount, hdue]
            cases due <;> simp [dueOperators, mul_add]
        · rintro ⟨hall, hvalue⟩
          obtain ⟨due, hdue⟩ := hall c.operator (Finset.mem_insert_self _ _) hseen
          refine ⟨due, hdue, bind_eq_ok.mpr ⟨_, ih.mpr ⟨?_, rfl⟩, ?_⟩⟩
          · intro op hop hns
            rw [List.mem_cons, not_or] at hns
            exact hall op (Finset.mem_insert_of_mem hop) hns.2
          · rw [hvalue, hdue]
            cases due <;> simp [dueOperators, mul_add]
    · have hnot : ∀ c, cert ≠ .poolRegistration c := fun c h => hpool ⟨c, h⟩
      have hskip : poolDeposits ls slot poolDeposit seen (cert :: certs) =
          poolDeposits ls slot poolDeposit seen certs := by
        cases cert with
        | poolRegistration c => exact absurd rfl (hnot c)
        | _ => rfl
      unfold dueOperators
      rw [hskip, registeredOperators_cons_of_not_pool certs hnot]
      exact ih

theorem poolDeposits_eq_ok {ls : LedgerState} {certs : List Certificate} {value : Int} :
    poolDeposits ls slot poolDeposit [] certs = .ok value ↔
    (∀ op ∈ registeredOperators certs,
      ∃ due, poolRegistrationDepositDue ls slot op = .ok due) ∧
    value = poolDeposit.toNat * (dueOperators ls slot certs).card := by
  rw [poolDeposits_seen_eq_ok]
  simp

/-! ## The verdict -/

variable {newTxScriptView : Transaction → LedgerState → TxScriptView × Option LedgerError}

/-- The rule accepts exactly when the certificates and pool deposits are
decided, a donation is compatible with the scripts, and the lovelace and every
asset balance. -/
theorem utxoValidateValueNotConservedUtxo_eq_ok {tx : Transaction} {ls : LedgerState}
    {pp : ConwayProtocolParameters} :
    utxoValidateValueNotConservedUtxo newTxScriptView tx slot ls pp = .ok () ↔
    ∃ refunds deposits, conwayValueConservationDeposits tx ls pp = .ok (refunds, deposits) ∧
      (∀ op ∈ registeredOperators tx.certificates,
        ∃ due, poolRegistrationDepositDue ls slot op = .ok due) ∧
      checkDonation newTxScriptView tx ls = .ok () ∧
      inputCoin ls tx.inputs + withdrawalCoin tx.withdrawalMap + refunds +
          mintedAda tx.assetMint =
        (tx.outputs.map coinOf).sum + tx.fee.getD 0 + deposits +
          pp.poolDeposit.toNat * (dueOperators ls slot tx.certificates).card +
          (tx.proposalProcedures.length : Int) * pp.govActionDeposit.toNat +
          donationCoin tx.donation ∧
      ∀ key, (tx.inputs.map (inputQuantity ls key)).sum + mintedQuantity tx.assetMint key =
        (tx.outputs.map fun output => assetQuantity output.assets key).sum := by
  constructor
  · intro h
    obtain ⟨⟨refunds, deposits⟩, hdep, h⟩ := bind_eq_ok.mp h
    obtain ⟨poolValue, hpool, h⟩ := bind_eq_ok.mp h
    obtain ⟨⟨⟩, hdon, h⟩ := bind_eq_ok.mp h
    obtain ⟨hdue, rfl⟩ := poolDeposits_eq_ok.mp hpool
    dsimp only at h
    split at h
    · cases h
    · rename_i hcoin
      refine ⟨refunds, deposits, hdep, hdue, hdon, not_not.mp hcoin, ?_⟩
      intro key
      have := checkAssets_eq_ok.mp h key
      rwa [totalOf_consumedAssets, totalOf_producedAssets] at this
  · rintro ⟨refunds, deposits, hdep, hdue, hdon, hcoin, hassets⟩
    refine bind_eq_ok.mpr ⟨_, hdep, ?_⟩
    refine bind_eq_ok.mpr ⟨_, poolDeposits_eq_ok.mpr ⟨hdue, rfl⟩, ?_⟩
    refine bind_eq_ok.mpr ⟨(), hdon, ?_⟩
    rw [if_neg (not_not.mpr hcoin)]
    refine checkAssets_eq_ok.mpr fun key => ?_
    rw [totalOf_consumedAssets, totalOf_producedAssets]
    exact hassets key

end Gouroboros.Ledger.Conway

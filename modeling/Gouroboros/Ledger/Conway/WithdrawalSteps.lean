import Gouroboros.Ledger.Conway.Rules

/-!
# What the withdrawal rules check

An accepted withdrawal is covered by the balance of its account, and the
withdrawals of one map name distinct reward accounts of the ledger's network.
-/

namespace Gouroboros.Ledger

open ExceptFold

namespace Shelley

theorem inRange_of_checkWithdrawal {ls : LedgerState} {exact : Bool} {w : Address × Option Int}
    (h : checkWithdrawal ls exact w = .ok ()) : WithdrawalInRange ls.rewardAccountBalance w := by
  obtain ⟨cred, hcred, h⟩ := bind_eq_ok.mp h
  obtain ⟨balance, hbalance, h⟩ := bind_eq_ok.mp h
  cases balance with
  | none => cases h
  | some balance =>
    cases hamount : w.2.bind uint64? with
    | none =>
      rw [hamount] at h
      cases h
    | some amount =>
      rw [hamount] at h
      refine ⟨cred, amount, balance, hcred, hbalance, hamount, ?_⟩
      cases exact with
      | true =>
        have heq : amount = balance := by
          by_contra hne
          simp [hne] at h
        rw [heq]
        exact UInt64.le_refl balance
      | false =>
        by_contra hlt
        simp [hlt] at h

theorem checkWithdrawalAddresses_eq_ok {ws : List (Address × Option Int)}
    {seen seen' : List ByteString} (h : ws.foldlM checkWithdrawalAddress seen = .ok seen') :
    (∀ w ∈ ws, ∃ cred, w.1.rewardAccountCredential = .ok cred) ∧
      (ws.map fun w => w.1.bytes).Nodup ∧ ∀ w ∈ ws, w.1.bytes ∉ seen := by
  induction ws generalizing seen with
  | nil => simp
  | cons w ws ih =>
    obtain ⟨mid, hstep, hrest⟩ := foldlM_cons_eq_ok.mp h
    obtain ⟨cred, hcred, hstep⟩ := bind_eq_ok.mp hstep
    obtain ⟨hnew, hmid⟩ := guard_eq_ok.mp hstep
    cases hmid
    obtain ⟨hcreds, hnodup, hunseen⟩ := ih hrest
    refine ⟨List.forall_mem_cons.mpr ⟨⟨cred, hcred⟩, hcreds⟩, ?_, ?_⟩
    · rw [List.map_cons, List.nodup_cons]
      refine ⟨?_, hnodup⟩
      intro hmem
      obtain ⟨x, hx, heq⟩ := List.mem_map.mp hmem
      exact hunseen x hx (by simp [heq])
    · refine List.forall_mem_cons.mpr ⟨hnew, fun x hx hseen => ?_⟩
      exact hunseen x hx (List.mem_cons_of_mem _ hseen)

theorem utxoValidateWrongNetworkWithdrawal_eq_ok {tx : Transaction} {ls : LedgerState}
    (h : utxoValidateWrongNetworkWithdrawal tx ls = .ok ()) :
    (∀ w ∈ tx.withdrawalMap.values, w.1.NetworkId = ls.networkId ∧
      ∃ cred, w.1.rewardAccountCredential = .ok cred) ∧
      (tx.withdrawalMap.values.map fun w => w.1.bytes).Nodup := by
  unfold utxoValidateWrongNetworkWithdrawal at h
  dsimp only at h
  split at h
  · rename_i hbad
    obtain ⟨seen, hfold, _⟩ := bind_eq_ok.mp h
    obtain ⟨hcreds, hnodup, _⟩ := checkWithdrawalAddresses_eq_ok hfold
    refine ⟨fun w hw => ⟨?_, hcreds w hw⟩, hnodup⟩
    have := List.filter_eq_nil_iff.mp hbad w.1 (List.mem_map_of_mem hw)
    simpa using this
  · cases h

end Shelley

namespace Conway

theorem inRange_of_utxoValidateWithdrawals
    {newTxScriptView : Transaction → LedgerState → TxScriptView × Option LedgerError}
    {tx : Transaction} {ls : LedgerState} {pp : ProtocolParameters} (hvalid : tx.isValid)
    (h : utxoValidateWithdrawals newTxScriptView tx ls pp = .ok ()) :
    ∀ w ∈ tx.withdrawalMap.values, WithdrawalInRange ls.rewardAccountBalance w := by
  unfold utxoValidateWithdrawals at h
  rw [hvalid] at h
  obtain ⟨hshelley, _⟩ := seq_eq_ok.mp h
  unfold Shelley.utxoValidateWithdrawals at hshelley
  intro w hw
  unfold Transaction.withdrawalMap at hw
  cases hws : tx.withdrawals with
  | none =>
    rw [hws] at hw
    cases hw
  | some ws =>
    rw [hws] at hw hshelley
    obtain ⟨_, hshelley⟩ := seq_eq_ok.mp hshelley
    obtain ⟨exact, _, hshelley⟩ := bind_eq_ok.mp hshelley
    exact Shelley.inRange_of_checkWithdrawal (forM_eq_ok.mp hshelley w hw)

end Conway

end Gouroboros.Ledger

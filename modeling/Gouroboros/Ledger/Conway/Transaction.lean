import Gouroboros.Ledger.Common.Types

/-!
# Conway transactions

`ConwayTransaction` (`ledger/conway/conway.go`) with the body fields that the
rules and the block fold read, and its `Transaction` methods. The Conway body
implements neither `WithdrawalRequiresExactAmount` nor `LeveledTransaction`.
-/

namespace Gouroboros.Ledger.Conway

/-- Amounts are `uint64` in a body. The number of outputs is bounded by the
transaction size limit, which keeps every index a `uint32`. -/
structure ConwayTransaction where
  hash : Blake2b256
  txIsValid : Bool
  txInputs : List TransactionInput
  txOutputs : List TransactionOutput
  txCollateral : List TransactionInput
  txCollateralReturn : Option TransactionOutput
  txReferenceInputs : List TransactionInput
  txFee : UInt64
  txCertificates : List Certificate
  txWithdrawals : Option (GoMap Nat (Address × UInt64))
  txMint : Option MultiAsset
  txProposalProcedures : List ProposalProcedure
  txDonation : UInt64
  outputs_lt : txOutputs.length < 2 ^ 32

namespace ConwayTransaction

variable (tx : ConwayTransaction)

/-- Nil when the body has none. -/
def withdrawals : Option Withdrawals :=
  tx.txWithdrawals.map fun ws => ws.mapVals fun w => (w.1, some (w.2.toNat : Int))

def utxoAt (entry : TransactionOutput × Nat) : Utxo := ⟨⟨tx.hash, UInt32.ofNat entry.2⟩, entry.1⟩

def consumed : List TransactionInput := if tx.txIsValid then tx.txInputs else tx.txCollateral

def produced : List Utxo :=
  if tx.txIsValid then tx.txOutputs.zipIdx.map tx.utxoAt
  else
    match tx.txCollateralReturn with
    | none => []
    | some output => [⟨⟨tx.hash, UInt32.ofNat tx.txOutputs.length⟩, output⟩]

def toTransaction : Transaction where
  hash := tx.hash
  isValid := tx.txIsValid
  inputs := tx.txInputs
  outputs := tx.txOutputs
  collateral := tx.txCollateral
  referenceInputs := tx.txReferenceInputs
  consumed := tx.consumed
  produced := tx.produced
  certificates := tx.txCertificates
  withdrawals := tx.withdrawals
  assetMint := tx.txMint
  fee := some tx.txFee.toNat
  donation := some tx.txDonation.toNat
  proposalProcedures := tx.txProposalProcedures
  withdrawalRequiresExactAmount := none
  ledgerEffectLevels := none

theorem produced_ids_nodup (hvalid : tx.txIsValid) : (tx.produced.map (·.id)).Nodup := by
  have hids : tx.produced.map (·.id) =
      (List.range tx.txOutputs.length).map fun i => (⟨tx.hash, UInt32.ofNat i⟩ : TransactionInput) := by
    rw [produced, if_pos hvalid, List.map_map, List.range_eq_range', ← List.zipIdx_map_snd 0,
      List.map_map]
    rfl
  rw [hids]
  refine List.Nodup.map_on ?_ List.nodup_range
  intro i hi j hj hij
  have hi : i < 2 ^ 32 := (List.mem_range.mp hi).trans tx.outputs_lt
  have hj : j < 2 ^ 32 := (List.mem_range.mp hj).trans tx.outputs_lt
  have hnat := congrArg UInt32.toNat (TransactionInput.mk.inj hij).2
  rwa [UInt32.toNat_ofNat_of_lt' hi, UInt32.toNat_ofNat_of_lt' hj] at hnat

theorem produced_outputs (hvalid : tx.txIsValid) : tx.produced.map (·.output) = tx.txOutputs := by
  rw [produced, if_pos hvalid, List.map_map]
  exact List.zipIdx_map_fst 0 tx.txOutputs

end ConwayTransaction

end Gouroboros.Ledger.Conway

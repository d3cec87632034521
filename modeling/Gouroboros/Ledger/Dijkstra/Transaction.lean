import Mathlib.Data.List.Sort
import Gouroboros.Ledger.Common.Types

/-!
# Dijkstra transactions

A Dijkstra transaction carries sub-transactions (`ledger/dijkstra/dijkstra.go`):
each level has a body of its own with inputs, outputs, certificates,
withdrawals, a mint, proposals, a donation, direct deposits and account balance
intervals; the top level also has the fee, the collateral and the starting
intervals. The levels take effect in ledger order, the sub-transactions first.

Witness sets are read only to resolve scripts, which happens outside the
modelled files, so their type `W` is a parameter.
-/

namespace Gouroboros.Ledger.Dijkstra

/-! ## Account keys -/

abbrev DijkstraDirectDeposits := GoMap ByteString UInt64

/-- A nil interval is possible in a directly constructed map. -/
abbrev DijkstraAccountBalanceIntervals := GoMap ByteString (Option DijkstraAccountBalanceInterval)

/-- `bytes.Compare`. -/
def bytesCompare : ByteString → ByteString → Ordering
  | [], [] => .eq
  | [], _ :: _ => .lt
  | _ :: _, [] => .gt
  | a :: as, b :: bs => (compare a b).then (bytesCompare as bs)

/-- Network, then script credentials before key credentials, then the hash. -/
def compareDijkstraAccountAddresses (a b : ByteString) : Ordering :=
  match a, b with
  | headerA :: restA, headerB :: restB =>
    let aScript : Bool := headerA &&& 0x10 ≠ 0
    let bScript : Bool := headerB &&& 0x10 ≠ 0
    (compare (headerA &&& 0x0f) (headerB &&& 0x0f)).then
      (if aScript ≠ bScript then (if aScript then .lt else .gt) else bytesCompare restA restB)
  | _, _ => bytesCompare a b

def sortedDijkstraAccountAddresses {V : Type} (values : GoMap ByteString V) : List ByteString :=
  values.keys.insertionSort fun a b => compareDijkstraAccountAddresses a b ≠ .gt

/-- `NewAddressFromBytes`, for the headers of reward accounts. Any other header
is rejected by it or by `RewardAccountCredential` after it. -/
def newRewardAddressFromBytes (addrBytes : ByteString) : Except LedgerError Address :=
  match addrBytes with
  | [] => .error (.message "invalid address data: empty byte slice")
  | header :: payload =>
    let addressType := (header &&& 0xf0) >>> 4
    let networkId := header &&& 0x0f
    if networkId ≠ Address.networkTestnet ∧ networkId ≠ Address.networkMainnet then
      .error (.message "invalid network ID")
    else if addressType ≠ Address.typeNoneKey ∧ addressType ≠ Address.typeNoneScript then
      .error (.message "address is not a reward account")
    else if payload.length < 28 then
      .error (.message "invalid staking payload: hash too small")
    else if 28 < payload.length then
      .error (.message "invalid address data: unexpected trailing byte(s)")
    else
      .ok
        { addressType := addressType
          networkId := networkId
          paymentPayload := none
          stakingPayload := some (
            if addressType = Address.typeNoneKey then .keyHash (newBlake2b224 payload)
            else .scriptHash (newBlake2b224 payload))
          trailingBytes := []
          byronNetwork := none }

def dijkstraAddressFromKey (key : ByteString) : Except LedgerError Address := do
  let address ← newRewardAddressFromBytes key
  let _ ← address.rewardAccountCredential
  .ok address

/-! ## Bodies -/

/-- The body of a sub-transaction. -/
structure DijkstraSubTransactionBody where
  id : Blake2b256
  txInputs : List TransactionInput
  txOutputs : List TransactionOutput
  txCertificates : List Certificate
  txWithdrawals : Option (GoMap Nat (Address × UInt64))
  txMint : Option MultiAsset
  txReferenceInputs : List TransactionInput
  txProposalProcedures : List ProposalProcedure
  txDonation : UInt64
  txDirectDeposits : DijkstraDirectDeposits
  txAccountBalanceIntervals : DijkstraAccountBalanceIntervals

/-- `dijkstraWithdrawals`. -/
def DijkstraSubTransactionBody.withdrawals (body : DijkstraSubTransactionBody) :
    Option Withdrawals :=
  body.txWithdrawals.map fun ws => ws.mapVals fun w => (w.1, some (w.2.toNat : Int))

def DijkstraSubTransactionBody.withdrawalMap (body : DijkstraSubTransactionBody) : Withdrawals :=
  body.withdrawals.getD ∅

def DijkstraSubTransactionBody.empty : DijkstraSubTransactionBody where
  id := 0
  txInputs := []
  txOutputs := []
  txCertificates := []
  txWithdrawals := none
  txMint := none
  txReferenceInputs := []
  txProposalProcedures := []
  txDonation := 0
  txDirectDeposits := ∅
  txAccountBalanceIntervals := ∅

structure DijkstraSubTransaction (W : Type) where
  body : DijkstraSubTransactionBody
  witnessSet : W

/-- The top-level body has the fields of a sub-transaction body, and more. Its
balance intervals (key 26) are called `TxBalanceIntervals` in the source. -/
structure DijkstraTransactionBody (W : Type) extends DijkstraSubTransactionBody where
  txFee : UInt64
  txCollateral : List TransactionInput
  txCollateralReturn : Option TransactionOutput
  txSubTransactions : List (DijkstraSubTransaction W)
  txStartingBalanceIntervals : DijkstraAccountBalanceIntervals

structure DijkstraTransaction (W : Type) where
  body : DijkstraTransactionBody W
  witnessSet : W
  txIsValid : Bool

/-! ## Levels -/

/-- `dijkstraConwayFeatureTransaction`: one level's body and witnesses. The fee
and the collateral are those of the body, which a sub-transaction body does not
have; of the enclosing transaction only the validity flag shows. -/
structure DijkstraLevel (W : Type) where
  isValid : Bool
  body : DijkstraSubTransactionBody
  fee : Option Int
  collateral : List TransactionInput
  witnesses : W
  withdrawalExactAmount : Option Bool

def levelUtxos (id : Blake2b256) (outputs : List TransactionOutput) : List Utxo :=
  outputs.zipIdx.map fun entry => ⟨⟨id, UInt32.ofNat entry.2⟩, entry.1⟩

/-- The methods of a level. -/
def DijkstraLevel.toTransaction {W : Type} (level : DijkstraLevel W) : Transaction where
  hash := level.body.id
  isValid := level.isValid
  inputs := level.body.txInputs
  outputs := level.body.txOutputs
  collateral := level.collateral
  referenceInputs := level.body.txReferenceInputs
  consumed := if level.isValid then level.body.txInputs else level.collateral
  produced := levelUtxos level.body.id level.body.txOutputs
  certificates := level.body.txCertificates
  withdrawals := level.body.withdrawals
  assetMint := level.body.txMint
  fee := level.fee
  donation := some level.body.txDonation.toNat
  proposalProcedures := level.body.txProposalProcedures
  withdrawalRequiresExactAmount := level.withdrawalExactAmount
  ledgerEffectLevels := none

namespace DijkstraTransaction

variable {W : Type} (tx : DijkstraTransaction W)

def subLevel (sub : DijkstraSubTransaction W) : DijkstraLevel W where
  isValid := tx.txIsValid
  body := sub.body
  fee := none
  collateral := []
  witnesses := sub.witnessSet
  withdrawalExactAmount := none

def topLevel : DijkstraLevel W where
  isValid := tx.txIsValid
  body := tx.body.toDijkstraSubTransactionBody
  fee := some tx.body.txFee.toNat
  collateral := tx.body.txCollateral
  witnesses := tx.witnessSet
  withdrawalExactAmount := none

/-- `dijkstraTransactionLevels`: the sub-transactions in order, then the top
level. -/
def levels : List (DijkstraLevel W) := tx.body.txSubTransactions.map tx.subLevel ++ [tx.topLevel]

def bodies : List DijkstraSubTransactionBody :=
  tx.body.txSubTransactions.map (·.body) ++ [tx.body.toDijkstraSubTransactionBody]

@[simp] theorem map_body_levels : tx.levels.map (·.body) = tx.bodies := by
  simp [levels, bodies, subLevel, topLevel]

/-- The inputs of every level in ledger order, or the collateral. -/
def consumed : List TransactionInput :=
  if tx.txIsValid then tx.bodies.flatMap (·.txInputs) else tx.body.txCollateral

/-- The outputs of every level in ledger order, or the collateral return. -/
def produced : List Utxo :=
  if tx.txIsValid then tx.bodies.flatMap fun body => levelUtxos body.id body.txOutputs
  else
    match tx.body.txCollateralReturn with
    | none => []
    | some output => [⟨⟨tx.body.id, UInt32.ofNat tx.body.txOutputs.length⟩, output⟩]

/-- One entry of `dijkstraLedgerDirectDeposits`. -/
def ledgerDirectDeposit (deposits : DijkstraDirectDeposits) (key : ByteString) :
    Except LedgerError DirectDeposit := do
  let address ← dijkstraAddressFromKey key
  let credential ← address.rewardAccountCredential
  .ok ⟨credential, (deposits.lookup key).getD 0⟩

def dijkstraLedgerDirectDeposits (deposits : DijkstraDirectDeposits) :
    Except LedgerError (List DirectDeposit) :=
  if deposits.keys.length = 0 then .ok []
  else (sortedDijkstraAccountAddresses deposits).mapM (ledgerDirectDeposit deposits)

def ledgerEffectLevel (body : DijkstraSubTransactionBody) :
    Except LedgerError LedgerEffectLevel := do
  let deposits ← dijkstraLedgerDirectDeposits body.txDirectDeposits
  .ok ⟨body.id, body.withdrawalMap, body.txCertificates, body.txProposalProcedures, deposits⟩

/-- Each sub-transaction body and then the top-level body. -/
def ledgerEffectLevels : Except LedgerError (List LedgerEffectLevel) :=
  tx.bodies.mapM ledgerEffectLevel

/-- The methods of the transaction. -/
def toTransaction : Transaction where
  hash := tx.body.id
  isValid := tx.txIsValid
  inputs := tx.body.txInputs
  outputs := tx.body.txOutputs
  collateral := tx.body.txCollateral
  referenceInputs := tx.body.txReferenceInputs
  consumed := tx.consumed
  produced := tx.produced
  certificates := tx.body.txCertificates
  withdrawals := tx.body.withdrawals
  assetMint := tx.body.txMint
  fee := some tx.body.txFee.toNat
  donation := some tx.body.txDonation.toNat
  proposalProcedures := tx.body.txProposalProcedures
  withdrawalRequiresExactAmount := none
  ledgerEffectLevels := some tx.ledgerEffectLevels

end DijkstraTransaction

end Gouroboros.Ledger.Dijkstra

import Gouroboros.Ledger.Conway.Rules
import Gouroboros.Ledger.Dijkstra.Transaction

/-!
# Dijkstra account rules

The rules that read reward accounts thread an overlay through the levels
(`ledger/dijkstra/rules.go`): each level's withdrawals, certificates and direct
deposits are applied to it before the next level is checked. The ledger state is
always present here; the source also answers for a nil one.
-/

namespace Gouroboros.Ledger.Dijkstra

/-! ## The overlay -/

structure DijkstraAccountBalance where
  registered : Bool := false
  balance : UInt64 := 0
deriving DecidableEq

/-- `dijkstraAccountStateOverlay`. Its key, credential type and hash, is a
credential. -/
structure DijkstraAccountStateOverlay where
  ledgerState : LedgerState
  accounts : GoMap Credential DijkstraAccountBalance

def newDijkstraAccountStateOverlay (ledgerState : LedgerState) : DijkstraAccountStateOverlay :=
  ⟨ledgerState, ∅⟩

namespace DijkstraAccountStateOverlay

variable (s : DijkstraAccountStateOverlay)

def set (credential : Credential) (account : DijkstraAccountBalance) :
    DijkstraAccountStateOverlay :=
  { s with accounts := s.accounts.insert credential account }

/-- An account of the ledger state: registered when it has a balance. -/
def ofBalance (balance : Option UInt64) : DijkstraAccountBalance :=
  match balance with
  | none => {}
  | some balance => ⟨true, balance⟩

/-- The account, and the overlay with it cached. -/
def account (credential : Credential) :
    Except LedgerError (DijkstraAccountBalance × DijkstraAccountStateOverlay) :=
  match s.accounts.lookup credential with
  | some account => .ok (account, s)
  | none => do
      let balance ← s.ledgerState.rewardAccountBalance credential
      .ok (ofBalance balance, s.set credential (ofBalance balance))

/-- `RewardAccountBalance` of `dijkstraRewardAccountStateView`. What `account`
caches on the way changes no later answer. -/
def rewardAccountBalance (credential : Credential) : Except LedgerError (Option UInt64) := do
  let (account, _) ← s.account credential
  .ok (if account.registered then some account.balance else none)

/-- `dijkstraRewardAccountStateView`: the ledger state with the overlay's
balances. The wrapper offers the methods of the ledger state and none of its
optional capabilities. -/
def rewardAccountStateView : LedgerState :=
  { s.ledgerState with
    rewardAccountBalance := s.rewardAccountBalance
    epochForSlot? := none
    isFutureVrfKeyInUse? := none
    stakeCredentialDeposit? := none
    dRepDelegation? := none
    pendingInstantaneousRewards? := none
    committeeCredential? := none
    committeeVoting? := none
    blocks := [] }

end DijkstraAccountStateOverlay

/-! ## Account addresses -/

/-- One key of `validateDijkstraAccountAddressMapKeys`. -/
def checkAccountAddressKey (field : String) (seen : List ByteString) (key : ByteString) :
    Except LedgerError (List ByteString) :=
  match dijkstraAddressFromKey key with
  | .error e => .error (.invalidRewardAccount field e)
  | .ok _ =>
    if key ∈ seen then .error (.message (field ++ " contains a duplicate reward account"))
    else .ok (key :: seen)

def validateDijkstraAccountAddressMapKeys {V : Type} (values : GoMap ByteString V)
    (field : String) : Except LedgerError Unit :=
  if values.keys.length = 0 then .error (.message (field ++ " must not be empty"))
  else do
    let _ ← values.keys.foldlM (checkAccountAddressKey field) []
    .ok ()

/-- Collects an address of another network; the source collects its text. -/
def collectWrongNetwork (networkId : Nat) (wrongNetwork : List Address) (key : ByteString) :
    Except LedgerError (List Address) := do
  let address ← dijkstraAddressFromKey key
  if address.NetworkId ≠ networkId then .ok (wrongNetwork ++ [address]) else .ok wrongNetwork

def validateDijkstraAccountAddressNetwork {V : Type} (addresses : GoMap ByteString V)
    (field : String) (networkId : Nat) : Except LedgerError Unit := do
  validateDijkstraAccountAddressMapKeys addresses field
  let wrongNetwork ← (sortedDijkstraAccountAddresses addresses).foldlM
    (collectWrongNetwork networkId) []
  if wrongNetwork.length ≠ 0 then
    .error (.wrongNetworkAccountAddresses field networkId wrongNetwork)
  else .ok ()

/-! ## Balance intervals -/

def validateDijkstraAccountBalanceInterval (interval : DijkstraAccountBalanceInterval) :
    Except LedgerError Unit :=
  if interval.exactBalance = none ∧ interval.lowerBound = none ∧ interval.upperBound = none then
    .error (.message "dijkstra account balance interval requires a lower or upper bound")
  else .ok ()

def dijkstraAccountBalanceIntervalContains (balance : UInt64)
    (interval : DijkstraAccountBalanceInterval) : Bool :=
  match interval.exactBalance with
  | some exactBalance => balance == exactBalance
  | none =>
    if interval.lowerBound = none ∧ interval.upperBound = none then false
    else
      !interval.lowerBound.any (fun lower => balance < lower) &&
        !interval.upperBound.any (fun upper => upper ≤ balance)

/-- The failures found so far: accounts that are not registered, and balances
outside their interval. -/
structure IntervalFailures where
  missing : List Credential := []
  outside : List AccountBalanceIntervalMismatch := []

def checkInterval (intervals : DijkstraAccountBalanceIntervals)
    (acc : IntervalFailures × DijkstraAccountStateOverlay) (key : ByteString) :
    Except LedgerError (IntervalFailures × DijkstraAccountStateOverlay) :=
  match (intervals.lookup key).join with
  | none => .error (.message "account balance intervals contains a nil interval")
  | some interval => do
      validateDijkstraAccountBalanceInterval interval
      let address ← dijkstraAddressFromKey key
      let credential ← address.rewardAccountCredential
      let (account, state) ← acc.2.account credential
      if !account.registered then
        .ok ({ acc.1 with missing := acc.1.missing ++ [credential] }, state)
      else if !dijkstraAccountBalanceIntervalContains account.balance interval then
        .ok ({ acc.1 with outside := acc.1.outside ++ [⟨credential, account.balance, interval⟩] },
          state)
      else .ok (acc.1, state)

/-- `dijkstraCompareCredentials`. A hash holds its bytes most significant first,
so comparing hashes is comparing their bytes. -/
def dijkstraCompareCredentials (a b : Credential) : Ordering :=
  (compare a.credType b.credType).then (compare a.credential.toNat b.credential.toNat)

def sortCredentials {α : Type} (credential : α → Credential) (l : List α) : List α :=
  l.insertionSort fun a b => dijkstraCompareCredentials (credential a) (credential b) ≠ .gt

/-- Missing accounts are reported before balances out of range. -/
def reportIntervalFailures (failures : IntervalFailures) (starting : Bool) :
    Except LedgerError Unit :=
  if failures.missing ≠ [] then
    .error (.missingAccountsInBalanceIntervals (sortCredentials id failures.missing) starting)
  else if failures.outside ≠ [] then
    .error (.balancesOutsideAccountBalanceIntervals
      (sortCredentials AccountBalanceIntervalMismatch.credential failures.outside) starting)
  else .ok ()

def validateDijkstraAccountBalanceIntervals (intervals : DijkstraAccountBalanceIntervals)
    (networkId : Nat) (starting : Bool) (state : DijkstraAccountStateOverlay) :
    Except LedgerError DijkstraAccountStateOverlay :=
  if intervals.keys.length = 0 then .ok state
  else do
    let field :=
      if starting then "starting account balance intervals" else "account balance intervals"
    validateDijkstraAccountAddressNetwork intervals field networkId
    let (failures, state) ← (sortedDijkstraAccountAddresses intervals).foldlM
      (checkInterval intervals) ({}, state)
    reportIntervalFailures failures starting
    .ok state

/-! ## Applying a level -/

/-- One withdrawal of `dijkstraApplyAccountWithdrawals`: an account that is not
registered or does not hold the amount is left alone. -/
def dijkstraApplyAccountWithdrawal (state : DijkstraAccountStateOverlay)
    (withdrawal : Address × Option Int) : Except LedgerError DijkstraAccountStateOverlay :=
  match withdrawal.2 with
  | none => .ok state
  | some amount => do
      let credential ← withdrawal.1.rewardAccountCredential
      let (account, state) ← state.account credential
      if !account.registered then .ok state
      else
        match uint64? amount with
        | none => .ok state
        | some amount =>
          if account.balance < amount then .ok state
          else .ok (state.set credential { account with balance := account.balance - amount })

def dijkstraApplyAccountWithdrawals (body : DijkstraSubTransactionBody)
    (state : DijkstraAccountStateOverlay) : Except LedgerError DijkstraAccountStateOverlay :=
  body.withdrawalMap.values.foldlM dijkstraApplyAccountWithdrawal state

/-- The credential a certificate registers or deregisters. -/
def accountChange : Certificate → Option (Credential × Bool)
  | .stakeRegistration credential => some (credential, true)
  | .registration credential _ => some (credential, true)
  | .stakeRegistrationDelegation credential _ _ => some (credential, true)
  | .voteRegistrationDelegation credential _ _ => some (credential, true)
  | .stakeVoteRegistrationDelegation credential _ _ _ => some (credential, true)
  | .stakeDeregistration credential => some (credential, false)
  | .deregistration credential _ => some (credential, false)
  | _ => none

def dijkstraApplyAccountCertificate (state : DijkstraAccountStateOverlay) (cert : Certificate) :
    DijkstraAccountStateOverlay :=
  match accountChange cert with
  | some (credential, registered) => state.set credential { registered := registered }
  | none => state

def dijkstraApplyAccountCertificates (body : DijkstraSubTransactionBody)
    (state : DijkstraAccountStateOverlay) : DijkstraAccountStateOverlay :=
  body.txCertificates.foldl dijkstraApplyAccountCertificate state

def resolveDeposit
    (acc : (GoMap ByteString Credential × List Credential) × DijkstraAccountStateOverlay)
    (key : ByteString) :
    Except LedgerError ((GoMap ByteString Credential × List Credential) ×
      DijkstraAccountStateOverlay) := do
  let address ← dijkstraAddressFromKey key
  let credential ← address.rewardAccountCredential
  let (account, state) ← acc.2.account credential
  .ok ((acc.1.1.insert key credential,
    if !account.registered then acc.1.2 ++ [credential] else acc.1.2), state)

/-- The second loop: one deposit, unless it overflows the balance. -/
def creditDeposit (credentials : GoMap ByteString Credential) (state : DijkstraAccountStateOverlay)
    (deposit : ByteString × UInt64) : Except LedgerError DijkstraAccountStateOverlay := do
  let credential := (credentials.lookup deposit.1).getD default
  let (account, state) ← state.account credential
  if UInt64.ofNat (2 ^ 64 - 1) - account.balance < deposit.2 then
    .error (.message "direct deposit overflows reward account balance")
  else .ok (state.set credential { account with balance := account.balance + deposit.2 })

def dijkstraApplyDirectDeposits (deposits : DijkstraDirectDeposits) (networkId : Nat)
    (state : DijkstraAccountStateOverlay) : Except LedgerError DijkstraAccountStateOverlay :=
  if deposits.keys.length = 0 then .ok state
  else do
    validateDijkstraAccountAddressNetwork deposits "direct deposits" networkId
    let ((credentials, missing), state) ←
      (sortedDijkstraAccountAddresses deposits).foldlM resolveDeposit ((∅, []), state)
    if missing ≠ [] then
      .error (.directDepositAccountsMissing (sortCredentials id missing))
    else deposits.toPairs.foldlM (creditDeposit credentials) state

/-- The address check that `dijkstraApplyAccountLevel` makes before anything
else; the check of an empty map fails and is ignored. -/
def checkDirectDepositAddresses (deposits : DijkstraDirectDeposits) (networkId : Nat) :
    Except LedgerError Unit :=
  if deposits.keys.length = 0 then .ok ()
  else validateDijkstraAccountAddressNetwork deposits "direct deposits" networkId

def dijkstraApplyAccountLevel (networkId : Nat) (state : DijkstraAccountStateOverlay)
    (body : DijkstraSubTransactionBody) : Except LedgerError DijkstraAccountStateOverlay := do
  checkDirectDepositAddresses body.txDirectDeposits networkId
  let state ← dijkstraApplyAccountWithdrawals body state
  let state := dijkstraApplyAccountCertificates body state
  dijkstraApplyDirectDeposits body.txDirectDeposits networkId state

/-! ## The rules -/

variable {W : Type}

/-- One sub-transaction of `UtxoValidateAccountBalanceIntervals`. -/
def validateSubTransactionAccounts (networkId : Nat) (state : DijkstraAccountStateOverlay)
    (sub : DijkstraSubTransaction W) : Except LedgerError DijkstraAccountStateOverlay := do
  checkDirectDepositAddresses sub.body.txDirectDeposits networkId
  let state ← validateDijkstraAccountBalanceIntervals sub.body.txAccountBalanceIntervals networkId
    false state
  dijkstraApplyAccountLevel networkId state sub.body

def utxoValidateAccountBalanceIntervals (tx : DijkstraTransaction W) (ls : LedgerState) :
    Except LedgerError Unit := do
  let networkId := ls.networkId
  let state ← tx.body.txSubTransactions.foldlM (validateSubTransactionAccounts networkId)
    (newDijkstraAccountStateOverlay ls)
  checkDirectDepositAddresses tx.body.txDirectDeposits networkId
  let state ← validateDijkstraAccountBalanceIntervals tx.body.txAccountBalanceIntervals networkId
    false state
  let _ ← validateDijkstraAccountBalanceIntervals tx.body.txStartingBalanceIntervals networkId true
    (newDijkstraAccountStateOverlay ls)
  let _ ← dijkstraApplyAccountLevel networkId state tx.body.toDijkstraSubTransactionBody
  .ok ()

/-- Only a phase-2-valid transaction applies its withdrawals. -/
def utxoValidateWrongNetworkWithdrawal (tx : DijkstraTransaction W) (ls : LedgerState) :
    Except LedgerError Unit :=
  if !tx.txIsValid then .ok ()
  else tx.levels.forM fun level => Shelley.utxoValidateWrongNetworkWithdrawal level.toTransaction ls

section Withdrawals

variable (newTxScriptView : W → Transaction → LedgerState → TxScriptView × Option LedgerError)
  (dijkstraWitnessRuleLevels : DijkstraTransaction W → LedgerState →
    Except LedgerError (List TxScriptView))

/-- Some level needs a Plutus script before V4. -/
def dijkstraLegacyWithdrawalMode (tx : DijkstraTransaction W) (ls : LedgerState) :
    Except LedgerError Bool := do
  let views ← dijkstraWitnessRuleLevels tx ls
  .ok (views.any fun view => view.needsAny fun s => (plutusScriptVersion s).any (· ≤ 2))

/-- One level: the Conway rule on the accounts left by the earlier levels, then
the level's own effects. -/
def validateLevelWithdrawals (pp : ProtocolParameters) (networkId : Nat)
    (state : DijkstraAccountStateOverlay) (level : DijkstraLevel W) :
    Except LedgerError DijkstraAccountStateOverlay := do
  Conway.utxoValidateWithdrawals (newTxScriptView level.witnesses) level.toTransaction
    state.rewardAccountStateView pp
  dijkstraApplyAccountLevel networkId state level.body

def levelsWithMode (tx : DijkstraTransaction W) (legacyWithdrawalMode : Bool) :
    List (DijkstraLevel W) :=
  (tx.body.txSubTransactions.map fun sub =>
    { tx.subLevel sub with withdrawalExactAmount := some false }) ++
  [{ tx.topLevel with withdrawalExactAmount := some legacyWithdrawalMode }]

def utxoValidateWithdrawals (tx : DijkstraTransaction W) (ls : LedgerState)
    (pp : ProtocolParameters) : Except LedgerError Unit :=
  if !tx.txIsValid then .ok ()
  else if !tx.levels.any (fun level => 0 < level.toTransaction.withdrawalMap.keys.length) then
    .ok ()
  else do
    let legacyWithdrawalMode ← dijkstraLegacyWithdrawalMode dijkstraWitnessRuleLevels tx ls
    let _ ← (levelsWithMode tx legacyWithdrawalMode).foldlM
      (validateLevelWithdrawals newTxScriptView pp ls.networkId)
      (newDijkstraAccountStateOverlay ls)
    .ok ()

end Withdrawals

end Gouroboros.Ledger.Dijkstra

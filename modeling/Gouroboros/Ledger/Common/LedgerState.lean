import Gouroboros.Ledger.Common.Types

/-!
# Ledger state

The queries the rules make on a ledger state (`ledger/common/state.go`), and
the maps a block-scoped view keeps over one (`ledger/common/block_state.go`).

A ledger state is the record of its query functions, so a provider is an
arbitrary set of answers. The optional capabilities are found in the source by
walking the adapters around the provider; here they are fields:

* `epochForSlot?` and `isFutureVrfKeyInUse?` are what
  `ledgerStateCapabilityFor` finds, the first adapter that implements them;
* `stakeCredentialDeposit?`, `dRepDelegation?`, `pendingInstantaneousRewards?`,
  `committeeCredential?` and `committeeVoting?` are those of the innermost
  provider that `UnwrapLedgerState` returns;
* `blocks` are the block-scoped views of `blockLedgerStateChain`, from the
  outermost to the innermost.
-/

namespace Gouroboros.Ledger

/-! ## The maps of a block-scoped view -/

/-- A stake credential's account as earlier transactions in the block left it.
Each part is known only once a certificate or withdrawal set it. -/
structure BlockAccount where
  registered : Bool := false
  registeredKnown : Bool := false
  deposit : UInt64 := 0
  depositKnown : Bool := false
  balance : UInt64 := 0
  balanceKnown : Bool := false
  drep : Option Drep := none
  drepKnown : Bool := false
  drepSeq : UInt64 := 0
deriving DecidableEq

/-- A pool as earlier transactions in the block left it. A re-registration only
sets `future`. -/
structure BlockPool where
  registration : Option PoolRegistrationCertificate := none
  registrationKnown : Bool := false
  future : Option PoolRegistrationCertificate := none
  retirementEpoch : Option UInt64 := none
  retirementKnown : Bool := false
deriving DecidableEq

structure BlockDRep where
  registration : Option DRepRegistration := none
  deregSeq : UInt64 := 0
deriving DecidableEq

/-- The maps of a `BlockLedgerState`, without the state it wraps. -/
structure BlockOverlay where
  seq : UInt64 := 0
  spent : GoMap TransactionInput Unit := ∅
  created : GoMap TransactionInput Utxo := ∅
  accounts : GoMap Credential BlockAccount := ∅
  pools : GoMap PoolKeyHash BlockPool := ∅
  vrfKeys : GoMap Blake2b256 PoolKeyHash := ∅
  vrfReleased : GoMap Blake2b256 Unit := ∅
  dreps : GoMap Credential BlockDRep := ∅
  committeeColdHot : GoMap Credential (Option Credential) := ∅
  proposals : GoMap GovActionId GovActionState := ∅
  mirPending : GoMap (Nat × Credential) Int := ∅

/-! ## Queries -/

abbrev StakeCredentialDepositState := Credential → Except LedgerError (Option UInt64)

abbrev DRepDelegationState := Credential → Except LedgerError (Option Drep)

/-- The owner of a VRF key, absent when the key is not in use. -/
abbrev VrfKeyIndex := Blake2b256 → Except LedgerError (Option PoolKeyHash)

/-- What a credential is owed from a pot, absent when nothing is pending. -/
abbrev PendingInstantaneousRewardsState := Nat → Credential → Except LedgerError (Option Int)

/-- The order of a loop over the committee's hot keys. -/
abbrev CommitteeOrder := GoMap.RangeOrder Credential (Option Credential)

/-- The orders of the loops that one query makes, the first loop's first. -/
abbrev CommitteeOrders := Nat → CommitteeOrder

structure CommitteeCredentialState where
  committeeStateAvailable : Except LedgerError Bool
  committeeCredentialMember : Credential → Except LedgerError (Option CommitteeMember)
  committeeHotCredentialMember : Credential → Except LedgerError (Option CommitteeMember)

structure CommitteeVotingState where
  committeeHotCredentialColdCredentials : Credential → Except LedgerError (List Credential)
  committeeCredentialIsElected : Credential → Except LedgerError Bool

/-- The answers of a ledger state. `poolCurrentState` returns the registration
and the pending retirement epoch. `committeeMember` is given the orders of its
loops, which a block-scoped view has. -/
structure LedgerState where
  utxoById : TransactionInput → Except LedgerError Utxo
  isStakeCredentialRegistered : Credential → Bool
  rewardAccountBalance : Credential → Except LedgerError (Option UInt64)
  poolCurrentState : PoolKeyHash →
    Except LedgerError (Option PoolRegistrationCertificate × Option UInt64)
  isPoolRegistered : PoolKeyHash → Bool
  isVrfKeyInUse : VrfKeyIndex
  dRepRegistration : Credential → Except LedgerError (Option DRepRegistration)
  dRepRegistrations : Except LedgerError (List DRepRegistration)
  govActionById : GovActionId → Except LedgerError (Option GovActionState)
  committeeMember : CommitteeOrders → Blake2b224 → Except LedgerError (Option CommitteeMember)
  networkId : Nat
  epochForSlot? : Option (UInt64 → Except LedgerError UInt64)
  isFutureVrfKeyInUse? : Option VrfKeyIndex
  stakeCredentialDeposit? : Option StakeCredentialDepositState
  dRepDelegation? : Option DRepDelegationState
  pendingInstantaneousRewards? : Option PendingInstantaneousRewardsState
  committeeCredential? : Option CommitteeCredentialState
  committeeVoting? : Option CommitteeVotingState
  blocks : List BlockOverlay

/-- A provider with every capability and nothing on record, in epoch 0. -/
def LedgerState.empty : LedgerState where
  utxoById := fun _ => .error (.provider "utxo not found")
  isStakeCredentialRegistered := fun _ => false
  rewardAccountBalance := fun _ => .ok none
  poolCurrentState := fun _ => .ok (none, none)
  isPoolRegistered := fun _ => false
  isVrfKeyInUse := fun _ => .ok none
  dRepRegistration := fun _ => .ok none
  dRepRegistrations := .ok []
  govActionById := fun _ => .ok none
  committeeMember := fun _ _ => .ok none
  networkId := 0
  epochForSlot? := some fun _ => .ok 0
  isFutureVrfKeyInUse? := some fun _ => .ok none
  stakeCredentialDeposit? := some fun _ => .ok none
  dRepDelegation? := some fun _ => .ok none
  pendingInstantaneousRewards? := some fun _ _ => .ok none
  committeeCredential? := some
    { committeeStateAvailable := .ok true
      committeeCredentialMember := fun _ => .ok none
      committeeHotCredentialMember := fun _ => .ok none }
  committeeVoting? := some
    { committeeHotCredentialColdCredentials := fun _ => .ok []
      committeeCredentialIsElected := fun _ => .ok false }
  blocks := []

/-- A block's recorded deposits over those of the state it wraps. -/
def blockStakeCredentialDeposits (block : BlockOverlay) (base : StakeCredentialDepositState) :
    StakeCredentialDepositState := fun cred =>
  match block.accounts.lookup cred with
  | none => base cred
  | some account =>
    if !account.depositKnown then base cred
    else if !account.registered then .ok none
    else .ok (some account.deposit)

/-- The provider's deposits with every block-scoped view applied, the innermost first. -/
def stakeCredentialDepositStateFor (ls : LedgerState) : Option StakeCredentialDepositState :=
  ls.stakeCredentialDeposit?.map fun base => ls.blocks.foldr blockStakeCredentialDeposits base

/-- The recorded deposit when the ledger state can report it. -/
def stakeCredentialDepositOrDefault (ls : LedgerState) (cred : Credential) (fallback : UInt64) :
    Except LedgerError UInt64 :=
  match stakeCredentialDepositStateFor ls with
  | none => .ok fallback
  | some depositState => do
      match ← depositState cred with
      | none => .ok fallback
      | some deposit => .ok deposit

/-- A block's vote delegations over the provider's. A delegation to a DRep that
deregistered after it was made is cleared. -/
def blockDRepDelegations (block : BlockOverlay) (base : DRepDelegationState) :
    DRepDelegationState := fun cred => do
  let known := (block.accounts.lookup cred).filter (·.drepKnown)
  let (drep, madeAt) ←
    match known with
    | some account => Except.ok (account.drep, account.drepSeq)
    | none => do
        let drep ← base cred
        Except.ok (drep, (0 : UInt64))
  match drep with
  | none => .ok none
  | some d =>
    if (d.type ≠ drepTypeAddrKeyHash ∧ d.type ≠ drepTypeScriptHash) ∨
        d.credential.length ≠ 28 then
      .ok (some d)
    else
      match block.dreps.lookup ⟨d.type.toNat, newBlake2b224 d.credential⟩ with
      | some state => if madeAt < state.deregSeq then .ok none else .ok (some d)
      | none => .ok (some d)

/-- Only the outermost block-scoped view is applied. -/
def dRepDelegationStateFor (ls : LedgerState) : Option DRepDelegationState :=
  ls.dRepDelegation?.map fun base =>
    match ls.blocks with
    | [] => base
    | block :: _ => blockDRepDelegations block base

/-- The provider's and those of the outermost block-scoped view, with whether the provider knows
them. -/
def pendingInstantaneousRewardsFor (ls : LedgerState) (source : Nat) (cred : Credential) :
    Except LedgerError (Int × Bool) := do
  let pending ←
    match ls.pendingInstantaneousRewards? with
    | some base => do
        let pending ← base source cred
        Except.ok (pending.getD 0)
    | none => Except.ok 0
  let delta :=
    match ls.blocks with
    | block :: _ => (block.mirPending.lookup (source, cred)).getD 0
    | [] => 0
  .ok (pending + delta, ls.pendingInstantaneousRewards?.isSome)

/-! ### The committee -/

/-- The first entry that the loop finds, by the hash of the cold key alone. -/
def applyCommitteeAuthorization (order : CommitteeOrder) (block : BlockOverlay)
    (member : CommitteeMember) : CommitteeMember :=
  match (block.committeeColdHot.range order).find? fun entry =>
    entry.1.credential = member.coldKey with
  | none => member
  | some (_, none) => { member with hotKey := none, resigned := true }
  | some (_, some hot) => { member with hotKey := some hot.credential, resigned := false }

/-- No order counts here: the loop only looks for an entry. -/
def coldCredentialTouched (block : BlockOverlay) (coldHash : Blake2b224) : Bool :=
  block.committeeColdHot.keys.any fun cold => cold.credential = coldHash

/-- The cold credentials that the block left authorizing `hot`. -/
def coldCredentialsFor (order : CommitteeOrder) (block : BlockOverlay) (hot : Credential) :
    List Credential :=
  ((block.committeeColdHot.range order).filter fun entry => entry.2 = some hot).map Prod.fst

def blockCommitteeCredentialMember (order : CommitteeOrder) (block : BlockOverlay)
    (base : CommitteeCredentialState) (cold : Credential) :
    Except LedgerError (Option CommitteeMember) := do
  let member ← base.committeeCredentialMember cold
  .ok (member.map (applyCommitteeAuthorization order block))

/-- The first of `colds` that is a member, each looked up by a loop of its own. -/
def firstCommitteeMember (lookup : Nat → Credential → Except LedgerError (Option CommitteeMember)) :
    Nat → List Credential → Except LedgerError (Option CommitteeMember)
  | _, [] => .ok none
  | loop, cold :: colds => do
      match ← lookup loop cold with
      | some member => .ok (some member)
      | none => firstCommitteeMember lookup (loop + 1) colds

/-- A block's committee certificates over the provider's members. -/
def blockCommitteeCredentials (orders : CommitteeOrders) (block : BlockOverlay)
    (base : CommitteeCredentialState) : CommitteeCredentialState where
  committeeStateAvailable := base.committeeStateAvailable
  committeeCredentialMember := blockCommitteeCredentialMember (orders 0) block base
  committeeHotCredentialMember := fun hot => do
    match ← firstCommitteeMember (fun loop => blockCommitteeCredentialMember (orders loop) block base)
      1 (coldCredentialsFor (orders 0) block hot) with
    | some member => .ok (some member)
    | none => do
        -- The provider may have found `hot` through a cold credential that the block moved.
        let member ← base.committeeHotCredentialMember hot
        .ok (member.filter fun member => !coldCredentialTouched block member.coldKey)

/-- Only the outermost block-scoped view is applied. -/
def committeeCredentialStateFor (orders : CommitteeOrders) (ls : LedgerState) :
    Option CommitteeCredentialState :=
  ls.committeeCredential?.map fun base =>
    match ls.blocks with
    | [] => base
    | block :: _ => blockCommitteeCredentials orders block base

/-- A block's committee certificates over the provider's authorizations. -/
def blockCommitteeVoting (order : CommitteeOrder) (block : BlockOverlay)
    (base : CommitteeVotingState) : CommitteeVotingState where
  committeeHotCredentialColdCredentials := fun hot => do
    let baseColds ← base.committeeHotCredentialColdCredentials hot
    .ok (coldCredentialsFor order block hot ++
      baseColds.filter fun cold => (block.committeeColdHot.lookup cold).isNone)
  committeeCredentialIsElected := base.committeeCredentialIsElected

/-- Only the outermost block-scoped view is applied. -/
def committeeVotingStateFor (order : CommitteeOrder) (ls : LedgerState) :
    Option CommitteeVotingState :=
  ls.committeeVoting?.map fun base =>
    match ls.blocks with
    | [] => base
    | block :: _ => blockCommitteeVoting order block base

/-! ### Pool deposits -/

/-- A registration pays the pool deposit when the pool is not currently registered, a pool whose
retirement epoch the current epoch has reached included. -/
def poolRegistrationDepositDue (ls : LedgerState) (slot : UInt64) (operator : PoolKeyHash) :
    Except LedgerError Bool := do
  let (reg, retirementEpoch) ← ls.poolCurrentState operator
  match reg, retirementEpoch with
  | none, _ => .ok true
  | some _, none => .ok false
  | some _, some retirementEpoch =>
    match ls.epochForSlot? with
    | none => .error .epochStateUnavailable
    | some epochForSlot => do
        let currentEpoch ← epochForSlot slot
        .ok (decide (retirementEpoch ≤ currentEpoch))

/-! ## Covered withdrawals -/

/-- A withdrawal that its reward account covers, by the balances `answer`
gives. -/
structure Covers (answer : Credential → Except LedgerError (Option UInt64))
    (w : Address × Option Int) (cred : Credential) (amount balance : UInt64) : Prop where
  credential_eq : w.1.rewardAccountCredential = .ok cred
  balance_eq : answer cred = .ok (some balance)
  amount_eq : w.2.bind uint64? = some amount
  le : amount ≤ balance

def WithdrawalInRange (answer : Credential → Except LedgerError (Option UInt64))
    (w : Address × Option Int) : Prop :=
  ∃ cred amount balance, Covers answer w cred amount balance

theorem Covers.value_eq {answer : Credential → Except LedgerError (Option UInt64)}
    {w : Address × Option Int} {cred : Credential} {amount balance : UInt64}
    (h : Covers answer w cred amount balance) : w.2.getD 0 = amount.toNat := by
  obtain ⟨n, hn, hu⟩ := Option.bind_eq_some_iff.mp h.amount_eq
  rw [hn]
  exact (toNat_of_uint64? hu).symm

end Gouroboros.Ledger

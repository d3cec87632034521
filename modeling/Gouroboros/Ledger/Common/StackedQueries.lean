import Gouroboros.Ledger.Common.StackedCommittee
import Gouroboros.Ledger.Common.StackedPools

/-!
# The queries of stacked views

Which queries of a validation rule answer the same on `outer` as on `flat`: those that the
views forward to one another do after every two lists of transactions, `CommitteeMember` when no
two cold credentials share a hash. Vote delegations, pending rewards and the committee's
capabilities are read off the outermost view only, so they do when the inner list leaves them
alone, and the VRF indexes do when the two lists share no pool and no key.
-/

namespace Gouroboros.Ledger

open ExceptFold

def Certificate.touchesDelegations : Certificate → Bool
  | .stakeRegistration _ | .registration _ _ | .stakeRegistrationDelegation _ _ _
  | .voteRegistrationDelegation _ _ _ | .stakeVoteRegistrationDelegation _ _ _ _
  | .stakeDeregistration _ | .deregistration _ _ | .voteDelegation _ _
  | .stakeVoteDelegation _ _ _ | .deregistrationDrep _ _ => true
  | _ => false

def Certificate.isMoveInstantaneousRewards : Certificate → Bool
  | .moveInstantaneousRewards _ _ => true
  | _ => false

def Certificate.poolRegistration? : Certificate → Option PoolRegistrationCertificate
  | .poolRegistration cert => some cert
  | _ => none

/-! ## Delegations that a list of transactions leaves alone -/

namespace EagerState

def SameDelegations (s s' : EagerState) : Prop :=
  ∀ c, (s'.account c).delegation = (s.account c).delegation

variable {s s' : EagerState}

theorem SameDelegations.trans {s'' : EagerState} (h : SameDelegations s s')
    (h' : SameDelegations s' s'') : SameDelegations s s'' :=
  fun c => (h' c).trans (h c)

theorem sameDelegations_setBalance (s : EagerState) (cred : Credential) (balance : Option UInt64) :
    SameDelegations s (s.setBalance cred balance) := by
  intro c
  unfold setBalance
  rw [account_setAccount]
  split
  · rename_i hc
    rw [hc]
  · rfl

theorem sameDelegations_applyCertificate {pp : ProtocolParameters} {cert : Certificate}
    (hcert : cert.touchesDelegations = false) (h : s.applyCertificate pp cert = .ok s') :
    SameDelegations s s' := by
  cases cert with
  | stakeRegistration _ | registration _ _ | stakeRegistrationDelegation _ _ _
  | voteRegistrationDelegation _ _ _ | stakeVoteRegistrationDelegation _ _ _ _
  | stakeDeregistration _ | deregistration _ _ | voteDelegation _ _
  | stakeVoteDelegation _ _ _ | deregistrationDrep _ _ => exact absurd hcert.symm Bool.false_ne_true
  | updateDrep cred anchor =>
    obtain ⟨registration, -, h⟩ := bind_eq_ok.mp h
    cases h
    exact fun _ => rfl
  | _ =>
    cases h
    exact fun _ => rfl

theorem sameDelegations_applyTransactions {txs : List (Transaction × ProtocolParameters)}
    (hcerts : ∀ cert ∈ BlockLedgerState.blockCertificates txs, cert.touchesDelegations = false)
    (h : s.applyTransactions txs = .ok s') : SameDelegations s s' := by
  refine applyTransactions_invariant (P := SameDelegations s) (fun t cred balance ht => ?_)
    (fun pp t t' cert hmem ht hc => ?_) (fun _ => rfl) h
  · exact ht.trans (sameDelegations_setBalance t cred balance)
  · exact ht.trans (sameDelegations_applyCertificate (hcerts cert hmem) hc)

end EagerState

/-! ## The views at the boundary -/

namespace BlockLedgerState

variable {b b₁ b₂ inner outer flat : BlockLedgerState} {base : LedgerState}
  {s₁ s₂ : List (Transaction × ProtocolParameters)}

theorem Alike.symm (h : Alike b₁ b₂) : Alike b₂ b₁ :=
  ⟨⟨fun c => (h.account c).symm, fun c => (h.drep c).symm, fun p => (h.pool p).symm,
    fun p => (h.poolRegistered p).symm⟩, h.right, h.left⟩

theorem orderly_newBlockLedgerState (base : LedgerState) : Orderly (newBlockLedgerState base) :=
  ⟨nofun, nofun⟩

theorem alike_newBlockLedgerState (base : LedgerState) :
    Alike (newBlockLedgerState base) (newBlockLedgerState base) :=
  ⟨⟨fun _ => rfl, fun _ => rfl, fun _ => rfl, fun _ => rfl⟩, orderly_newBlockLedgerState base,
    orderly_newBlockLedgerState base⟩

theorem alike_nested (h : Orderly inner) : Alike (newBlockLedgerState inner.toLedgerState) inner :=
  ⟨⟨fun _ => rfl, fun _ => rfl, fun _ => rfl, fun _ => rfl⟩, orderly_newBlockLedgerState _, h⟩

theorem applyTransactions_append :
    b.applyTransactions (s₁ ++ s₂) = b.applyTransactions s₁ >>= fun b => b.applyTransactions s₂ :=
  List.foldlM_append

theorem Follows.self {P : Certificate → Prop} {V : BlockLedgerState → BlockLedgerState → Prop}
    (hV : Follows P V) (hP : ∀ cert ∈ blockCertificates s₁, P cert)
    (hbase : V (newBlockLedgerState base) (newBlockLedgerState base))
    (hinner : (newBlockLedgerState base).applyTransactions s₁ = .ok inner) : V inner inner := by
  obtain ⟨b, hb, -, hv⟩ := hV.applyTransactions ⟨alike_newBlockLedgerState base, hbase⟩ hP hinner
  rw [hinner] at hb
  injection hb with hb
  rw [← hb] at hv
  exact hv

/-! ## Pairs of views -/

/-- `inner` applies `s₁` to `base`, `outer` applies `s₂` to `inner`, and `flat` applies both to
`base`. -/
structure Stacked (base : LedgerState) (s₁ s₂ : List (Transaction × ProtocolParameters))
    (inner outer flat : BlockLedgerState) : Prop where
  inner_eq : (newBlockLedgerState base).applyTransactions s₁ = .ok inner
  outer_eq : (newBlockLedgerState inner.toLedgerState).applyTransactions s₂ = .ok outer
  flat_eq : (newBlockLedgerState base).applyTransactions (s₁ ++ s₂) = .ok flat

namespace Stacked

theorem run (h : Stacked base s₁ s₂ inner outer flat) : inner.applyTransactions s₂ = .ok flat := by
  have hflat := h.flat_eq
  rw [applyTransactions_append, h.inner_eq] at hflat
  exact hflat

theorem orderly (hinner : (newBlockLedgerState base).applyTransactions s₁ = .ok inner) :
    Orderly inner := by
  obtain ⟨b, hb, halike, -⟩ := (follows_base base base).applyTransactions
    ⟨alike_newBlockLedgerState base, rfl, rfl⟩ (fun _ _ => trivial) hinner
  exact halike.left

theorem follow {P : Certificate → Prop} {V : BlockLedgerState → BlockLedgerState → Prop}
    (h : Stacked base s₁ s₂ inner outer flat) (hV : Follows P V)
    (hP : ∀ cert ∈ blockCertificates s₂, P cert)
    (hstart : V (newBlockLedgerState inner.toLedgerState) inner) : Alike outer flat ∧ V outer flat := by
  obtain ⟨b, hb, hend⟩ := hV.applyTransactions ⟨alike_nested (orderly h.inner_eq), hstart⟩ hP h.outer_eq
  rw [h.run] at hb
  injection hb with hb
  rw [← hb] at hend
  exact hend

theorem wraps (h : Stacked base s₁ s₂ inner outer flat) :
    inner.base = base ∧ outer.base = inner.toLedgerState ∧ flat.base = base := by
  have hinner : inner.base = base ∧ inner.base = base :=
    (follows_base base base).self (fun _ _ => trivial) ⟨rfl, rfl⟩ h.inner_eq
  obtain ⟨houter, hflat⟩ := (h.follow (follows_base inner.toLedgerState base) (fun _ _ => trivial)
    ⟨rfl, hinner.1⟩).2
  exact ⟨hinner.1, houter, hflat⟩

end Stacked

theorem exists_outer_iff (hinner : (newBlockLedgerState base).applyTransactions s₁ = .ok inner) :
    (∃ outer, (newBlockLedgerState inner.toLedgerState).applyTransactions s₂ = .ok outer) ↔
      ∃ flat, (newBlockLedgerState base).applyTransactions (s₁ ++ s₂) = .ok flat := by
  have halike := alike_nested (Stacked.orderly hinner)
  have hfollows : Follows (fun _ => True) fun _ _ : BlockLedgerState => True :=
    ⟨fun _ _ _ _ => trivial, fun _ _ _ => trivial, fun _ _ => trivial,
      fun _ _ _ _ _ _ _ => trivial⟩
  rw [applyTransactions_append, hinner]
  constructor
  · rintro ⟨outer, houter⟩
    obtain ⟨flat, hflat, -⟩ := hfollows.applyTransactions ⟨halike, trivial⟩ (fun _ _ => trivial)
      houter
    exact ⟨flat, hflat⟩
  · rintro ⟨flat, hflat⟩
    obtain ⟨outer, houter, -⟩ := hfollows.applyTransactions ⟨halike.symm, trivial⟩
      (fun _ _ => trivial) hflat
    exact ⟨outer, houter⟩

/-! ## What the capabilities read -/

theorem stakeCredentialDepositStateFor_congr
    (hprovider : b₁.base.stakeCredentialDeposit? = b₂.base.stakeCredentialDeposit?)
    (hanswer : ∀ c, b₁.accountAnswer c = b₂.accountAnswer c) :
    stakeCredentialDepositStateFor b₁.toLedgerState =
      stakeCredentialDepositStateFor b₂.toLedgerState := by
  have hread : ∀ b : BlockLedgerState, stakeCredentialDepositStateFor b.toLedgerState =
      b.base.stakeCredentialDeposit?.map fun _ => recordedStakeDeposit b.toLedgerState := by
    intro b
    show b.base.stakeCredentialDeposit?.map _ = b.base.stakeCredentialDeposit?.map fun _ =>
      b.toLedgerState.blocks.foldr _ (b.base.stakeCredentialDeposit?.getD _)
    cases b.base.stakeCredentialDeposit? with
    | none => rfl
    | some provider => rfl
  have hdeposits : recordedStakeDeposit b₁.toLedgerState = recordedStakeDeposit b₂.toLedgerState :=
    funext fun c => congrArg AccountAnswer.deposit (hanswer c)
  rw [hread, hread, hprovider, hdeposits]

theorem dRepDelegationStateFor_congr (hprovider : b₁.base.dRepDelegation? = b₂.base.dRepDelegation?)
    (hanswer : ∀ c, b₁.delegationAnswer c = b₂.delegationAnswer c) :
    dRepDelegationStateFor b₁.toLedgerState = dRepDelegationStateFor b₂.toLedgerState := by
  have hread : ∀ b : BlockLedgerState, dRepDelegationStateFor b.toLedgerState =
      b.base.dRepDelegation?.map fun _ => b.delegationAnswer := by
    intro b
    unfold delegationAnswer providerDelegation
    show b.base.dRepDelegation?.map (blockDRepDelegations b.toBlockOverlay) = _
    cases b.base.dRepDelegation? with
    | none => rfl
    | some provider => rfl
  rw [hread, hread, hprovider, funext hanswer]

theorem pendingInstantaneousRewardsFor_congr
    (hprovider : b₁.base.pendingInstantaneousRewards? = b₂.base.pendingInstantaneousRewards?)
    (hmap : b₁.mirPending = b₂.mirPending) (source : Nat) (cred : Credential) :
    pendingInstantaneousRewardsFor b₁.toLedgerState source cred =
      pendingInstantaneousRewardsFor b₂.toLedgerState source cred := by
  unfold pendingInstantaneousRewardsFor
  dsimp only [toLedgerState]
  rw [hprovider, hmap]

section

variable (hsame : ∀ cold, b₁.committeeColdHot.lookup cold = b₂.committeeColdHot.lookup cold)
  (hhots : HotKeysApart b₂.toBlockOverlay)
include hsame hhots

theorem committeeCredentialStateFor_congr
    (hprovider : b₁.base.committeeCredential? = b₂.base.committeeCredential?)
    (hcolds : HashesApart b₂.toBlockOverlay) (orders orders' : CommitteeOrders) :
    committeeCredentialStateFor orders b₁.toLedgerState =
      committeeCredentialStateFor orders' b₂.toLedgerState := by
  have hmember : ∀ order order' provider cold,
      blockCommitteeCredentialMember order b₁.toBlockOverlay provider cold =
        blockCommitteeCredentialMember order' b₂.toBlockOverlay provider cold := by
    intro order order' provider cold
    unfold blockCommitteeCredentialMember
    rw [applyCommitteeAuthorization_congr hsame hcolds order order']
  have hover : blockCommitteeCredentials orders b₁.toBlockOverlay =
      blockCommitteeCredentials orders' b₂.toBlockOverlay := by
    funext provider
    unfold blockCommitteeCredentials
    rw [coldCredentialsFor_congr hsame hhots (orders 0) (orders' 0),
      coldCredentialTouched_congr hsame, funext (hmember (orders 0) (orders' 0) provider),
      funext fun loop => funext (hmember (orders loop) (orders' loop) provider)]
  show b₁.base.committeeCredential?.map (blockCommitteeCredentials orders b₁.toBlockOverlay) =
    b₂.base.committeeCredential?.map (blockCommitteeCredentials orders' b₂.toBlockOverlay)
  rw [hprovider, hover]

theorem committeeVotingStateFor_congr
    (hprovider : b₁.base.committeeVoting? = b₂.base.committeeVoting?)
    (order order' : CommitteeOrder) :
    committeeVotingStateFor order b₁.toLedgerState =
      committeeVotingStateFor order' b₂.toLedgerState := by
  have hover : blockCommitteeVoting order b₁.toBlockOverlay =
      blockCommitteeVoting order' b₂.toBlockOverlay := by
    funext provider
    unfold blockCommitteeVoting
    rw [coldCredentialsFor_congr hsame hhots order order']
    simp only [hsame]
  show b₁.base.committeeVoting?.map (blockCommitteeVoting order b₁.toBlockOverlay) =
    b₂.base.committeeVoting?.map (blockCommitteeVoting order' b₂.toBlockOverlay)
  rw [hprovider, hover]

end

/-! ## What the inner list leaves alone -/

theorem follows_mirPending_empty :
    Follows (fun cert => cert.isMoveInstantaneousRewards = false) fun b _ => b.mirPending = ∅ where
  setAccount _ _ _ h := h
  recordProposals id ps h := (recordProposals_maps id ps _).2.trans h
  applyUtxo tx h := (applyUtxo_maps tx _).2.2.1.trans h
  applyCertificate pp cert hcert _ h hstep _ := by
    rw [(applyCertificate_maps hstep).2.2, h]
    cases cert with
    | moveInstantaneousRewards source rewards => exact absurd hcert.symm Bool.false_ne_true
    | _ => rfl

def committeeEntries (txs : List (Transaction × ProtocolParameters)) :
    List (Credential × Option Credential) :=
  (blockCertificates txs).filterMap Certificate.committeeEntry?

theorem committeeIn_committeeEntries (txs : List (Transaction × ProtocolParameters)) :
    ∀ cert ∈ blockCertificates txs, CommitteeIn (committeeEntries txs) cert := by
  intro cert hcert e he
  exact List.mem_filterMap.mpr ⟨cert, hcert, he⟩

theorem mem_committeeEntries (h : (newBlockLedgerState base).applyTransactions s₁ = .ok inner)
    {cold : Credential} {hot : Option Credential}
    (hlookup : inner.committeeColdHot.lookup cold = some hot) : (cold, hot) ∈ committeeEntries s₁ :=
  (follows_committeeFrom _).self (committeeIn_committeeEntries s₁) nofun h cold hot hlookup

namespace Stacked

section

variable (h : Stacked base s₁ s₂ inner outer flat)
include h

theorem mirPending (hs₁ : ∀ cert ∈ blockCertificates s₁, cert.isMoveInstantaneousRewards = false) :
    outer.mirPending = flat.mirPending := by
  have hinner : inner.mirPending = ∅ := follows_mirPending_empty.self hs₁ rfl h.inner_eq
  exact (h.follow follows_mirPending (fun _ _ => trivial) hinner.symm).2

theorem committeeStacked :
    CommitteeStacked inner.toBlockOverlay outer.toBlockOverlay flat.toBlockOverlay :=
  (h.follow (follows_committeeStacked inner.toBlockOverlay) (fun _ _ => trivial) fun _ => rfl).2

theorem hashesApart (hcolds : ColdsApart (committeeEntries (s₁ ++ s₂))) :
    HashesApart flat.toBlockOverlay := by
  intro cold cold' hot hot' hlookup hlookup'
  exact hcolds _ (mem_committeeEntries h.flat_eq hlookup) _ (mem_committeeEntries h.flat_eq hlookup')

theorem hotKeysApart (hhots : HotsApart (committeeEntries (s₁ ++ s₂))) :
    HotKeysApart flat.toBlockOverlay := by
  intro cold cold' hot hlookup hlookup'
  exact hhots _ (mem_committeeEntries h.flat_eq hlookup) _
    (mem_committeeEntries h.flat_eq hlookup') rfl rfl

theorem committeeMember (hbase : ∀ orders orders', base.committeeMember orders = base.committeeMember orders')
    (hcolds : ColdsApart (committeeEntries (s₁ ++ s₂))) (orders orders' : CommitteeOrders)
    (cold : Blake2b224) : outer.committeeMember orders cold = flat.committeeMember orders' cold := by
  rcases h.wraps with ⟨hinner, houter, hflat⟩
  unfold BlockLedgerState.committeeMember
  rw [houter, hflat]
  -- the outer view asks the inner one, which asks the base
  show ((inner.base.committeeMember _ cold >>= fun member =>
      .ok (member.map (applyCommitteeAuthorization (orders 1) inner.toBlockOverlay))) >>=
    fun member => .ok (member.map (applyCommitteeAuthorization (orders 0) outer.toBlockOverlay))) = _
  rw [hinner, hbase _ fun loop => orders' (loop + 1)]
  cases base.committeeMember (fun loop => orders' (loop + 1)) cold with
  | error e => rfl
  | ok member =>
    cases member with
    | none => rfl
    | some member =>
      have hmember := applyCommitteeAuthorization_stacked h.committeeStacked (h.hashesApart hcolds)
        (orders 0) (orders 1) (orders' 0) member
      exact congrArg (fun member => Except.ok (some member)) hmember

theorem committeeColdHot (hs₁ : committeeEntries s₁ = []) (cold : Credential) :
    outer.committeeColdHot.lookup cold = flat.committeeColdHot.lookup cold := by
  have hinner : inner.committeeColdHot.lookup cold = none := by
    rw [Option.eq_none_iff_forall_ne_some]
    intro hot hlookup
    have hentry := mem_committeeEntries h.inner_eq hlookup
    rw [hs₁] at hentry
    cases hentry
  rw [h.committeeStacked cold, hinner, Option.or_none]

theorem delegationAnswer (hs₁ : ∀ cert ∈ blockCertificates s₁, cert.touchesDelegations = false)
    (hcount : (blockCertificates (s₁ ++ s₂)).length < 2 ^ 64) (c : Credential) :
    outer.delegationAnswer c = flat.delegationAnswer c := by
  have hlength : (blockCertificates (s₁ ++ s₂)).length =
      (blockCertificates s₁).length + (blockCertificates s₂).length := by
    unfold blockCertificates
    rw [List.flatMap_append, List.length_append]
  let start : EagerState :=
    { account := fun c =>
        { registered := base.isStakeCredentialRegistered c
          deposit := recordedStakeDeposit base c
          balance := base.rewardAccountBalance c
          delegation := (newBlockLedgerState base).providerDelegation c }
      drep := base.dRepRegistration }
  have hstart : Agrees base 0 (newBlockLedgerState base) start :=
    agrees_of_answers (fun _ => rfl) (fun _ => rfl) (fun _ => rfl)
  obtain ⟨middle, hmiddle, hinner⟩ := hstart.applyTransactions (by omega) h.inner_eq
  obtain ⟨last, hlast, hflat⟩ := hinner.applyTransactions (by omega) h.run
  -- The outer view starts from the same eager state: the provider's delegations still hold.
  have hsame := EagerState.sameDelegations_applyTransactions hs₁ hmiddle
  have hnested : Agrees inner.toLedgerState 0 (newBlockLedgerState inner.toLedgerState) middle := by
    refine agrees_of_answers (fun c => hinner.account c) (fun c => ?_) (fun c => hinner.drep c)
    rw [hsame c]
    show (inner.base.dRepDelegation?.getD _) c = (base.dRepDelegation?.getD _) c
    rw [hinner.wraps]
  obtain ⟨last', hlast', houter⟩ := hnested.applyTransactions (by omega) h.outer_eq
  rw [hlast] at hlast'
  injection hlast' with hlast'
  rw [houter.delegation c, hflat.delegation c, hlast']

end

end Stacked

def poolRegistrations (txs : List (Transaction × ProtocolParameters)) :
    List PoolRegistrationCertificate :=
  (blockCertificates txs).filterMap Certificate.poolRegistration?

theorem registersIn_poolRegistrations (txs : List (Transaction × ProtocolParameters)) :
    ∀ cert ∈ blockCertificates txs, RegistersIn (poolRegistrations txs) cert := by
  intro cert hcert r hr
  exact List.mem_filterMap.mpr ⟨cert, hcert, by rw [hr]; rfl⟩

theorem poolsFrom_newBlockLedgerState (regs : List PoolRegistrationCertificate)
    (base : LedgerState) : PoolsFrom regs (newBlockLedgerState base) :=
  ⟨nofun, nofun, nofun⟩

/-- Both VRF indexes, when no registration of one list shares its pool or its key with one of
the other; the index of deferred keys is an error without the provider's. -/
theorem Stacked.vrfKeys (h : Stacked base s₁ s₂ inner outer flat)
    (hapart : PoolsApart (poolRegistrations s₁) (poolRegistrations s₂)) :
    (∀ k, outer.isVrfKeyInUse k = flat.isVrfKeyInUse k) ∧
      (base.isFutureVrfKeyInUse?.isSome →
        ∀ k, outer.isFutureVrfKeyInUse k = flat.isFutureVrfKeyInUse k) := by
  obtain ⟨hinnerBase, hwraps, hflatBase⟩ := h.wraps
  have hbase : flat.base = inner.base := hflatBase.trans hinnerBase.symm
  have hinner : PoolsFrom (poolRegistrations s₁) inner :=
    (follows_poolsFrom _).self (registersIn_poolRegistrations s₁)
      (poolsFrom_newBlockLedgerState _ base) h.inner_eq
  have hstart : PoolsStacked inner (newBlockLedgerState inner.toLedgerState) inner :=
    ⟨fun _ => rfl, fun _ => rfl, fun _ => rfl⟩
  obtain ⟨houter, hstacked⟩ := (h.follow (follows_poolsStacked hinner hapart)
    (registersIn_poolRegistrations s₂) ⟨poolsFrom_newBlockLedgerState _ _, hstart⟩).2
  refine ⟨isVrfKeyInUse_stacked hstacked hinner houter hapart hwraps hbase, fun hindex => ?_⟩
  rw [← hinnerBase] at hindex
  exact isFutureVrfKeyInUse_stacked hstacked hinner houter hapart hwraps hbase hindex

/-! ## Composition -/

/-- The two views answer every query of a validation rule alike. The queries that read the
outermost view only, and the VRF indexes, do so under what they ask of the two lists. -/
structure Composes (base : LedgerState) (s₁ s₂ : List (Transaction × ProtocolParameters))
    (outer flat : BlockLedgerState) : Prop where
  utxoById : ∀ input, outer.utxoById input = flat.utxoById input
  isStakeCredentialRegistered : ∀ cred,
    outer.isStakeCredentialRegistered cred = flat.isStakeCredentialRegistered cred
  rewardAccountBalance : ∀ cred, outer.rewardAccountBalance cred = flat.rewardAccountBalance cred
  poolCurrentState : ∀ pool, outer.poolCurrentState pool = flat.poolCurrentState pool
  isPoolRegistered : ∀ pool, outer.isPoolRegistered pool = flat.isPoolRegistered pool
  dRepRegistration : ∀ cred, outer.dRepRegistration cred = flat.dRepRegistration cred
  govActionById : ∀ id, outer.govActionById id = flat.govActionById id
  committeeMember : (∀ orders orders', base.committeeMember orders = base.committeeMember orders') →
    ColdsApart (committeeEntries (s₁ ++ s₂)) →
    ∀ orders orders' cold, outer.committeeMember orders cold = flat.committeeMember orders' cold
  stakeCredentialDeposit : stakeCredentialDepositStateFor outer.toLedgerState =
    stakeCredentialDepositStateFor flat.toLedgerState
  dRepDelegation : (∀ cert ∈ blockCertificates s₁, cert.touchesDelegations = false) →
    (blockCertificates (s₁ ++ s₂)).length < 2 ^ 64 →
    dRepDelegationStateFor outer.toLedgerState = dRepDelegationStateFor flat.toLedgerState
  pendingInstantaneousRewards :
    (∀ cert ∈ blockCertificates s₁, cert.isMoveInstantaneousRewards = false) →
    ∀ source cred, pendingInstantaneousRewardsFor outer.toLedgerState source cred =
      pendingInstantaneousRewardsFor flat.toLedgerState source cred
  committeeCredential : committeeEntries s₁ = [] → ColdsApart (committeeEntries (s₁ ++ s₂)) →
    HotsApart (committeeEntries (s₁ ++ s₂)) →
    ∀ orders orders', committeeCredentialStateFor orders outer.toLedgerState =
      committeeCredentialStateFor orders' flat.toLedgerState
  committeeVoting : committeeEntries s₁ = [] → HotsApart (committeeEntries (s₁ ++ s₂)) →
    ∀ order order', committeeVotingStateFor order outer.toLedgerState =
      committeeVotingStateFor order' flat.toLedgerState
  isVrfKeyInUse : PoolsApart (poolRegistrations s₁) (poolRegistrations s₂) →
    ∀ k, outer.isVrfKeyInUse k = flat.isVrfKeyInUse k
  futurePoolParameters : PoolsApart (poolRegistrations s₁) (poolRegistrations s₂) →
    base.isFutureVrfKeyInUse?.isSome = true →
    outer.toLedgerState.isFutureVrfKeyInUse? = flat.toLedgerState.isFutureVrfKeyInUse?

theorem Stacked.composes (h : Stacked base s₁ s₂ inner outer flat) :
    Composes base s₁ s₂ outer flat := by
  obtain ⟨hinnerBase, houterBase, hflatBase⟩ := h.wraps
  have hall : ∀ cert ∈ blockCertificates s₂, True := fun _ _ => trivial
  obtain ⟨halike, hutxo⟩ := h.follow follows_utxoById hall fun _ => rfl
  -- The provider is the same under both views.
  have hprovider : ∀ {α : Type} (read : LedgerState → α),
      read inner.toLedgerState = read inner.base → read outer.base = read flat.base := by
    intro α read hread
    rw [houterBase, hread, hinnerBase, hflatBase]
  exact
    { utxoById := hutxo
      isStakeCredentialRegistered := fun cred =>
        congrArg AccountAnswer.registered (halike.account cred)
      rewardAccountBalance := halike.balance
      poolCurrentState := halike.pool
      isPoolRegistered := halike.poolRegistered
      dRepRegistration := halike.drep
      govActionById := (h.follow follows_govActionById hall fun _ => rfl).2
      committeeMember := h.committeeMember
      stakeCredentialDeposit := stakeCredentialDepositStateFor_congr
        (hprovider (·.stakeCredentialDeposit?) rfl) halike.account
      dRepDelegation := fun hs₁ hcount => dRepDelegationStateFor_congr
        (hprovider (·.dRepDelegation?) rfl) (h.delegationAnswer hs₁ hcount)
      pendingInstantaneousRewards := fun hs₁ => pendingInstantaneousRewardsFor_congr
        (hprovider (·.pendingInstantaneousRewards?) rfl) (h.mirPending hs₁)
      committeeCredential := fun hs₁ hcolds hhots => committeeCredentialStateFor_congr
        (h.committeeColdHot hs₁) (h.hotKeysApart hhots) (hprovider (·.committeeCredential?) rfl)
        (h.hashesApart hcolds)
      committeeVoting := fun hs₁ hhots => committeeVotingStateFor_congr (h.committeeColdHot hs₁)
        (h.hotKeysApart hhots) (hprovider (·.committeeVoting?) rfl)
      isVrfKeyInUse := fun hapart => (h.vrfKeys hapart).1
      futurePoolParameters := fun hapart hindex =>
        congrArg some (funext ((h.vrfKeys hapart).2 hindex)) }

def applyStacked (base : LedgerState) (blocks : List (List (Transaction × ProtocolParameters))) :
    Except LedgerError BlockLedgerState :=
  blocks.foldlM (fun view block => (newBlockLedgerState view.toLedgerState).applyTransactions block)
    (newBlockLedgerState base)

/-- A stack of any number of views runs exactly when one view for all the blocks does. Its top then
answers as that view whether a stake credential is registered, with which deposit and which reward
balance, whether a DRep is (`DRepRegistration`), the pool queries `PoolCurrentState` and
`IsPoolRegistered`, and `UtxoById`. -/
theorem stacked_blocks_agree (base : LedgerState)
    (blocks : List (List (Transaction × ProtocolParameters))) :
    (∀ top, applyStacked base blocks = .ok top → ∃ flat,
      blocks.foldlM applyTransactions (newBlockLedgerState base) = .ok flat ∧
        Alike top flat ∧ ∀ input, top.utxoById input = flat.utxoById input) ∧
    ∀ flat, blocks.foldlM applyTransactions (newBlockLedgerState base) = .ok flat →
      ∃ top, applyStacked base blocks = .ok top := by
  let Agree (b₁ b₂ : BlockLedgerState) : Prop :=
    Alike b₁ b₂ ∧ ∀ input, b₁.utxoById input = b₂.utxoById input
  have hstart : Agree (newBlockLedgerState base) (newBlockLedgerState base) :=
    ⟨alike_newBlockLedgerState base, fun _ => rfl⟩
  -- a new view answers as the one below it
  have hnew {b₁ b₂ : BlockLedgerState} (h : Agree b₁ b₂) :
      Agree (newBlockLedgerState b₁.toLedgerState) b₂ :=
    ⟨⟨⟨h.1.account, h.1.drep, h.1.pool, h.1.poolRegistered⟩, orderly_newBlockLedgerState _,
      h.1.right⟩, h.2⟩
  constructor
  · intro top htop
    refine foldlM_sim (g := applyTransactions) Agree ?_ hstart htop
    intro b₁ b₁' b₂ block _ h hstep
    exact follows_utxoById.applyTransactions (hnew h) (fun _ _ => trivial) hstep
  · intro flat hflat
    refine (foldlM_sim (fun b₁ b₂ => Agree b₂ b₁) ?_ hstart hflat).imp fun top h => h.1
    intro b₁ b₁' b₂ block _ h hstep
    obtain ⟨b, hb, halike, hutxo⟩ := follows_utxoById.applyTransactions
      ⟨(hnew h).1.symm, fun input => (h.2 input).symm⟩ (fun _ _ => trivial) hstep
    exact ⟨b, hb, halike.symm, fun input => (hutxo input).symm⟩

end BlockLedgerState

/-- Views compose: over every inner view the outer list runs exactly when both lists run over
the base, and the two views that they leave answer alike. -/
theorem stacked_views_compose (base : LedgerState)
    (s₁ s₂ : List (Transaction × ProtocolParameters)) (inner : BlockLedgerState)
    (hinner : (newBlockLedgerState base).applyTransactions s₁ = .ok inner) :
    ((∃ outer, (newBlockLedgerState inner.toLedgerState).applyTransactions s₂ = .ok outer) ↔
      ∃ flat, (newBlockLedgerState base).applyTransactions (s₁ ++ s₂) = .ok flat) ∧
    ∀ outer flat, (newBlockLedgerState inner.toLedgerState).applyTransactions s₂ = .ok outer →
      (newBlockLedgerState base).applyTransactions (s₁ ++ s₂) = .ok flat →
      BlockLedgerState.Composes base s₁ s₂ outer flat := by
  refine ⟨BlockLedgerState.exists_outer_iff hinner, fun outer flat houter hflat => ?_⟩
  have h : BlockLedgerState.Stacked base s₁ s₂ inner outer flat := ⟨hinner, houter, hflat⟩
  exact h.composes

def registeringBlock : List (Transaction × ProtocolParameters) :=
  [({ Transaction.empty with certificates := [.poolRegistration ⟨1, 2, 0, none, none⟩] },
    ⟨10, none, none, 0, 0⟩)]

def governingBlock : List (Transaction × ProtocolParameters) :=
  [({ Transaction.empty with
      certificates :=
        [.voteDelegation ⟨0, 1⟩ ⟨drepTypeAbstain, []⟩,
          .moveInstantaneousRewards 0 [(some ⟨0, 1⟩, some 5)], .authCommitteeHot ⟨0, 3⟩ ⟨0, 4⟩] },
    ⟨10, none, none, 0, 0⟩)]

/-- All the queries agree when the pool's block is the inner one. -/
theorem stacked_views_compose_registering :
    ∃ inner outer flat, (newBlockLedgerState .empty).applyTransactions registeringBlock = .ok inner ∧
      (newBlockLedgerState inner.toLedgerState).applyTransactions governingBlock = .ok outer ∧
      (newBlockLedgerState .empty).applyTransactions (registeringBlock ++ governingBlock) = .ok flat ∧
      dRepDelegationStateFor outer.toLedgerState = dRepDelegationStateFor flat.toLedgerState ∧
      (∀ source cred, pendingInstantaneousRewardsFor outer.toLedgerState source cred =
        pendingInstantaneousRewardsFor flat.toLedgerState source cred) ∧
      (∀ orders orders', committeeCredentialStateFor orders outer.toLedgerState =
        committeeCredentialStateFor orders' flat.toLedgerState) ∧
      (∀ order order', committeeVotingStateFor order outer.toLedgerState =
        committeeVotingStateFor order' flat.toLedgerState) ∧
      (∀ orders orders' cold, outer.committeeMember orders cold = flat.committeeMember orders' cold) ∧
      outer.toLedgerState.isFutureVrfKeyInUse? = flat.toLedgerState.isFutureVrfKeyInUse? := by
  have h := (stacked_views_compose .empty registeringBlock governingBlock _ rfl).2 _ _ rfl rfl
  exact ⟨_, _, _, rfl, rfl, rfl, h.dRepDelegation (by decide) (by decide),
    h.pendingInstantaneousRewards (by decide),
    h.committeeCredential rfl (by decide) (by decide), h.committeeVoting rfl (by decide),
    h.committeeMember (fun _ _ => rfl) (by decide), h.futurePoolParameters (by decide) rfl⟩

/-- With the blocks the other way round, the outer view reports neither the delegation nor the
reward nor the authorization of the inner block. -/
theorem stacked_view_loses_inner_block :
    ∃ inner outer flat, (newBlockLedgerState .empty).applyTransactions governingBlock = .ok inner ∧
      (newBlockLedgerState inner.toLedgerState).applyTransactions registeringBlock = .ok outer ∧
      (newBlockLedgerState .empty).applyTransactions (governingBlock ++ registeringBlock) = .ok flat ∧
      (dRepDelegationStateFor outer.toLedgerState).map (· ⟨0, 1⟩) = some (.ok none) ∧
      (dRepDelegationStateFor flat.toLedgerState).map (· ⟨0, 1⟩) =
        some (.ok (some ⟨drepTypeAbstain, []⟩)) ∧
      pendingInstantaneousRewardsFor outer.toLedgerState 0 ⟨0, 1⟩ = .ok (0, true) ∧
      pendingInstantaneousRewardsFor flat.toLedgerState 0 ⟨0, 1⟩ = .ok (5, true) ∧
      ∀ order, (committeeVotingStateFor order outer.toLedgerState).map
          (·.committeeHotCredentialColdCredentials ⟨0, 4⟩) = some (.ok []) ∧
        (committeeVotingStateFor order flat.toLedgerState).map
          (·.committeeHotCredentialColdCredentials ⟨0, 4⟩) = some (.ok [⟨0, 3⟩]) := by
  refine ⟨_, _, _, rfl, rfl, rfl, by decide, by decide, by decide, by decide, fun order => ?_⟩
  -- at most one entry, which is visited in one order only
  have hnone : order.visit [] = [] := (order.perm []).eq_nil
  have hone : order.visit [(⟨0, 3⟩, some ⟨0, 4⟩)] = [(⟨0, 3⟩, some ⟨0, 4⟩)] :=
    List.perm_singleton.mp (order.perm _)
  constructor
  · show some (Except.ok (((order.visit []).filter _).map Prod.fst ++ [])) = _
    rw [hnone]
    rfl
  · show some (Except.ok (((order.visit [(⟨0, 3⟩, some ⟨0, 4⟩)]).filter _).map Prod.fst ++ [])) = _
    rw [hone]
    rfl

end Gouroboros.Ledger

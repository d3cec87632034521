import Gouroboros.Consensus.Byron.Delegation

/-!
# The delegation view is one-to-one

No delegate serves two genesis keys, so the issuer behind one is found, and is the only one.
-/

namespace Gouroboros.Consensus.Byron

open ExceptFold

open Ledger (ByteString Blake2b224 newBlake2b224)

/-! ## What a step does -/

theorem toNat_activationSlot {k slot : UInt64}
    (h : ¬ (UInt64.ofNat (2 ^ 64 - 1) / 2 < k ∨ UInt64.ofNat (2 ^ 64 - 1) - 2 * k < slot)) :
    (slot + 2 * k).toNat = slot.toNat + 2 * k.toNat := by
  rw [not_or, UInt64.not_lt, UInt64.not_lt, UInt64.le_iff_toNat_le, UInt64.le_iff_toNat_le,
    UInt64.toNat_div, UInt64.toNat_ofNat_of_lt' (by decide)] at h
  obtain ⟨hk, hslot⟩ := h
  have hk' : k.toNat ≤ (2 ^ 64 - 1) / 2 := hk
  have hdouble : (2 * k).toNat = 2 * k.toNat := by
    exact Nat.mod_eq_of_lt (by show 2 * k.toNat < 2 ^ 64; omega)
  rw [UInt64.toNat_sub_of_le, hdouble, UInt64.toNat_ofNat_of_lt' (by decide)] at hslot
  · rw [UInt64.toNat_add, hdouble]
    exact Nat.mod_eq_of_lt (by omega)
  · rw [UInt64.le_iff_toNat_le, hdouble, UInt64.toNat_ofNat_of_lt' (by decide)]
    omega

structure Scheduled (currentEpoch currentSlot : UInt64) (s s' : PbftDelegationState)
    (delegation : PbftScheduledDelegation) (keyEpoch : PbftDelegationKeyEpoch) : Prop where
  allowed : delegation.delegator ∈ s.allowedDelegators
  slot : delegation.activationSlot.toNat = currentSlot.toNat + 2 * s.securityParam.toNat
  epoch : currentEpoch ≤ keyEpoch.epoch
  state : s' = { s with
    scheduledDelegations := s.scheduledDelegations ++ [delegation]
    keyEpochDelegations := insert keyEpoch s.keyEpochDelegations }

namespace PbftDelegationState

variable {crypto : Crypto} {s s' : PbftDelegationState} {currentEpoch currentSlot : UInt64}

theorem scheduled_of_scheduleCertificate {raw : ByteString}
    (h : s.scheduleCertificate crypto currentEpoch currentSlot raw = .ok s') :
    ∃ delegation keyEpoch, Scheduled currentEpoch currentSlot s s' delegation keyEpoch := by
  obtain ⟨certificate, -, h⟩ := bind_eq_ok.mp h
  obtain ⟨hepoch, h⟩ := guard_eq_ok.mp h
  obtain ⟨delegator, -, h⟩ := bind_eq_ok.mp h
  obtain ⟨hallowed, h⟩ := guard_eq_ok.mp h
  obtain ⟨-, h⟩ := guard_eq_ok.mp h
  obtain ⟨hoverflow, h⟩ := guard_eq_ok.mp h
  obtain ⟨-, h⟩ := guard_eq_ok.mp h
  obtain ⟨-, h⟩ := seq_eq_ok.mp h
  obtain ⟨delegate, -, h⟩ := bind_eq_ok.mp h
  injection h with h
  refine ⟨⟨_, delegator, delegate⟩, ⟨certificate.epoch, delegator⟩, not_not.mp hallowed,
    toNat_activationSlot hoverflow, ?_, h.symm⟩
  exact UInt64.not_lt.mp fun hlt => hepoch (.inl hlt)

theorem delegateIsActiveForOther_iff {delegator delegate : Blake2b224} :
    s.delegateIsActiveForOther delegator delegate ↔
      ∃ g, g ≠ delegator ∧ s.activeDelegations.lookup g = some delegate := by
  unfold delegateIsActiveForOther
  rw [List.any_eq_true]
  constructor
  · rintro ⟨⟨g, d⟩, hmem, hother⟩
    simp only [decide_eq_true_eq] at hother
    exact ⟨g, hother.1, hother.2 ▸ GoMap.lookup_of_mem_toPairs hmem⟩
  · rintro ⟨g, hg, hlookup⟩
    exact ⟨(g, delegate), GoMap.mem_toPairs_of_lookup hlookup, by simpa using hg⟩

theorem activate_cases (s : PbftDelegationState) (delegation : PbftScheduledDelegation) :
    s.activate delegation = s ∨
      (∀ g, g ≠ delegation.delegator → s.activeDelegations.lookup g ≠ some delegation.delegate) ∧
        s.activate delegation = { s with
          activeDelegations := s.activeDelegations.insert delegation.delegator delegation.delegate
          delegationSlots :=
            s.delegationSlots.insert delegation.delegator delegation.activationSlot } := by
  unfold activate
  dsimp only
  split
  · exact .inl rfl
  · rename_i hfree
    exact .inr ⟨fun g hg hlookup =>
      hfree (.inl (delegateIsActiveForOther_iff.mpr ⟨g, hg, hlookup⟩)), rfl⟩

theorem activate_fields (s : PbftDelegationState) (delegation : PbftScheduledDelegation) :
    (s.activate delegation).allowedDelegators = s.allowedDelegators ∧
      (s.activate delegation).protocolMagic = s.protocolMagic ∧
      (s.activate delegation).securityParam = s.securityParam ∧
      (s.activate delegation).scheduledDelegations = s.scheduledDelegations := by
  rcases s.activate_cases delegation with hstay | ⟨-, hset⟩
  · rw [hstay]
    exact ⟨rfl, rfl, rfl, rfl⟩
  · rw [hset]
    exact ⟨rfl, rfl, rfl, rfl⟩

end PbftDelegationState

/-! ## The invariant -/

/-- The active delegations are a one-to-one map of the genesis keys. -/
structure OneToOne (genesis : List Blake2b224) (s : PbftDelegationState) : Prop where
  allowed : ∀ g, g ∈ s.allowedDelegators ↔ g ∈ genesis
  active : ∀ g, (s.activeDelegations.lookup g).isSome = true ↔ g ∈ genesis
  injective : ∀ g g' delegate, s.activeDelegations.lookup g = some delegate →
    s.activeDelegations.lookup g' = some delegate → g = g'
  slots : ∀ g ∈ genesis, (s.delegationSlots.lookup g).isSome = true
  scheduled : ∀ delegation ∈ s.scheduledDelegations, delegation.delegator ∈ genesis

namespace OneToOne

variable {genesis : List Blake2b224} {s s' : PbftDelegationState}
  {delegation : PbftScheduledDelegation}

theorem activate (h : OneToOne genesis s) (hdelegator : delegation.delegator ∈ genesis) :
    OneToOne genesis (s.activate delegation) := by
  rcases s.activate_cases delegation with hstay | ⟨hfree, hset⟩
  · rw [hstay]
    exact h
  · rw [hset]
    refine ⟨h.allowed, fun g => ?_, fun g g' delegate hg hg' => ?_, fun g hg => ?_, h.scheduled⟩
    · rw [GoMap.lookup_insert_ite]
      split
      · rename_i heq
        rw [heq]
        exact ⟨fun _ => hdelegator, fun _ => rfl⟩
      · exact h.active g
    · rw [GoMap.lookup_insert_ite] at hg hg'
      split at hg
      · rename_i heq
        injection hg with hg
        split at hg'
        · rename_i heq'
          exact heq.trans heq'.symm
        · rename_i hne
          rw [← hg] at hg'
          exact absurd hg' (hfree g' hne)
      · rename_i hne
        split at hg'
        · injection hg' with hg'
          rw [← hg'] at hg
          exact absurd hg (hfree g hne)
        · exact h.injective g g' delegate hg hg'
    · rw [GoMap.lookup_insert_ite]
      split
      · rfl
      · exact h.slots g hg

theorem tick (h : OneToOne genesis s) (currentEpoch currentSlot : UInt64) :
    OneToOne genesis (s.tick currentEpoch currentSlot) := by
  -- Along the loop over the schedule, which an activation leaves as it is.
  have hend : OneToOne genesis (s.scheduledDelegations.foldl (fun next d =>
      if d.activationSlot ≤ currentSlot then next.activate d else next) s) := by
    refine List.foldlRecOn _ _ h fun t ht d hd => ?_
    split
    · exact ht.activate (h.scheduled d hd)
    · exact ht
  exact { hend with scheduled := fun d hd => hend.scheduled d (List.mem_of_mem_filter hd) }

variable {currentEpoch currentSlot : UInt64}

theorem schedule {crypto : Crypto} {raw : ByteString} (h : OneToOne genesis s)
    (hstep : s.scheduleCertificate crypto currentEpoch currentSlot raw = .ok s') :
    OneToOne genesis s' := by
  obtain ⟨delegation, keyEpoch, hscheduled⟩ :=
    PbftDelegationState.scheduled_of_scheduleCertificate hstep
  rw [hscheduled.state]
  refine { h with scheduled := fun d hd => ?_ }
  rcases List.mem_append.mp hd with hd | hd
  · exact h.scheduled d hd
  · rw [List.mem_singleton.mp hd]
    exact (h.allowed _).mp hscheduled.allowed

theorem applyPayloadCbor {crypto : Crypto} {payload : List ByteString} (h : OneToOne genesis s)
    (hstep : s.applyPayloadCbor crypto currentEpoch currentSlot payload = .ok s') :
    OneToOne genesis s' := by
  obtain ⟨next, hloop, hstep⟩ := bind_eq_ok.mp hstep
  cases hstep
  refine OneToOne.tick ?_ _ _
  exact foldlM_invariant (OneToOne genesis)
    (fun _ _ _ _ ht hentry => ht.schedule (mapError_eq_ok.mp hentry)) h hloop

end OneToOne

/-! ## The initial state -/

structure SelfDelegating (s : PbftDelegationState) : Prop where
  active : ∀ g, s.activeDelegations.lookup g = if g ∈ s.allowedDelegators then some g else none
  slots : ∀ g ∈ s.allowedDelegators, s.delegationSlots.lookup g = some 0
  scheduled : s.scheduledDelegations = []

variable {s s' : PbftDelegationState}

theorem SelfDelegating.addGenesisKey {hashBytes : ByteString} (h : SelfDelegating s)
    (hstep : s.addGenesisKey hashBytes = .ok s') :
    SelfDelegating s' ∧ s'.securityParam = s.securityParam ∧
      newBlake2b224 hashBytes ∉ s.allowedDelegators ∧
      ∀ g, g ∈ s'.allowedDelegators ↔ g = newBlake2b224 hashBytes ∨ g ∈ s.allowedDelegators := by
  obtain ⟨-, hstep⟩ := guard_eq_ok.mp hstep
  obtain ⟨hnew, hstep⟩ := guard_eq_ok.mp hstep
  cases hstep
  refine ⟨⟨fun g => ?_, fun g hg => ?_, h.scheduled⟩, rfl, hnew, fun g => Finset.mem_insert⟩
  · rw [GoMap.lookup_insert_ite, h.active g]
    by_cases heq : g = newBlake2b224 hashBytes
    · rw [if_pos heq, if_pos (Finset.mem_insert.mpr (.inl heq)), heq]
    · rw [if_neg heq]
      by_cases hg : g ∈ s.allowedDelegators
      · rw [if_pos hg, if_pos (Finset.mem_insert.mpr (.inr hg))]
      · rw [if_neg hg, if_neg fun hmem => (Finset.mem_insert.mp hmem).elim heq hg]
  · rw [GoMap.lookup_insert_ite]
    split
    · rfl
    · rename_i hne
      exact h.slots g ((Finset.mem_insert.mp hg).resolve_left hne)

theorem SelfDelegating.addGenesisKeys {keys : List ByteString} (h : SelfDelegating s)
    (hrun : keys.foldlM PbftDelegationState.addGenesisKey s = .ok s') :
    SelfDelegating s' ∧ s'.securityParam = s.securityParam ∧ (keys.map newBlake2b224).Nodup ∧
      (∀ g ∈ keys.map newBlake2b224, g ∉ s.allowedDelegators) ∧
      ∀ g, g ∈ s'.allowedDelegators ↔ g ∈ keys.map newBlake2b224 ∨ g ∈ s.allowedDelegators := by
  induction keys generalizing s with
  | nil =>
    cases hrun
    exact ⟨h, rfl, List.nodup_nil, nofun, fun g => by simp⟩
  | cons key keys ih =>
    obtain ⟨t, hstep, hrest⟩ := foldlM_cons_eq_ok.mp hrun
    obtain ⟨ht, hparam, hnew, hallowed⟩ := h.addGenesisKey hstep
    obtain ⟨hs', hparam', hnodup, hdisjoint, hallowed'⟩ := ih ht hrest
    refine ⟨hs', hparam'.trans hparam, ?_, ?_, fun g => ?_⟩
    · exact List.nodup_cons.mpr ⟨fun hmem => hdisjoint _ hmem ((hallowed _).mpr (.inl rfl)), hnodup⟩
    · intro g hg hold
      rcases List.mem_cons.mp hg with rfl | hg
      · exact hnew hold
      · exact hdisjoint g hg ((hallowed g).mpr (.inr hold))
    · rw [hallowed' g, hallowed g, List.map_cons, List.mem_cons]
      tauto

theorem SelfDelegating.oneToOne {genesis : List Blake2b224} (h : SelfDelegating s)
    (hallowed : ∀ g, g ∈ s.allowedDelegators ↔ g ∈ genesis) : OneToOne genesis s := by
  refine ⟨hallowed, fun g => ?_, fun g g' delegate hg hg' => ?_, fun g hg => ?_, fun d hd => ?_⟩
  · rw [h.active g, ← hallowed g]
    by_cases hg : g ∈ s.allowedDelegators <;> simp [hg]
  · rw [h.active] at hg hg'
    split at hg
    · injection hg with hg
      split at hg'
      · injection hg' with hg'
        exact hg.trans hg'.symm
      · cases hg'
    · cases hg
  · rw [h.slots g ((hallowed g).mpr hg)]
    rfl
  · rw [h.scheduled] at hd
    cases hd

theorem OneToOne.applyGenesisDelegation {config : ByronConfig} {hashBytes : ByteString}
    (h : OneToOne config.genesisKeys s) (hmem : hashBytes ∈ config.genesisKeyHashes) :
    OneToOne config.genesisKeys (s.applyGenesisDelegation config hashBytes) := by
  unfold PbftDelegationState.applyGenesisDelegation
  dsimp only
  split
  · exact h
  · refine OneToOne.activate ?_ (List.mem_map_of_mem hmem)
    split
    · exact { h with }
    · exact h

theorem oneToOne_newPbftDelegationState {config : ByronConfig}
    (h : newPbftDelegationState config = .ok s) : OneToOne config.genesisKeys s := by
  obtain ⟨-, h⟩ := guard_eq_ok.mp h
  obtain ⟨-, h⟩ := guard_eq_ok.mp h
  obtain ⟨t, hkeys, h⟩ := bind_eq_ok.mp h
  split at h
  · cases h
  · cases h
    obtain ⟨hself, -, -, -, hallowed⟩ := SelfDelegating.addGenesisKeys
      ⟨fun g => by simp, fun g hg => by simp at hg, rfl⟩ hkeys
    have hstart : OneToOne config.genesisKeys t := by
      refine hself.oneToOne fun g => ?_
      rw [hallowed g]
      simp [ByronConfig.genesisKeys]
    refine List.foldlRecOn _ _ hstart fun u hu hashBytes hmem => ?_
    exact hu.applyGenesisDelegation hmem

/-! ## Runs -/

inductive DelegationCall where
  | tick (currentEpoch currentSlot : UInt64)
  | applyPayloadCbor (currentEpoch currentSlot : UInt64) (payload : List ByteString)
deriving DecidableEq

def PbftDelegationState.call (crypto : Crypto) (s : PbftDelegationState) :
    DelegationCall → Except DelegationError PbftDelegationState
  | .tick currentEpoch currentSlot => .ok (s.tick currentEpoch currentSlot)
  | .applyPayloadCbor currentEpoch currentSlot payload =>
    s.applyPayloadCbor crypto currentEpoch currentSlot payload

def PbftDelegationState.run (crypto : Crypto) (s : PbftDelegationState)
    (calls : List DelegationCall) : Except DelegationError PbftDelegationState :=
  calls.foldlM (PbftDelegationState.call crypto) s

theorem OneToOne.run {genesis : List Blake2b224} {crypto : Crypto} {calls : List DelegationCall}
    (h : OneToOne genesis s) (hrun : s.run crypto calls = .ok s') : OneToOne genesis s' := by
  refine foldlM_invariant (OneToOne genesis) ?_ h hrun
  intro t t' c _ ht hstep
  cases c with
  | tick currentEpoch currentSlot =>
    cases hstep
    exact ht.tick currentEpoch currentSlot
  | applyPayloadCbor currentEpoch currentSlot payload => exact ht.applyPayloadCbor hstep

/-! ## The issuer behind a delegate -/

theorem foldlM_resolveEntry {delegate issuer : Blake2b224}
    {entries : List (Blake2b224 × Blake2b224)} {found : Option Blake2b224}
    (hentries : ∀ entry ∈ entries, entry.2 = delegate → entry.1 = issuer)
    (hfound : found = none ∨ found = some issuer) :
    entries.foldlM (resolveEntry delegate) found =
      .ok (if entries.any (fun entry => entry.2 = delegate) then some issuer else found) := by
  induction entries generalizing found with
  | nil => rfl
  | cons entry entries ih =>
    have hrest : ∀ e ∈ entries, e.2 = delegate → e.1 = issuer :=
      fun e he => hentries e (List.mem_cons_of_mem entry he)
    rw [List.foldlM_cons, List.any_cons]
    by_cases hdelegate : entry.2 = delegate
    · have hissuer := hentries entry List.mem_cons_self hdelegate
      have hstep : resolveEntry delegate found entry = .ok (some issuer) := by
        unfold resolveEntry
        rw [if_neg (not_not.mpr hdelegate)]
        rcases hfound with rfl | rfl
        · rw [hissuer]
        · simp [hissuer]
      rw [hstep]
      show entries.foldlM (resolveEntry delegate) (some issuer) = _
      rw [ih hrest (.inr rfl), ite_self]
      simp [hdelegate]
    · have hstep : resolveEntry delegate found entry = .ok found := if_pos hdelegate
      rw [hstep]
      show entries.foldlM (resolveEntry delegate) found = _
      rw [ih hrest hfound]
      simp [hdelegate]

/-- What the source returns on a one-to-one map, in any order of its entries. -/
theorem resolveActivePbftIssuer_eq {active : GoMap Blake2b224 Blake2b224} {delegate : Blake2b224}
    (hinj : ∀ g g', active.lookup g = some delegate → active.lookup g' = some delegate → g = g') :
    (∃ g, active.lookup g = some delegate ∧ resolveActivePbftIssuer active delegate = .ok g) ∨
      (∀ g, active.lookup g ≠ some delegate) ∧
        resolveActivePbftIssuer active delegate = .error (.notAuthorized delegate) := by
  unfold resolveActivePbftIssuer
  by_cases hexists : ∃ g, active.lookup g = some delegate
  · obtain ⟨g, hg⟩ := hexists
    refine .inl ⟨g, hg, ?_⟩
    have hany : active.toPairs.any (fun entry => entry.2 = delegate) :=
      List.any_eq_true.mpr ⟨(g, delegate), GoMap.mem_toPairs_of_lookup hg, by simp⟩
    rw [foldlM_resolveEntry (fun entry hentry hdelegate => ?_) (.inl rfl), if_pos hany]
    · rfl
    · have hlookup := GoMap.lookup_of_mem_toPairs hentry
      rw [hdelegate] at hlookup
      exact hinj entry.1 g hlookup hg
  · have hnone : ∀ entry ∈ active.toPairs, entry.2 ≠ delegate := by
      intro entry hentry hdelegate
      have hlookup := GoMap.lookup_of_mem_toPairs hentry
      rw [hdelegate] at hlookup
      exact hexists ⟨entry.1, hlookup⟩
    refine .inr ⟨fun g hg => hexists ⟨g, hg⟩, ?_⟩
    have hany : ¬ active.toPairs.any (fun entry => entry.2 = delegate) := by
      rw [List.any_eq_true]
      rintro ⟨entry, hentry, hdelegate⟩
      exact hnone entry hentry (by simpa using hdelegate)
    rw [foldlM_resolveEntry (fun entry hentry hdelegate =>
      absurd hdelegate (hnone entry hentry) : ∀ entry ∈ active.toPairs, _ → entry.1 = 0) (.inl rfl),
      if_neg hany]
    rfl

/-- In every state that calls reach from a new one, the active delegations map exactly the
genesis keys, one-to-one, with a slot each; the issuer that is resolved from a copy of them is
the one key that has the delegate, and none is authorized otherwise. -/
theorem delegation_view_one_to_one (crypto : Crypto) (config : ByronConfig)
    (calls : List DelegationCall) (start s : PbftDelegationState)
    (hstart : newPbftDelegationState config = .ok start) (hrun : start.run crypto calls = .ok s) :
    (∀ g, (s.activeDelegations.lookup g).isSome = true ↔ g ∈ config.genesisKeys) ∧
    (∀ g g' delegate, s.activeDelegations.lookup g = some delegate →
      s.activeDelegations.lookup g' = some delegate → g = g') ∧
    (∀ g ∈ config.genesisKeys, (s.delegationSlots.lookup g).isSome = true) ∧
    ∀ active, (∀ g, active.lookup g = s.activeDelegations.lookup g) → ∀ delegate,
      resolveActivePbftIssuer active delegate ≠ .error (.multipleIssuers delegate) ∧
      (∀ g, resolveActivePbftIssuer active delegate = .ok g ↔
        s.activeDelegations.lookup g = some delegate) ∧
      ((∀ g, s.activeDelegations.lookup g ≠ some delegate) →
        resolveActivePbftIssuer active delegate = .error (.notAuthorized delegate)) := by
  have h := (oneToOne_newPbftDelegationState hstart).run hrun
  refine ⟨h.active, h.injective, h.slots, fun active hactive delegate => ?_⟩
  have hinj : ∀ g g', active.lookup g = some delegate → active.lookup g' = some delegate →
      g = g' := by
    intro g g' hg hg'
    rw [hactive] at hg hg'
    exact h.injective g g' delegate hg hg'
  rcases resolveActivePbftIssuer_eq hinj with ⟨g, hg, hresolved⟩ | ⟨hnone, hresolved⟩
  · rw [hresolved]
    rw [hactive] at hg
    refine ⟨nofun, fun g' => ⟨fun hok => ?_, fun hg' => ?_⟩, fun hnone => absurd hg (hnone g)⟩
    · cases hok
      exact hg
    · rw [h.injective g g' delegate hg hg']
  · rw [hresolved]
    refine ⟨nofun, fun g => ⟨nofun, fun hg => ?_⟩, fun _ => rfl⟩
    rw [← hactive] at hg
    exact absurd hg (hnone g)

/-- Two genesis keys, the second of which is the delegate of the first at genesis. -/
def crossedConfig : ByronConfig where
  protocolMagic := 1
  securityParam := 1
  genesisKeyHashes := [List.replicate 28 1, List.replicate 28 2]
  genesisDelegations := (∅ : GoMap Blake2b224 Blake2b224).insert
    (newBlake2b224 (List.replicate 28 1)) (newBlake2b224 (List.replicate 28 2))
  genesisDelegationEpochs := ∅

def twoByteCrypto : Crypto where
  parseDelegationCertificate
    | [issuer, delegate] => .ok ⟨1, [1], List.replicate 64 issuer, List.replicate 64 delegate, []⟩
    | _ => .error (.payload "malformed")
  verify := fun _ _ => .ok ()
  encodedKeyHash := fun key => .ok (newBlake2b224 (key.take 28))

/-- The crossed delegation of the genesis is not active, and the first key delegates to a third
one later. -/
theorem delegation_view_one_to_one_crossed :
    ∃ start s, newPbftDelegationState crossedConfig = .ok start ∧
      start.run twoByteCrypto [.applyPayloadCbor 0 5 [[1, 3]], .tick 0 7] = .ok s ∧
      resolveActivePbftIssuer s.activeDelegations (newBlake2b224 (List.replicate 28 3)) =
        .ok (newBlake2b224 (List.replicate 28 1)) := by
  have hstart : newPbftDelegationState crossedConfig = .ok _ := rfl
  refine ⟨_, ?_, hstart, ?hrun, (((delegation_view_one_to_one twoByteCrypto crossedConfig _ _ _
    hstart ?hrun).2.2.2 _ (fun _ => rfl) _).2.1 _).mpr ?_⟩
  case hrun => rfl
  · decide

end Gouroboros.Consensus.Byron

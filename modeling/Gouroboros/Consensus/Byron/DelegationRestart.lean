import Gouroboros.Consensus.Byron.DelegationTicks

/-!
# Starting again from the active delegations

`NewByronConfigFromGenesis` stores the delegations that are active in the new state as the genesis
delegations of the configuration, and its users build the state from it once more. Two states are
compared by their `view`: the maps of the source have no order, those of the model do.
-/

namespace Gouroboros.Consensus.Byron

open ExceptFold

open Ledger (ByteString Blake2b224 newBlake2b224)

namespace PbftDelegationState

def withMaps (s : PbftDelegationState) (active : GoMap Blake2b224 Blake2b224)
    (slots : GoMap Blake2b224 UInt64) : PbftDelegationState :=
  { s with activeDelegations := active, delegationSlots := slots }

/-- All that the source can observe of a state: its maps by lookup, and the rest. -/
def view (s : PbftDelegationState) :
    (Blake2b224 → Option Blake2b224) × (Blake2b224 → Option UInt64) × PbftDelegationState :=
  (fun g => s.activeDelegations.lookup g, fun g => s.delegationSlots.lookup g, s.withMaps ∅ ∅)

variable {s s' : PbftDelegationState} {delegation : PbftScheduledDelegation} {g : Blake2b224}

section

variable (h : s.view = s'.view)
include h

theorem eq_withMaps : s' = s.withMaps s'.activeDelegations s'.delegationSlots := by
  have hrest : s.withMaps ∅ ∅ = s'.withMaps ∅ ∅ := (Prod.mk.inj (Prod.mk.inj h).2).2
  exact (congrArg (·.withMaps s'.activeDelegations s'.delegationSlots) hrest).symm

theorem schedule_eq : s'.scheduledDelegations = s.scheduledDelegations ∧
    s'.keyEpochDelegations = s.keyEpochDelegations := by
  rw [eq_withMaps h]
  exact ⟨rfl, rfl⟩

theorem lookup_active (g : Blake2b224) :
    s.activeDelegations.lookup g = s'.activeDelegations.lookup g :=
  congrFun (Prod.mk.inj h).1 g

theorem lookup_slots (g : Blake2b224) : s.delegationSlots.lookup g = s'.delegationSlots.lookup g :=
  congrFun (Prod.mk.inj (Prod.mk.inj h).2).1 g

/-! ## Calls see the view only -/

theorem view_activate (delegation : PbftScheduledDelegation) :
    (s.activate delegation).view = (s'.activate delegation).view := by
  have hother : s.delegateIsActiveForOther delegation.delegator delegation.delegate =
      s'.delegateIsActiveForOther delegation.delegator delegation.delegate := by
    rw [Bool.eq_iff_iff, delegateIsActiveForOther_iff, delegateIsActiveForOther_iff]
    simp only [lookup_active h]
  unfold activate
  rw [hother, lookup_slots h]
  dsimp only
  split
  · exact h
  · rw [eq_withMaps h]
    simp only [view, withMaps, GoMap.lookup_insert_ite, lookup_active h, lookup_slots h]

theorem view_withSchedule (scheduled : List PbftScheduledDelegation)
    (keyEpochs : Finset PbftDelegationKeyEpoch) :
    (s.withSchedule scheduled keyEpochs).view = (s'.withSchedule scheduled keyEpochs).view := by
  rw [eq_withMaps h]
  simp only [view, withMaps, withSchedule, lookup_active h, lookup_slots h]

theorem view_tick (currentEpoch currentSlot : UInt64) :
    (s.tick currentEpoch currentSlot).view = (s'.tick currentEpoch currentSlot).view := by
  have hloop : (activateDue currentSlot s.scheduledDelegations s).view =
      (activateDue currentSlot s.scheduledDelegations s').view := by
    refine List.foldl_rel (r := fun t t' => view t = view t') h ?_
    intro d _ t t' ht
    split
    · exact view_activate ht d
    · exact ht
  rw [tick_eq, tick_eq, (schedule_eq h).1, (schedule_eq h).2]
  exact view_withSchedule hloop _ _

end

variable {crypto : Crypto} {currentEpoch currentSlot : UInt64}

theorem scheduleCertificate_withMaps (active : GoMap Blake2b224 Blake2b224)
    (slots : GoMap Blake2b224 UInt64) (raw : ByteString) :
    (s.withMaps active slots).scheduleCertificate crypto currentEpoch currentSlot raw =
      (s.scheduleCertificate crypto currentEpoch currentSlot raw).map
        (·.withMaps active slots) := by
  unfold scheduleCertificate
  simp only [ExceptFold.map_bind, map_guard]
  rfl

theorem view_scheduleEntry (entry : ByteString × Nat) (h : s.view = s'.view) :
    (s.scheduleEntry crypto currentEpoch currentSlot entry).map view =
      (s'.scheduleEntry crypto currentEpoch currentSlot entry).map view := by
  rw [eq_withMaps h, scheduleEntry, scheduleEntry, scheduleCertificate_withMaps]
  cases hstep : s.scheduleCertificate crypto currentEpoch currentSlot entry.1 with
  | error e => rfl
  | ok t =>
    obtain ⟨delegation, keyEpoch, hscheduled⟩ := scheduled_of_scheduleCertificate hstep
    rw [hscheduled.state]
    refine congrArg Except.ok ?_
    simp only [view, withMaps, lookup_active h, lookup_slots h]

theorem view_call (c : DelegationCall) (h : s.view = s'.view) :
    (s.call crypto c).map view = (s'.call crypto c).map view := by
  cases c with
  | tick currentEpoch currentSlot => exact congrArg Except.ok (view_tick h currentEpoch currentSlot)
  | applyPayloadCbor currentEpoch currentSlot payload =>
    have hloop := foldlM_map_congr (fun _ _ entry => @view_scheduleEntry _ _ crypto currentEpoch
      currentSlot entry) h (l := payload.zipIdx)
    exact bind_map_congr hloop fun _ _ ht => congrArg Except.ok (view_tick ht _ _)

theorem view_run (h : s.view = s'.view) (calls : List DelegationCall) :
    (s.run crypto calls).map view = (s'.run crypto calls).map view :=
  foldlM_map_congr (fun _ _ c => view_call c) h

/-! ## The genesis delegations once more -/

theorem view_activate_self (hactive : s.activeDelegations.lookup g = some g)
    (hslot : s.delegationSlots.lookup g = some 0) : (s.activate ⟨0, g, g⟩).view = s.view := by
  rcases s.activate_cases ⟨0, g, g⟩ with hstay | ⟨-, hset⟩
  · rw [hstay]
  · rw [hset]
    have hactive' := GoMap.Writes.of_lookup hactive
    have hslot' := GoMap.Writes.of_lookup hslot
    simp only [view, withMaps, GoMap.lookup_insert_ite, ← hactive' _, ← hslot' _]

section

variable {config : ByronConfig} {hashBytes : ByteString} {active : GoMap Blake2b224 Blake2b224}
  {key : Blake2b224} (hkey : newBlake2b224 hashBytes = key)

include hkey

theorem applyGenesisDelegation_eq (s : PbftDelegationState) {delegate : Blake2b224}
    (h : config.genesisDelegations.lookup key = some delegate) :
    s.applyGenesisDelegation config hashBytes =
      (s.activate ⟨0, key, delegate⟩).withSchedule s.scheduledDelegations
        (if delegate ≠ key ∨ (config.genesisDelegationEpochs.lookup key).isSome then
          insert ⟨(config.genesisDelegationEpochs.lookup key).getD 0, key⟩ s.keyEpochDelegations
        else s.keyEpochDelegations) := by
  rw [← activate_withSchedule, applyGenesisDelegation, hkey, h]
  dsimp only
  split
  · rfl
  · rfl

theorem applyGenesisDelegation_of_none (s : PbftDelegationState)
    (h : config.genesisDelegations.lookup key = none) :
    s.applyGenesisDelegation config hashBytes = s := by
  rw [applyGenesisDelegation, hkey, h]

theorem applyGenesisDelegation_other (hg : g ≠ key) :
    (s.applyGenesisDelegation config hashBytes).activeDelegations.lookup g =
        s.activeDelegations.lookup g ∧
      (s.applyGenesisDelegation config hashBytes).delegationSlots.lookup g =
        s.delegationSlots.lookup g := by
  cases hdelegation : config.genesisDelegations.lookup key with
  | none =>
    rw [applyGenesisDelegation_of_none hkey s hdelegation]
    exact ⟨rfl, rfl⟩
  | some delegate =>
    rw [applyGenesisDelegation_eq hkey s hdelegation]
    rcases s.activate_cases ⟨0, key, delegate⟩ with h | ⟨-, h⟩
    · rw [h]
      exact ⟨rfl, rfl⟩
    · rw [h]
      exact ⟨AList.lookup_insert_ne hg, AList.lookup_insert_ne hg⟩

theorem view_applyGenesisDelegation (hepoch : (config.genesisDelegationEpochs.lookup key).isSome =
      (config.genesisDelegations.lookup key).isSome) (h : s.view = s'.view)
    (hself : s.activeDelegations.lookup key = some key)
    (hslot : s.delegationSlots.lookup key = some 0)
    (hactive : active.lookup key =
      (s.applyGenesisDelegation config hashBytes).activeDelegations.lookup key) :
    (s.applyGenesisDelegation config hashBytes).view =
      (s'.applyGenesisDelegation { config with genesisDelegations := active } hashBytes).view := by
  -- a delegation to itself changes nothing in the second run
  have hagain : (s'.activate ⟨0, key, key⟩).view = s.view := by
    rw [← view_activate h, view_activate_self hself hslot]
  obtain ⟨hscheduled, hrecords⟩ := schedule_eq h
  cases hdelegation : config.genesisDelegations.lookup key with
  | none =>
    rw [applyGenesisDelegation_of_none hkey s hdelegation] at hactive ⊢
    rw [hdelegation] at hepoch
    rw [applyGenesisDelegation_eq hkey s' (hactive.trans hself), if_neg (by simp [hepoch]),
      hscheduled, hrecords]
    exact (view_withSchedule hagain s.scheduledDelegations s.keyEpochDelegations).symm
  | some delegate =>
    rw [hdelegation] at hepoch
    rw [applyGenesisDelegation_eq hkey s hdelegation, if_pos (.inr hepoch)] at hactive ⊢
    rcases s.activate_cases ⟨0, key, delegate⟩ with hstay | ⟨-, hset⟩
    · rw [hstay] at hactive ⊢
      rw [applyGenesisDelegation_eq hkey s' (hactive.trans hself), if_pos (.inr hepoch), hscheduled,
        hrecords]
      exact (view_withSchedule hagain _ _).symm
    · have hdelegate : active.lookup key = some delegate := by
        rw [hactive, hset]
        exact AList.lookup_insert _
      rw [applyGenesisDelegation_eq hkey s' hdelegate, if_pos (.inr hepoch), hscheduled, hrecords]
      exact view_withSchedule (view_activate h _) _ _

end

theorem view_foldl_applyGenesisDelegation {config : ByronConfig} {keys : List ByteString}
    {active : GoMap Blake2b224 Blake2b224}
    (hepochs : ∀ g, (config.genesisDelegationEpochs.lookup g).isSome =
      (config.genesisDelegations.lookup g).isSome)
    (h : s.view = s'.view) (hnodup : (keys.map newBlake2b224).Nodup)
    (hself : ∀ g ∈ keys.map newBlake2b224, s.activeDelegations.lookup g = some g ∧
      s.delegationSlots.lookup g = some 0)
    (hactive : ∀ g, active.lookup g =
      (keys.foldl (applyGenesisDelegation config) s).activeDelegations.lookup g) :
    (keys.foldl (applyGenesisDelegation config) s).view =
      (keys.foldl (applyGenesisDelegation { config with genesisDelegations := active }) s').view := by
  induction keys generalizing s s' with
  | nil => exact h
  | cons hashBytes keys ih =>
    obtain ⟨hnew, hnodup⟩ := List.nodup_cons.mp hnodup
    obtain ⟨hkey, hslot⟩ := hself (newBlake2b224 hashBytes) List.mem_cons_self
    -- later keys leave the delegation of this one as it is
    have hframe : active.lookup (newBlake2b224 hashBytes) =
        (s.applyGenesisDelegation config hashBytes).activeDelegations.lookup
          (newBlake2b224 hashBytes) := by
      rw [hactive]
      refine List.foldlRecOn keys _ (motive := fun u : PbftDelegationState =>
        u.activeDelegations.lookup (newBlake2b224 hashBytes) = _) rfl ?_
      intro u hu key hmem
      rw [(applyGenesisDelegation_other rfl ?_).1, hu]
      intro heq
      exact hnew (heq ▸ List.mem_map_of_mem hmem)
    refine ih (view_applyGenesisDelegation rfl (hepochs _) h hkey hslot hframe) hnodup ?_ hactive
    intro g hg
    have hne : g ≠ newBlake2b224 hashBytes := by
      rintro rfl
      exact hnew hg
    obtain ⟨hactive', hslots'⟩ := @applyGenesisDelegation_other s g config hashBytes _ rfl hne
    rw [hactive', hslots']
    exact hself g (List.mem_cons_of_mem _ hg)

end PbftDelegationState

open PbftDelegationState

/-- Building the state again, with the active delegations of the first one as the genesis
delegations, gives the same view, and no sequence of calls tells the two states apart. The epochs
are those of the genesis delegations. -/
theorem delegation_restart_fixed_point (crypto : Crypto) (config : ByronConfig)
    (s : PbftDelegationState) (active : GoMap Blake2b224 Blake2b224)
    (hstart : newPbftDelegationState config = .ok s)
    (hepochs : ∀ g, (config.genesisDelegationEpochs.lookup g).isSome =
      (config.genesisDelegations.lookup g).isSome)
    (hactive : ∀ g, active.lookup g = s.activeDelegations.lookup g) :
    ∃ s', newPbftDelegationState { config with genesisDelegations := active } = .ok s' ∧
      (∀ g, s'.activeDelegations.lookup g = s.activeDelegations.lookup g) ∧
      (∀ g, s'.delegationSlots.lookup g = s.delegationSlots.lookup g) ∧
      s'.keyEpochDelegations = s.keyEpochDelegations ∧
      ∀ calls, (s'.run crypto calls).map view = (s.run crypto calls).map view := by
  have hgenesis := oneToOne_newPbftDelegationState hstart
  obtain ⟨hparam, h⟩ := guard_eq_ok.mp hstart
  obtain ⟨hempty, h⟩ := guard_eq_ok.mp h
  obtain ⟨t, hkeys, h⟩ := bind_eq_ok.mp h
  obtain ⟨hself, -, hnodup, -, hallowed⟩ := SelfDelegating.addGenesisKeys
    ⟨fun g => by simp, fun g hg => by simp at hg, rfl⟩ hkeys
  split at h
  · cases h
  cases h
  have hmem (g : Blake2b224) (hg : g ∈ config.genesisKeyHashes.map newBlake2b224) :
      g ∈ t.allowedDelegators := (hallowed g).mpr (.inl hg)
  have hview := view_foldl_applyGenesisDelegation hepochs (rfl : t.view = t.view) hnodup
    (fun g hg => ⟨by rw [hself.active, if_pos (hmem g hg)], hself.slots g (hmem g hg)⟩) hactive
  refine ⟨_, ?_, fun g => (lookup_active hview g).symm, fun g => (lookup_slots hview g).symm, ?_,
    fun calls => (view_run hview calls).symm⟩
  · -- every key of the copy is a genesis key
    have hknown : active.keys.find? (fun delegator => delegator ∉ t.allowedDelegators) = none := by
      rw [List.find?_eq_none]
      intro g hg hunknown
      obtain ⟨delegate, hlookup⟩ := GoMap.mem_keys_iff.mp hg
      refine (decide_eq_true_eq.mp hunknown) (hmem g ((hgenesis.active g).mp ?_))
      rw [← hactive, hlookup]
      rfl
    unfold newPbftDelegationState
    rw [if_neg hparam, if_neg hempty]
    refine bind_eq_ok.mpr ⟨t, hkeys, ?_⟩
    rw [hknown]
  · exact (schedule_eq hview).2

/-- The crossed configuration, with the epoch of its delegation. -/
theorem delegation_restart_fixed_point_crossed :
    ∃ s s' config, newPbftDelegationState config = .ok s ∧
      newPbftDelegationState { config with genesisDelegations := s.activeDelegations } = .ok s' ∧
      s'.keyEpochDelegations = s.keyEpochDelegations := by
  have hstart : newPbftDelegationState { crossedConfig with
      genesisDelegationEpochs := crossedConfig.genesisDelegations.mapVals fun _ => 0 } = .ok _ := rfl
  obtain ⟨s', hagain, -, -, hrecords, -⟩ := delegation_restart_fixed_point twoByteCrypto _ _ _ hstart
    (fun g => by rw [GoMap.lookup_mapVals, Option.isSome_map]) fun _ => rfl
  exact ⟨_, s', _, hstart, hagain, hrecords⟩

end Gouroboros.Consensus.Byron

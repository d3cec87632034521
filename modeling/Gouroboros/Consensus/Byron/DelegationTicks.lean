import Mathlib.Data.Finset.Basic
import Gouroboros.Consensus.Byron.DelegationView

/-!
# Delegation ticks

A tick that comes before another makes no difference to it. The schedule stays in the order
of its activation slots as long as the slots of the payloads never decrease, so the
delegations due at the first tick are exactly those that a single late tick would activate
first. And a certificate is judged alike before and after an earlier tick: what the tick drops
is too old for it to meet.
-/

namespace Gouroboros.Consensus.Byron

open ExceptFold

open Ledger (ByteString Blake2b224 newBlake2b224)

namespace PbftDelegationState

variable {s t : PbftDelegationState} {e₁ e₂ slot₁ slot₂ : UInt64}

/-! ## A tick, taken apart -/

def activateDue (currentSlot : UInt64) (due : List PbftScheduledDelegation)
    (s : PbftDelegationState) : PbftDelegationState :=
  due.foldl (fun next d => if d.activationSlot ≤ currentSlot then next.activate d else next) s

def withSchedule (s : PbftDelegationState) (scheduled : List PbftScheduledDelegation)
    (keyEpochs : Finset PbftDelegationKeyEpoch) : PbftDelegationState :=
  { s with scheduledDelegations := scheduled, keyEpochDelegations := keyEpochs }

theorem activate_withSchedule (s : PbftDelegationState) (scheduled : List PbftScheduledDelegation)
    (keyEpochs : Finset PbftDelegationKeyEpoch) (d : PbftScheduledDelegation) :
    (s.withSchedule scheduled keyEpochs).activate d =
      (s.activate d).withSchedule scheduled keyEpochs := by
  unfold activate
  dsimp only
  rw [apply_ite (withSchedule · scheduled keyEpochs)]
  rfl

theorem activateDue_withSchedule (currentSlot : UInt64) (due : List PbftScheduledDelegation)
    (s : PbftDelegationState) (scheduled : List PbftScheduledDelegation)
    (keyEpochs : Finset PbftDelegationKeyEpoch) :
    activateDue currentSlot due (s.withSchedule scheduled keyEpochs) =
      (activateDue currentSlot due s).withSchedule scheduled keyEpochs := by
  refine List.foldl_hom (withSchedule · scheduled keyEpochs) fun t d => ?_
  rw [activate_withSchedule, apply_ite (withSchedule · scheduled keyEpochs)]

theorem activateDue_schedule (currentSlot : UInt64) (due : List PbftScheduledDelegation)
    (s : PbftDelegationState) :
    (activateDue currentSlot due s).scheduledDelegations = s.scheduledDelegations ∧
      (activateDue currentSlot due s).keyEpochDelegations = s.keyEpochDelegations := by
  have hself : s = s.withSchedule s.scheduledDelegations s.keyEpochDelegations := rfl
  rw [hself, activateDue_withSchedule]
  exact ⟨rfl, rfl⟩

theorem tick_eq (s : PbftDelegationState) (currentEpoch currentSlot : UInt64) :
    s.tick currentEpoch currentSlot =
      (activateDue currentSlot s.scheduledDelegations s).withSchedule
        (s.scheduledDelegations.filter fun d => currentSlot < d.activationSlot)
        (s.keyEpochDelegations.filter fun k => ¬ k.epoch < currentEpoch) := by
  obtain ⟨hscheduled, hepochs⟩ := activateDue_schedule currentSlot s.scheduledDelegations s
  show (activateDue currentSlot s.scheduledDelegations s).withSchedule
    ((activateDue currentSlot s.scheduledDelegations s).scheduledDelegations.filter _)
    ((activateDue currentSlot s.scheduledDelegations s).keyEpochDelegations.filter _) = _
  rw [hscheduled, hepochs]

/-! ## Two ticks -/

def InOrder (scheduled : List PbftScheduledDelegation) : Prop :=
  scheduled.Pairwise fun d d' => d.activationSlot ≤ d'.activationSlot

theorem activateDue_split {due : List PbftScheduledDelegation} (horder : InOrder due)
    (hslots : slot₁ ≤ slot₂) (s : PbftDelegationState) :
    activateDue slot₂ (due.filter fun d => slot₁ < d.activationSlot) (activateDue slot₁ due s) =
      activateDue slot₂ due s := by
  induction due generalizing s with
  | nil => rfl
  | cons d due ih =>
    obtain ⟨hfirst, horder⟩ := List.pairwise_cons.mp horder
    by_cases hdue : d.activationSlot ≤ slot₁
    · have hlater : d.activationSlot ≤ slot₂ := UInt64.le_trans hdue hslots
      rw [List.filter_cons_of_neg (by simpa using hdue)]
      have hstep := ih horder (s.activate d)
      unfold activateDue at hstep ⊢
      rw [List.foldl_cons, List.foldl_cons, if_pos hdue, if_pos hlater]
      exact hstep
    · -- Nothing is due at the earlier slot.
      have hnone : ∀ d' ∈ d :: due, ¬ d'.activationSlot ≤ slot₁ := by
        intro d' hd'
        rcases List.mem_cons.mp hd' with rfl | hd'
        · exact hdue
        · exact fun hle => hdue (UInt64.le_trans (hfirst d' hd') hle)
      have hkept : (d :: due).filter (fun d => slot₁ < d.activationSlot) = d :: due :=
        List.filter_eq_self.mpr fun d' hd' => by simpa using hnone d' hd'
      have hstay : activateDue slot₁ (d :: due) s = s := by
        refine List.foldlRecOn (d :: due) _ (motive := fun u => u = s) rfl fun u hu d' hd' => ?_
        rw [if_neg (hnone d' hd')]
        exact hu
      rw [hkept, hstay]

theorem scheduledDelegations_tick (s : PbftDelegationState) (currentEpoch currentSlot : UInt64) :
    (s.tick currentEpoch currentSlot).scheduledDelegations =
      s.scheduledDelegations.filter fun d => currentSlot < d.activationSlot := by
  rw [tick_eq]
  rfl

theorem keyEpochDelegations_tick (s : PbftDelegationState) (currentEpoch currentSlot : UInt64) :
    (s.tick currentEpoch currentSlot).keyEpochDelegations =
      s.keyEpochDelegations.filter fun k => ¬ k.epoch < currentEpoch := by
  rw [tick_eq]
  rfl

theorem tick_tick (horder : InOrder s.scheduledDelegations) (hepochs : e₁ ≤ e₂)
    (hslots : slot₁ ≤ slot₂) : (s.tick e₁ slot₁).tick e₂ slot₂ = s.tick e₂ slot₂ := by
  rw [tick_eq (s.tick e₁ slot₁), scheduledDelegations_tick, keyEpochDelegations_tick, tick_eq s e₁ slot₁,
    activateDue_withSchedule, activateDue_split horder hslots, tick_eq s e₂ slot₂,
    List.filter_filter, Finset.filter_filter]
  have hlater : ∀ d : PbftScheduledDelegation,
      (decide (slot₂ < d.activationSlot) && decide (slot₁ < d.activationSlot)) =
        decide (slot₂ < d.activationSlot) := by
    intro d
    by_cases hd : slot₂ < d.activationSlot
    · simp [hd, UInt64.lt_of_le_of_lt hslots hd]
    · simp [hd]
  have hpast : ∀ k : PbftDelegationKeyEpoch,
      (¬ k.epoch < e₁ ∧ ¬ k.epoch < e₂) ↔ ¬ k.epoch < e₂ := by
    intro k
    constructor
    · exact And.right
    · exact fun hk => ⟨fun hlt => hk (UInt64.lt_of_lt_of_le hlt hepochs), hk⟩
  simp only [hlater, hpast]
  rfl

/-! ## A tick before a payload -/

theorem tick_fields (s : PbftDelegationState) (currentEpoch currentSlot : UInt64) :
    (s.tick currentEpoch currentSlot).allowedDelegators = s.allowedDelegators ∧
      (s.tick currentEpoch currentSlot).protocolMagic = s.protocolMagic ∧
      (s.tick currentEpoch currentSlot).securityParam = s.securityParam := by
  refine List.foldlRecOn s.scheduledDelegations _
    (motive := fun u : PbftDelegationState => u.allowedDelegators = s.allowedDelegators ∧
      u.protocolMagic = s.protocolMagic ∧ u.securityParam = s.securityParam) ⟨rfl, rfl, rfl⟩ ?_
  intro u hu d _
  split
  · obtain ⟨hallowed, hmagic, hk, -⟩ := u.activate_fields d
    exact ⟨hallowed.trans hu.1, hmagic.trans hu.2.1, hk.trans hu.2.2⟩
  · exact hu

theorem tick_append {d : PbftScheduledDelegation} {k : PbftDelegationKeyEpoch}
    (hslot : slot₁ < d.activationSlot) (hepoch : ¬ k.epoch < e₁) :
    (s.tick e₁ slot₁).withSchedule ((s.tick e₁ slot₁).scheduledDelegations ++ [d])
        (insert k (s.tick e₁ slot₁).keyEpochDelegations) =
      (s.withSchedule (s.scheduledDelegations ++ [d])
        (insert k s.keyEpochDelegations)).tick e₁ slot₁ := by
  have hdue : activateDue slot₁ (s.scheduledDelegations ++ [d]) s =
      activateDue slot₁ s.scheduledDelegations s := by
    unfold activateDue
    rw [List.foldl_append, List.foldl_cons, List.foldl_nil, if_neg (UInt64.not_le.mpr hslot)]
  rw [tick_eq, tick_eq (s.withSchedule _ _), activateDue_withSchedule]
  show _ = ((activateDue slot₁ (s.scheduledDelegations ++ [d]) s).withSchedule _ _).withSchedule
    ((s.scheduledDelegations ++ [d]).filter _) ((insert k s.keyEpochDelegations).filter _)
  rw [hdue, List.filter_append, List.filter_cons_of_pos (by simpa using hslot), List.filter_nil,
    Finset.filter_insert, if_pos hepoch]
  rfl

variable {crypto : Crypto}

variable {currentEpoch currentSlot : UInt64}

theorem scheduleCertificate_tick (hparam : s.securityParam ≠ 0) (hepoch : e₁ ≤ currentEpoch)
    (hslot : slot₁ ≤ currentSlot) (raw : ByteString) :
    (s.tick e₁ slot₁).scheduleCertificate crypto currentEpoch currentSlot raw =
      (s.scheduleCertificate crypto currentEpoch currentSlot raw).map (·.tick e₁ slot₁) := by
  obtain ⟨hallowed, hmagic, hk⟩ := s.tick_fields e₁ slot₁
  have hscheduled := s.scheduledDelegations_tick e₁ slot₁
  have hkeyEpochs := s.keyEpochDelegations_tick e₁ slot₁
  have hpos : 0 < s.securityParam.toNat := by
    rw [Nat.pos_iff_ne_zero]
    exact fun hzero => hparam (UInt64.toNat_inj.mp hzero)
  unfold scheduleCertificate
  rw [hallowed, hmagic, hk]
  simp only [ExceptFold.map_bind, map_guard]
  refine ExceptFold.bind_congr fun certificate =>
    guard_congr Iff.rfl fun hcurrent => ExceptFold.bind_congr fun delegator =>
    guard_congr Iff.rfl fun _ => ?_
  have hkept : ¬ certificate.epoch < e₁ := fun hlt =>
    hcurrent (.inl (UInt64.lt_of_lt_of_le hlt hepoch))
  -- The record that is looked for is not one that the tick drops.
  have hrecord : ⟨certificate.epoch, delegator⟩ ∈ (s.tick e₁ slot₁).keyEpochDelegations ↔
      ⟨certificate.epoch, delegator⟩ ∈ s.keyEpochDelegations := by
    rw [hkeyEpochs, Finset.mem_filter]
    exact ⟨And.left, fun h => ⟨h, hkept⟩⟩
  refine guard_congr hrecord fun _ => guard_congr Iff.rfl fun hoverflow => ?_
  have hlater : slot₁ < currentSlot + 2 * s.securityParam := by
    rw [UInt64.lt_iff_toNat_lt, toNat_activationSlot hoverflow]
    have hle := UInt64.le_iff_toNat_le.mp hslot
    omega
  -- Nor is a delegation for the same activation slot.
  have hconflict : ((s.tick e₁ slot₁).scheduledDelegations.any fun d =>
        d.delegator = delegator ∧ d.activationSlot = currentSlot + 2 * s.securityParam) = true ↔
      (s.scheduledDelegations.any fun d =>
        d.delegator = delegator ∧ d.activationSlot = currentSlot + 2 * s.securityParam) = true := by
    rw [hscheduled, List.any_eq_true, List.any_eq_true]
    constructor
    · rintro ⟨d, hd, hsame⟩
      exact ⟨d, List.mem_of_mem_filter hd, hsame⟩
    · rintro ⟨d, hd, hsame⟩
      refine ⟨d, List.mem_filter.mpr ⟨hd, ?_⟩, hsame⟩
      rw [decide_eq_true_eq] at hsame ⊢
      rw [hsame.2]
      exact hlater
  refine guard_congr hconflict fun _ => ExceptFold.bind_congr fun _ =>
    ExceptFold.bind_congr fun delegate => ?_
  have happend := tick_append (s := s) (d := ⟨currentSlot + 2 * s.securityParam, delegator, delegate⟩)
    (k := ⟨certificate.epoch, delegator⟩) hlater hkept
  unfold withSchedule at happend
  rw [hallowed, hmagic, hk] at happend
  exact congrArg Except.ok happend

/-! ## The schedule stays in order -/

/-- The schedule is in order and ends at most two security parameters after `slot`. -/
structure Ordered (slot : UInt64) (s : PbftDelegationState) : Prop where
  param : s.securityParam ≠ 0
  order : InOrder s.scheduledDelegations
  bound : ∀ d ∈ s.scheduledDelegations,
    d.activationSlot.toNat ≤ slot.toNat + 2 * s.securityParam.toNat

theorem Ordered.mono (h : Ordered slot₁ s) (hslots : slot₁ ≤ slot₂) : Ordered slot₂ s := by
  refine ⟨h.param, h.order, fun d hd => ?_⟩
  have hle := UInt64.le_iff_toNat_le.mp hslots
  have hbound := h.bound d hd
  omega

theorem Ordered.tick (h : Ordered slot₁ s) (currentEpoch currentSlot : UInt64) :
    Ordered slot₁ (s.tick currentEpoch currentSlot) := by
  have hscheduled := s.scheduledDelegations_tick currentEpoch currentSlot
  have hk := (s.tick_fields currentEpoch currentSlot).2.2
  refine ⟨?_, ?_, fun d hd => ?_⟩
  · rw [hk]
    exact h.param
  · rw [hscheduled]
    exact h.order.filter _
  · rw [hscheduled] at hd
    rw [hk]
    exact h.bound d (List.mem_of_mem_filter hd)

theorem Ordered.schedule {raw : ByteString} (h : Ordered currentSlot s)
    (hstep : s.scheduleCertificate crypto currentEpoch currentSlot raw = .ok t) :
    Ordered currentSlot t := by
  obtain ⟨delegation, keyEpoch, hscheduled⟩ := scheduled_of_scheduleCertificate hstep
  rw [hscheduled.state]
  refine ⟨h.param, ?_, fun d hd => ?_⟩
  · refine List.pairwise_append.mpr ⟨h.order, List.pairwise_singleton _ _, fun d hd d' hd' => ?_⟩
    rw [List.mem_singleton.mp hd', UInt64.le_iff_toNat_le, hscheduled.slot]
    exact h.bound d hd
  · rcases List.mem_append.mp hd with hd | hd
    · exact h.bound d hd
    · rw [List.mem_singleton.mp hd, hscheduled.slot]

theorem Ordered.schedules {payload : List (ByteString × Nat)} (h : Ordered currentSlot s)
    (hrun : payload.foldlM (scheduleEntry crypto currentEpoch currentSlot) s = .ok t) :
    Ordered currentSlot t :=
  foldlM_invariant (Ordered currentSlot)
    (fun _ _ _ _ hu hstep => hu.schedule (mapError_eq_ok.mp hstep)) h hrun

theorem Ordered.applyPayloadCbor {payload : List ByteString} (h : Ordered currentSlot s)
    (hstep : s.applyPayloadCbor crypto currentEpoch currentSlot payload = .ok t) :
    Ordered currentSlot t := by
  obtain ⟨next, hloop, hstep⟩ := bind_eq_ok.mp hstep
  cases hstep
  exact (h.schedules hloop).tick currentEpoch currentSlot

theorem schedules_tick (hparam : s.securityParam ≠ 0) (hepoch : e₁ ≤ currentEpoch)
    (hslot : slot₁ ≤ currentSlot) (payload : List (ByteString × Nat)) :
    payload.foldlM (scheduleEntry crypto currentEpoch currentSlot) (s.tick e₁ slot₁) =
      (payload.foldlM (scheduleEntry crypto currentEpoch currentSlot) s).map (·.tick e₁ slot₁) := by
  induction payload generalizing s with
  | nil => rfl
  | cons entry payload ih =>
    rw [List.foldlM_cons, List.foldlM_cons, scheduleEntry, scheduleEntry,
      scheduleCertificate_tick hparam hepoch hslot, map_mapError]
    cases hstep : s.scheduleCertificate crypto currentEpoch currentSlot entry.1 with
    | error e => rfl
    | ok next =>
      obtain ⟨delegation, keyEpoch, hscheduled⟩ := scheduled_of_scheduleCertificate hstep
      refine ih ?_
      rw [hscheduled.state]
      exact hparam

theorem applyPayloadCbor_tick (h : Ordered currentSlot s) (hepoch : e₁ ≤ currentEpoch)
    (hslot : slot₁ ≤ currentSlot) (payload : List ByteString) :
    (s.tick e₁ slot₁).applyPayloadCbor crypto currentEpoch currentSlot payload =
      s.applyPayloadCbor crypto currentEpoch currentSlot payload := by
  unfold PbftDelegationState.applyPayloadCbor
  rw [schedules_tick h.param hepoch hslot]
  cases hloop : payload.zipIdx.foldlM (scheduleEntry crypto currentEpoch currentSlot) s with
  | error e => rfl
  | ok next => exact congrArg Except.ok (tick_tick (h.schedules hloop).order hepoch hslot)

end PbftDelegationState

/-! ## Chains -/

def DelegationCall.epoch : DelegationCall → UInt64
  | .tick currentEpoch _ => currentEpoch
  | .applyPayloadCbor currentEpoch _ _ => currentEpoch

def DelegationCall.slot : DelegationCall → UInt64
  | .tick _ currentSlot => currentSlot
  | .applyPayloadCbor _ currentSlot _ => currentSlot

def DelegationCall.isPayload : DelegationCall → Bool
  | .tick _ _ => false
  | .applyPayloadCbor _ _ _ => true

def NeverDecreasing (calls : List DelegationCall) : Prop :=
  calls.Pairwise fun c c' => c.epoch ≤ c'.epoch ∧ c.slot ≤ c'.slot

instance (calls : List DelegationCall) : Decidable (NeverDecreasing calls) :=
  inferInstanceAs (Decidable (calls.Pairwise fun c c' => c.epoch ≤ c'.epoch ∧ c.slot ≤ c'.slot))

open PbftDelegationState

variable {crypto : Crypto} {s t full skipped : PbftDelegationState} {calls : List DelegationCall}

theorem ordered_run {slot : UInt64} (h : Ordered slot s) (horder : NeverDecreasing calls)
    (hslots : ∀ c ∈ calls, slot ≤ c.slot) (hrun : s.run crypto calls = .ok t) :
    ∃ last, Ordered last t := by
  induction calls generalizing s slot with
  | nil =>
    cases hrun
    exact ⟨slot, h⟩
  | cons c calls ih =>
    obtain ⟨next, hstep, hrest⟩ := foldlM_cons_eq_ok.mp hrun
    obtain ⟨hfirst, horder⟩ := List.pairwise_cons.mp horder
    have hc := h.mono (hslots c List.mem_cons_self)
    refine ih ?_ horder (fun c' hc' => (hfirst c' hc').2) hrest
    cases c with
    | tick currentEpoch currentSlot =>
      cases hstep
      exact hc.tick currentEpoch currentSlot
    | applyPayloadCbor currentEpoch currentSlot payload => exact hc.applyPayloadCbor hstep

/-- The chain that ticks in between and the one that does not cannot be told apart by a later
tick. -/
structure SameView (epoch slot : UInt64) (full skipped : PbftDelegationState) : Prop where
  left : Ordered slot full
  right : Ordered slot skipped
  tick_eq : ∀ e sl, epoch ≤ e → slot ≤ sl → full.tick e sl = skipped.tick e sl

theorem SameView.run {epoch slot e sl : UInt64} (h : SameView epoch slot full skipped)
    (horder : NeverDecreasing calls) (hstart : ∀ c ∈ calls, epoch ≤ c.epoch ∧ slot ≤ c.slot)
    (hend : ∀ c ∈ calls, c.epoch ≤ e ∧ c.slot ≤ sl) (hepoch : epoch ≤ e) (hslot : slot ≤ sl) :
    (full.run crypto calls).map (·.tick e sl) =
      (skipped.run crypto (calls.filter DelegationCall.isPayload)).map (·.tick e sl) := by
  induction calls generalizing full skipped epoch slot with
  | nil => exact congrArg Except.ok (h.tick_eq e sl hepoch hslot)
  | cons c calls ih =>
    obtain ⟨hfirst, hrest⟩ := List.pairwise_cons.mp horder
    obtain ⟨hce, hcs⟩ := hstart c List.mem_cons_self
    obtain ⟨hee, hss⟩ := hend c List.mem_cons_self
    have hend' : ∀ c' ∈ calls, c'.epoch ≤ e ∧ c'.slot ≤ sl :=
      fun c' hc' => hend c' (List.mem_cons_of_mem c hc')
    cases c with
    | tick currentEpoch currentSlot =>
      have hticked : SameView currentEpoch currentSlot (full.tick currentEpoch currentSlot)
          skipped := by
        refine ⟨(h.left.mono hcs).tick _ _, h.right.mono hcs, fun e' sl' he' hsl' => ?_⟩
        rw [tick_tick h.left.order he' hsl']
        exact h.tick_eq e' sl' (UInt64.le_trans hce he') (UInt64.le_trans hcs hsl')
      exact ih hticked hrest hfirst hend' hee hss
    | applyPayloadCbor currentEpoch currentSlot payload =>
      -- Both chains take up the tick of the block, after which they are the same.
      have hleft : Ordered currentSlot full := h.left.mono hcs
      have hright : Ordered currentSlot skipped := h.right.mono hcs
      have hsame : full.applyPayloadCbor crypto currentEpoch currentSlot payload =
          skipped.applyPayloadCbor crypto currentEpoch currentSlot payload := by
        rw [← applyPayloadCbor_tick hleft (UInt64.le_refl currentEpoch) (UInt64.le_refl _),
          h.tick_eq currentEpoch currentSlot hce hcs,
          applyPayloadCbor_tick hright (UInt64.le_refl _) (UInt64.le_refl _)]
      rw [List.filter_cons_of_pos rfl]
      unfold PbftDelegationState.run
      rw [List.foldlM_cons, List.foldlM_cons, ExceptFold.map_bind, ExceptFold.map_bind]
      show (full.applyPayloadCbor crypto currentEpoch currentSlot payload >>= _) =
        skipped.applyPayloadCbor crypto currentEpoch currentSlot payload >>= _
      rw [hsame]
      cases hstep : skipped.applyPayloadCbor crypto currentEpoch currentSlot payload with
      | error err => rfl
      | ok next =>
        have hnext := hright.applyPayloadCbor hstep
        have hview : SameView currentEpoch currentSlot next next :=
          ⟨hnext, hnext, fun _ _ _ _ => rfl⟩
        exact ih hview hrest hfirst hend' hee hss

theorem ordered_newPbftDelegationState {config : ByronConfig}
    (h : newPbftDelegationState config = .ok s) : Ordered 0 s := by
  obtain ⟨hparam, h⟩ := guard_eq_ok.mp h
  obtain ⟨-, h⟩ := guard_eq_ok.mp h
  obtain ⟨start, hkeys, h⟩ := bind_eq_ok.mp h
  split at h
  · cases h
  · cases h
    obtain ⟨hself, hstart, -⟩ := SelfDelegating.addGenesisKeys
      ⟨fun g => by simp, fun g hg => by simp at hg, rfl⟩ hkeys
    -- The genesis delegations schedule nothing.
    obtain ⟨hk, hscheduled⟩ := List.foldlRecOn config.genesisKeyHashes
      (applyGenesisDelegation config)
      (motive := fun u : PbftDelegationState => u.securityParam = config.securityParam ∧
        u.scheduledDelegations = []) ⟨hstart, hself.scheduled⟩ fun u hu hashBytes _ => by
          unfold applyGenesisDelegation
          dsimp only
          split
          · exact hu
          · rw [(activate_fields _ _).2.2.1, (activate_fields _ _).2.2.2]
            split
            · exact hu
            · exact hu
    refine ⟨?_, ?_, fun d hd => ?_⟩
    · rw [hk]
      exact hparam
    · rw [InOrder, hscheduled]
      exact List.Pairwise.nil
    · rw [hscheduled] at hd
      cases hd

/-- Ticks do not depend on how often they run. In every state that calls reach whose slots and
epochs never decrease, a tick takes up every earlier one; and a chain that only ticks for its
payloads gives the view of the chain with all the ticks in between. -/
theorem delegation_ticks_compose (crypto : Crypto) (config : ByronConfig)
    (start : PbftDelegationState) (calls : List DelegationCall)
    (hstart : newPbftDelegationState config = .ok start) (horder : NeverDecreasing calls) :
    (∀ s, start.run crypto calls = .ok s → ∀ e₁ e₂ slot₁ slot₂, e₁ ≤ e₂ → slot₁ ≤ slot₂ →
      (s.tick e₁ slot₁).tick e₂ slot₂ = s.tick e₂ slot₂) ∧
    ∀ e slot, (∀ c ∈ calls, c.epoch ≤ e ∧ c.slot ≤ slot) →
      (start.run crypto calls).map (·.tick e slot) =
        (start.run crypto (calls.filter DelegationCall.isPayload)).map (·.tick e slot) := by
  have hordered := ordered_newPbftDelegationState hstart
  constructor
  · intro s hrun e₁ e₂ slot₁ slot₂ hepochs hslots
    obtain ⟨last, hs⟩ := ordered_run hordered horder (fun _ _ => UInt64.zero_le) hrun
    exact tick_tick hs.order hepochs hslots
  · intro e slot hend
    have hview : SameView 0 0 start start := ⟨hordered, hordered, fun _ _ _ _ => rfl⟩
    exact hview.run horder (fun _ _ => ⟨UInt64.zero_le, UInt64.zero_le⟩) hend UInt64.zero_le
      UInt64.zero_le

/-- A payload at slot 5 whose delegation is active at slot 7, and a tick at every slot until
then. -/
theorem delegation_ticks_compose_crossed :
    ∃ start, newPbftDelegationState crossedConfig = .ok start ∧
      (start.run twoByteCrypto
        [.tick 0 4, .applyPayloadCbor 0 5 [[1, 3]], .tick 0 6, .tick 0 7]).map (·.tick 1 8) =
      (start.run twoByteCrypto [.applyPayloadCbor 0 5 [[1, 3]]]).map (·.tick 1 8) := by
  have hstart : newPbftDelegationState crossedConfig = .ok _ := rfl
  exact ⟨_, hstart, (delegation_ticks_compose twoByteCrypto crossedConfig _ _ hstart
    (by decide)).2 1 8 (by decide)⟩

end Gouroboros.Consensus.Byron

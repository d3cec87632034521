import Gouroboros.Ledger.Common.StackedViews

/-!
# The VRF keys of stacked views

A registration releases the key of the pool's earlier re-registration, which it looks for
in its own view only. So the views agree when no registration of one list shares its pool or
its key with one of the other.
-/

namespace Gouroboros.Ledger.BlockLedgerState

variable {b b' inner outer outer' flat flat' : BlockLedgerState}
  {regs regs₁ regs₂ : List PoolRegistrationCertificate}

/-- The view's own pool records come from the registrations `regs`. -/
structure PoolsFrom (regs : List PoolRegistrationCertificate) (b : BlockLedgerState) : Prop where
  future : ∀ p k, b.futureVrfKey? p = some k → ∃ r ∈ regs, r.operator = p ∧ r.vrfKeyHash = k
  vrfKeys : ∀ k p, b.vrfKeys.lookup k = some p → ∃ r ∈ regs, r.operator = p ∧ r.vrfKeyHash = k
  released : ∀ k, (b.vrfReleased.lookup k).isSome = true → ∃ r ∈ regs, r.vrfKeyHash = k

variable {cert : PoolRegistrationCertificate}

theorem PoolsFrom.superseded {k : VrfKeyHash} {current : Option PoolRegistrationCertificate}
    (h : PoolsFrom regs b) (hk : b.Supersedes cert current k) : ∃ r ∈ regs, r.vrfKeyHash = k := by
  obtain ⟨cur, -, hk⟩ := hk
  obtain ⟨hfuture, -⟩ := Option.filter_eq_some_iff.mp hk
  obtain ⟨r, hr, -, hkey⟩ := h.future _ _ hfuture
  exact ⟨r, hr, hkey⟩

theorem PoolsFrom.applyPoolRegistration (h : PoolsFrom regs b) (hcert : cert ∈ regs)
    (hstep : b.applyPoolRegistration cert = .ok b') : PoolsFrom regs b' := by
  obtain ⟨current, ret, -, hregistered⟩ := registered_of_applyPoolRegistration hstep
  refine ⟨fun p k hk => ?_, fun k p hk => ?_, fun k hk => ?_⟩
  · rw [futureVrfKey?_eq, hregistered.pool_eq] at hk
    by_cases hp : p = cert.operator
    · rw [if_pos hp] at hk
      cases current with
      | none =>
        refine h.future p k ?_
        rw [futureVrfKey?_eq, hp]
        exact hk
      | some current =>
        injection hk with hk
        exact ⟨cert, hcert, hp.symm, hk⟩
    · rw [if_neg hp, ← futureVrfKey?_eq] at hk
      exact h.future p k hk
  · by_cases hkey : k = cert.vrfKeyHash
    · rw [hkey, hregistered.vrfKeys_self] at hk
      injection hk with hk
      exact ⟨cert, hcert, hk, hkey.symm⟩
    · by_cases hs : b.Supersedes cert current k
      · rw [hregistered.vrfKeys_superseded k hkey hs] at hk
        cases hk
      · rw [hregistered.vrfKeys_other k hkey hs] at hk
        exact h.vrfKeys k p hk
  · obtain ⟨-, hs | hold⟩ := (hregistered.vrfReleased_iff k).mp hk
    · exact h.superseded hs
    · exact h.released k hold

/-- What the flat view has on record is what the outer one has, or else the inner one. -/
structure PoolsStacked (inner outer flat : BlockLedgerState) : Prop where
  future : ∀ p, flat.futureVrfKey? p = (outer.futureVrfKey? p).or (inner.futureVrfKey? p)
  vrfKeys : ∀ k, flat.vrfKeys.lookup k = (outer.vrfKeys.lookup k).or (inner.vrfKeys.lookup k)
  released : ∀ k, flat.vrfReleased.lookup k =
    (outer.vrfReleased.lookup k).or (inner.vrfReleased.lookup k)

/-- No registration of one list shares its pool or its key with one of the other. -/
def PoolsApart (regs₁ regs₂ : List PoolRegistrationCertificate) : Prop :=
  ∀ r₁ ∈ regs₁, ∀ r₂ ∈ regs₂, r₁.operator ≠ r₂.operator ∧ r₁.vrfKeyHash ≠ r₂.vrfKeyHash

instance : Decidable (PoolsApart regs₁ regs₂) :=
  inferInstanceAs (Decidable (∀ r₁ ∈ regs₁, ∀ r₂ ∈ regs₂,
    r₁.operator ≠ r₂.operator ∧ r₁.vrfKeyHash ≠ r₂.vrfKeyHash))

theorem PoolsFrom.key_none {k : VrfKeyHash} (h : PoolsFrom regs₁ b)
    (hapart : PoolsApart regs₁ regs₂) (hk : ∃ r ∈ regs₂, r.vrfKeyHash = k) :
    b.vrfKeys.lookup k = none ∧ b.vrfReleased.lookup k = none := by
  obtain ⟨r₂, hr₂, hk⟩ := hk
  constructor
  · rw [Option.eq_none_iff_forall_ne_some]
    intro p hp
    obtain ⟨r₁, hr₁, -, hk₁⟩ := h.vrfKeys k p hp
    exact (hapart r₁ hr₁ r₂ hr₂).2 (hk₁.trans hk.symm)
  · rw [Option.eq_none_iff_forall_ne_some]
    intro u hu
    obtain ⟨r₁, hr₁, hk₁⟩ := h.released k (Option.isSome_iff_exists.mpr ⟨u, hu⟩)
    exact (hapart r₁ hr₁ r₂ hr₂).2 (hk₁.trans hk.symm)

theorem PoolsFrom.future_none {p : PoolKeyHash} (h : PoolsFrom regs₁ b)
    (hapart : PoolsApart regs₁ regs₂) (hp : ∃ r ∈ regs₂, r.operator = p) :
    b.futureVrfKey? p = none := by
  obtain ⟨r₂, hr₂, hp⟩ := hp
  rw [Option.eq_none_iff_forall_ne_some]
  intro k hk
  obtain ⟨r₁, hr₁, hp₁, -⟩ := h.future p k hk
  exact (hapart r₁ hr₁ r₂ hr₂).1 (hp₁.trans hp.symm)

theorem PoolsApart.symm (h : PoolsApart regs₁ regs₂) : PoolsApart regs₂ regs₁ :=
  fun r₂ hr₂ r₁ hr₁ => ⟨(h r₁ hr₁ r₂ hr₂).1.symm, (h r₁ hr₁ r₂ hr₂).2.symm⟩

theorem option_unit_ext {x y : Option Unit} (h : x.isSome ↔ y.isSome) : x = y := by
  cases x with
  | none =>
    cases y with
    | none => rfl
    | some u => exact absurd (h.mpr rfl) Bool.false_ne_true
  | some u =>
    cases y with
    | none => exact absurd (h.mp rfl) Bool.false_ne_true
    | some v => rfl

theorem PoolsStacked.applyPoolRegistration (h : PoolsStacked inner outer flat)
    (hinner : PoolsFrom regs₁ inner) (houter : PoolsFrom regs₂ outer)
    (hapart : PoolsApart regs₁ regs₂) (hcert : cert ∈ regs₂)
    (hsame : outer.poolCurrentState cert.operator = flat.poolCurrentState cert.operator)
    (hstep₁ : outer.applyPoolRegistration cert = .ok outer')
    (hstep₂ : flat.applyPoolRegistration cert = .ok flat') : PoolsStacked inner outer' flat' := by
  obtain ⟨current, ret, hcurrent, hreg₁⟩ := registered_of_applyPoolRegistration hstep₁
  obtain ⟨current', ret', hcurrent', hreg₂⟩ := registered_of_applyPoolRegistration hstep₂
  rw [hsame, hcurrent'] at hcurrent
  cases hcurrent
  -- The inner view has neither the pool nor any of the outer view's keys.
  have hnopool := hinner.future_none hapart ⟨cert, hcert, rfl⟩
  have hfuture : flat.futureVrfKey? cert.operator = outer.futureVrfKey? cert.operator := by
    rw [h.future, hnopool, Option.or_none]
  have hsupersedes : ∀ k, flat.Supersedes cert current k ↔ outer.Supersedes cert current k := by
    intro k
    unfold Supersedes supersededVrfKey?
    rw [hfuture]
  refine ⟨fun p => ?_, fun k => ?_, fun k => ?_⟩
  · rw [futureVrfKey?_eq flat', futureVrfKey?_eq outer', hreg₁.pool_eq, hreg₂.pool_eq]
    by_cases hp : p = cert.operator
    · rw [if_pos hp, if_pos hp]
      cases current with
      | none =>
        have hp' := h.future p
        rw [hp, futureVrfKey?_eq, futureVrfKey?_eq outer] at hp'
        rw [hp]
        exact hp'
      | some current => rfl
    · rw [if_neg hp, if_neg hp, ← futureVrfKey?_eq, ← futureVrfKey?_eq]
      exact h.future p
  · by_cases hkey : k = cert.vrfKeyHash
    · rw [hkey, hreg₁.vrfKeys_self, hreg₂.vrfKeys_self]
      rfl
    · by_cases hs : outer.Supersedes cert current k
      · rw [hreg₁.vrfKeys_superseded k hkey hs,
          hreg₂.vrfKeys_superseded k hkey ((hsupersedes k).mpr hs),
          (hinner.key_none hapart (houter.superseded hs)).1]
        rfl
      · rw [hreg₁.vrfKeys_other k hkey hs,
          hreg₂.vrfKeys_other k hkey fun hs' => hs ((hsupersedes k).mp hs')]
        exact h.vrfKeys k
  · refine option_unit_ext ?_
    rw [hreg₂.vrfReleased_iff, Option.isSome_or, Bool.or_eq_true, hreg₁.vrfReleased_iff,
      hsupersedes, h.released, Option.isSome_or, Bool.or_eq_true]
    by_cases hkey : k = cert.vrfKeyHash
    · have hnone := (hinner.key_none hapart ⟨cert, hcert, hkey.symm⟩).2
      simp [hkey] at hnone ⊢
      exact hnone
    · simp [hkey]
      tauto

/-! ## Other effects -/

structure SamePools (b b' : BlockLedgerState) : Prop where
  future : ∀ p, b'.futureVrfKey? p = b.futureVrfKey? p
  vrfKeys : b'.vrfKeys = b.vrfKeys
  released : b'.vrfReleased = b.vrfReleased

theorem SamePools.of_poolPart (h : b'.poolPart = b.poolPart) : SamePools b b' := by
  simp only [poolPart, Prod.mk.injEq] at h
  refine ⟨fun p => ?_, h.2.2.1, h.2.2.2⟩
  rw [futureVrfKey?, futureVrfKey?, h.2.1]

theorem samePools_applyCertificate {pp : ProtocolParameters} {cert : Certificate}
    (hcert : ∀ r, cert ≠ .poolRegistration r) (h : applyCertificate pp b cert = .ok b') :
    SamePools b b' := by
  by_cases hpool : cert.isPool
  · cases cert with
    | poolRegistration r => exact absurd rfl (hcert r)
    | poolRetirement pool epoch =>
      cases h
      refine ⟨fun p => ?_, rfl, rfl⟩
      rw [futureVrfKey?_eq, futureVrfKey?_eq]
      unfold applyPoolRetirement
      rw [pool_setPool]
      split
      · rename_i hp
        rw [hp]
        rfl
      · rfl
    | _ => exact absurd hpool Bool.false_ne_true
  · exact .of_poolPart (poolPart_applyCertificate (Bool.not_eq_true _ ▸ hpool) h)

theorem PoolsFrom.of_samePools (h : PoolsFrom regs b) (hsame : SamePools b b') :
    PoolsFrom regs b' := by
  refine ⟨fun p k hk => ?_, fun k p hk => ?_, fun k hk => ?_⟩
  · rw [hsame.future] at hk
    exact h.future p k hk
  · rw [hsame.vrfKeys] at hk
    exact h.vrfKeys k p hk
  · rw [hsame.released] at hk
    exact h.released k hk

theorem PoolsStacked.of_samePools (h : PoolsStacked inner outer flat)
    (houter : SamePools outer outer') (hflat : SamePools flat flat') :
    PoolsStacked inner outer' flat' := by
  refine ⟨fun p => ?_, fun k => ?_, fun k => ?_⟩
  · rw [houter.future, hflat.future, h.future]
  · rw [houter.vrfKeys, hflat.vrfKeys, h.vrfKeys]
  · rw [houter.released, hflat.released, h.released]

/-! ## Runs -/

def RegistersIn (regs : List PoolRegistrationCertificate) (cert : Certificate) : Prop :=
  ∀ r, cert = .poolRegistration r → r ∈ regs

theorem follows_poolsFrom (regs : List PoolRegistrationCertificate) :
    Follows (RegistersIn regs) fun b _ => PoolsFrom regs b where
  setAccount _ _ _ h := h.of_samePools (.of_poolPart rfl)
  recordProposals id ps h := h.of_samePools (.of_poolPart (sameParts_recordProposals _ id ps).pool)
  applyUtxo tx h := h.of_samePools (.of_poolPart (sameBesidesUtxo_applyUtxo _ tx).pool)
  applyCertificate {b b' _ _} pp cert hregs _ h hstep _ := by
    by_cases hcert : ∃ r, cert = .poolRegistration r
    · obtain ⟨r, rfl⟩ := hcert
      have htick : PoolsFrom regs { b with seq := b.seq + 1 } := h.of_samePools (.of_poolPart rfl)
      exact htick.applyPoolRegistration (hregs r rfl) hstep
    · exact h.of_samePools (samePools_applyCertificate (fun r hr => hcert ⟨r, hr⟩) hstep)

theorem follows_poolsStacked (hinner : PoolsFrom regs₁ inner) (hapart : PoolsApart regs₁ regs₂) :
    Follows (RegistersIn regs₂)
      fun outer flat => PoolsFrom regs₂ outer ∧ PoolsStacked inner outer flat where
  setAccount _ _ _ h :=
    ⟨h.1.of_samePools (.of_poolPart rfl), h.2.of_samePools (.of_poolPart rfl) (.of_poolPart rfl)⟩
  recordProposals id ps h := by
    have hsame := fun b : BlockLedgerState =>
      SamePools.of_poolPart (sameParts_recordProposals b id ps).pool
    exact ⟨h.1.of_samePools (hsame _), h.2.of_samePools (hsame _) (hsame _)⟩
  applyUtxo tx h := by
    have hsame := fun b : BlockLedgerState =>
      SamePools.of_poolPart (sameBesidesUtxo_applyUtxo b tx).pool
    exact ⟨h.1.of_samePools (hsame _), h.2.of_samePools (hsame _) (hsame _)⟩
  applyCertificate {outer outer' flat flat'} pp cert hregs halike h hstep₁ hstep₂ := by
    refine ⟨(follows_poolsFrom regs₂).applyCertificate pp cert hregs halike h.1 hstep₁ hstep₂, ?_⟩
    by_cases hcert : ∃ r, cert = .poolRegistration r
    · obtain ⟨r, rfl⟩ := hcert
      have htick : PoolsStacked inner { outer with seq := outer.seq + 1 }
          { flat with seq := flat.seq + 1 } := h.2.of_samePools (.of_poolPart rfl) (.of_poolPart rfl)
      exact htick.applyPoolRegistration hinner (h.1.of_samePools (.of_poolPart rfl)) hapart
        (hregs r rfl) (halike.pool r.operator) hstep₁ hstep₂
    · exact h.2.of_samePools (samePools_applyCertificate (fun r hr => hcert ⟨r, hr⟩) hstep₁)
        (samePools_applyCertificate (fun r hr => hcert ⟨r, hr⟩) hstep₂)

/-! ## The queries -/

/-- The pool whose re-registration in the view has the key. -/
def ownFuture (b : BlockLedgerState) (k : VrfKeyHash) : Option PoolKeyHash :=
  (b.vrfKeys.lookup k).filter fun p => b.futureVrfKey? p = some k

/-- The owner that the wrapped state reports, unless the view replaced its parameters. -/
def keptFuture (b : BlockLedgerState) (k : VrfKeyHash) (owner : Option PoolKeyHash) :
    Option PoolKeyHash :=
  owner.filter fun p => (b.futureVrfKey? p).all fun f => f = k

theorem isFutureVrfKeyInUseOver_eq (b : BlockLedgerState) (index : VrfKeyIndex) (k : VrfKeyHash) :
    b.isFutureVrfKeyInUseOver index k =
      match b.ownFuture k with
      | some p => .ok (some p)
      | none =>
        match b.vrfReleased.lookup k with
        | some _ => .ok none
        | none => (index k).map (b.keptFuture k) := by
  unfold isFutureVrfKeyInUseOver ownFuture
  cases (b.vrfKeys.lookup k).filter fun p => b.futureVrfKey? p = some k with
  | some p => rfl
  | none =>
    cases b.vrfReleased.lookup k with
    | some u => rfl
    | none =>
      cases index k with
      | error e => rfl
      | ok owner =>
        show _ = Except.ok (b.keptFuture k owner)
        cases owner with
        | none => rfl
        | some p =>
          rw [keptFuture, Option.filter_some]
          dsimp only [bind, Except.bind]
          cases b.futureVrfKey? p with
          | none => rfl
          | some f => by_cases hf : f = k <;> simp [hf]

section queries

variable (hstacked : PoolsStacked inner outer flat) (hinner : PoolsFrom regs₁ inner)
  (houter : PoolsFrom regs₂ outer) (hapart : PoolsApart regs₁ regs₂)
  (hwraps : outer.base = inner.toLedgerState) (hbase : flat.base = inner.base)

include hstacked hinner houter hapart hwraps hbase in
theorem isVrfKeyInUse_stacked (k : VrfKeyHash) : outer.isVrfKeyInUse k = flat.isVrfKeyInUse k := by
  unfold isVrfKeyInUse
  rw [hstacked.vrfKeys k, hstacked.released k, hwraps, hbase]
  cases hkey : outer.vrfKeys.lookup k with
  | some p => rfl
  | none =>
    cases hrel : outer.vrfReleased.lookup k with
    | some u =>
      -- The inner view does not have a key that the outer one has released.
      rw [(hinner.key_none hapart (houter.released k (Option.isSome_of_eq_some hrel))).1]
      rfl
    | none => rfl

include hstacked hinner houter hapart in
theorem ownFuture_stacked (k : VrfKeyHash) :
    flat.ownFuture k = (outer.ownFuture k).or (inner.ownFuture k) := by
  unfold ownFuture
  rw [hstacked.vrfKeys k]
  cases hkey : outer.vrfKeys.lookup k with
  | some p =>
    obtain ⟨r, hr, hrp, hrk⟩ := houter.vrfKeys k p hkey
    rw [(hinner.key_none hapart ⟨r, hr, hrk⟩).1, Option.or_none, Option.filter_none,
      Option.or_none, Option.filter_some, Option.filter_some, hstacked.future p,
      hinner.future_none hapart ⟨r, hr, hrp⟩, Option.or_none]
  | none =>
    rw [Option.none_or, Option.filter_none, Option.none_or]
    cases hkey' : inner.vrfKeys.lookup k with
    | none => rfl
    | some p =>
      obtain ⟨r, hr, hrp, -⟩ := hinner.vrfKeys k p hkey'
      rw [Option.filter_some, Option.filter_some, hstacked.future p,
        houter.future_none hapart.symm ⟨r, hr, hrp⟩, Option.none_or]

include hstacked hinner houter hapart in
theorem keptFuture_stacked (k : VrfKeyHash) (owner : Option PoolKeyHash) :
    outer.keptFuture k (inner.keptFuture k owner) = flat.keptFuture k owner := by
  unfold keptFuture
  cases owner with
  | none => rfl
  | some p =>
    rw [Option.filter_some, Option.filter_some, hstacked.future p]
    cases hp : outer.futureVrfKey? p with
    | none => cases hk : (inner.futureVrfKey? p).all fun f => decide (f = k) <;> simp [hp, hk]
    | some f =>
      obtain ⟨r, hr, hrp, -⟩ := houter.future p f hp
      simp [hinner.future_none hapart ⟨r, hr, hrp⟩, hp, Option.filter_some]

include hstacked hinner houter hapart hwraps hbase in
theorem isFutureVrfKeyInUse_stacked (hindex : inner.base.isFutureVrfKeyInUse?.isSome)
    (k : VrfKeyHash) : outer.isFutureVrfKeyInUse k = flat.isFutureVrfKeyInUse k := by
  obtain ⟨index, hindex⟩ := Option.isSome_iff_exists.mp hindex
  have hinnerIndex : outer.base.isFutureVrfKeyInUse? = some inner.isFutureVrfKeyInUse := by
    rw [hwraps]
    rfl
  unfold isFutureVrfKeyInUse
  rw [hinnerIndex, hbase, hindex]
  dsimp only
  rw [isFutureVrfKeyInUseOver_eq, isFutureVrfKeyInUseOver_eq,
    ownFuture_stacked hstacked hinner houter hapart, hstacked.released k]
  cases hown : outer.ownFuture k with
  | some p => rfl
  | none =>
    have hinnerAnswer : inner.isFutureVrfKeyInUse k = inner.isFutureVrfKeyInUseOver index k := by
      unfold isFutureVrfKeyInUse
      rw [hindex]
    rw [hinnerAnswer, isFutureVrfKeyInUseOver_eq, Option.none_or]
    cases hrel : outer.vrfReleased.lookup k with
    | some u =>
      have hnokey := (hinner.key_none hapart
        (houter.released k (Option.isSome_of_eq_some hrel))).1
      have hnone : inner.ownFuture k = none := by
        rw [ownFuture, hnokey, Option.filter_none]
      rw [hnone]
      rfl
    | none =>
      cases hown' : inner.ownFuture k with
      | some p =>
        -- The outer view has not re-registered a pool of the inner one.
        obtain ⟨hkey, -⟩ := Option.filter_eq_some_iff.mp hown'
        obtain ⟨r, hr, hrp, -⟩ := hinner.vrfKeys k p hkey
        have hfuture := houter.future_none hapart.symm ⟨r, hr, hrp⟩
        show Except.ok (outer.keptFuture k (some p)) = _
        rw [keptFuture, Option.filter_some, hfuture]
        rfl
      | none =>
        cases inner.vrfReleased.lookup k with
        | some u => rfl
        | none =>
          cases index k with
          | error e => rfl
          | ok owner =>
            exact congrArg Except.ok (keptFuture_stacked hstacked hinner houter hapart k owner)

end queries

end Gouroboros.Ledger.BlockLedgerState

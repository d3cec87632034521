import Gouroboros.Ledger.Common.BlockFrame

/-!
# Pools in the block-scoped view

What the pool queries answer after a pool certificate. The view's record of a
pool is `b.pool p`, an empty record when the block has none, so each query is
read from the record and the wrapped state by one equation.
-/

namespace Gouroboros.Ledger.BlockLedgerState

open ExceptFold

variable {b b' : BlockLedgerState} {p : PoolKeyHash}

@[simp] theorem pool_setPool (b : BlockLedgerState) (p q : PoolKeyHash) (st : BlockPool) :
    (b.setPool p st).pool q = if q = p then st else b.pool q := by
  unfold pool setPool
  rw [GoMap.lookup_insert_ite]
  split <;> rfl

@[simp] theorem pool_claimVrfKey (b : BlockLedgerState) (k : VrfKeyHash) (p q : PoolKeyHash) :
    (b.claimVrfKey k p).pool q = b.pool q := rfl

@[simp] theorem pool_releaseVrfKey (b : BlockLedgerState) (k : VrfKeyHash) (q : PoolKeyHash) :
    (b.releaseVrfKey k).pool q = b.pool q := rfl

def registeredPool (b : BlockLedgerState) (cert : PoolRegistrationCertificate) :
    Option PoolRegistrationCertificate → BlockPool
  | none =>
    { b.pool cert.operator with
      registration := some cert
      registrationKnown := true
      retirementEpoch := none
      retirementKnown := true }
  | some _ =>
    { b.pool cert.operator with
      future := some cert
      retirementEpoch := none
      retirementKnown := true }

def Supersedes (b : BlockLedgerState) (cert : PoolRegistrationCertificate)
    (current : Option PoolRegistrationCertificate) (k : VrfKeyHash) : Prop :=
  ∃ cur, current = some cur ∧ b.supersededVrfKey? cert cur = some k

structure Registered (b b' : BlockLedgerState) (cert : PoolRegistrationCertificate)
    (current : Option PoolRegistrationCertificate) : Prop where
  base_eq : b'.base = b.base
  pool_eq : ∀ p, b'.pool p =
    if p = cert.operator then b.registeredPool cert current else b.pool p
  vrfKeys_self : b'.vrfKeys.lookup cert.vrfKeyHash = some cert.operator
  vrfKeys_superseded : ∀ k, k ≠ cert.vrfKeyHash → b.Supersedes cert current k →
    b'.vrfKeys.lookup k = none
  vrfKeys_other : ∀ k, k ≠ cert.vrfKeyHash → ¬ b.Supersedes cert current k →
    b'.vrfKeys.lookup k = b.vrfKeys.lookup k
  vrfReleased_iff : ∀ k, (b'.vrfReleased.lookup k).isSome ↔
    k ≠ cert.vrfKeyHash ∧ (b.Supersedes cert current k ∨ (b.vrfReleased.lookup k).isSome)

variable {cert : PoolRegistrationCertificate}

theorem applyPoolRegistration_cases (h : b.applyPoolRegistration cert = .ok b') :
    ∃ current ret released, b.poolCurrentState cert.operator = .ok (current, ret) ∧
      (released = b ∧ (∀ k, ¬ b.Supersedes cert current k) ∨
        ∃ f, released = b.releaseVrfKey f ∧ ∀ k, b.Supersedes cert current k ↔ k = f) ∧
      b' = (released.setPool cert.operator (b.registeredPool cert current)).claimVrfKey
        cert.vrfKeyHash cert.operator := by
  obtain ⟨⟨current, ret⟩, hcur, hb'⟩ := bind_eq_ok.mp h
  cases current with
  | none =>
    cases hb'
    exact ⟨none, ret, b, hcur, .inl ⟨rfl, by simp [Supersedes]⟩, rfl⟩
  | some current =>
    dsimp only at hb'
    cases hs : b.supersededVrfKey? cert current with
    | none =>
      rw [hs] at hb'
      cases hb'
      exact ⟨some current, ret, b, hcur, .inl ⟨rfl, by simp [Supersedes, hs]⟩, rfl⟩
    | some f =>
      rw [hs] at hb'
      cases hb'
      exact ⟨some current, ret, b.releaseVrfKey f, hcur,
        .inr ⟨f, rfl, by simp [Supersedes, hs, eq_comm]⟩, rfl⟩

theorem registered_of_applyPoolRegistration (h : b.applyPoolRegistration cert = .ok b') :
    ∃ current ret, b.poolCurrentState cert.operator = .ok (current, ret) ∧
      Registered b b' cert current := by
  obtain ⟨current, ret, released, hcur, hrel, rfl⟩ := applyPoolRegistration_cases h
  refine ⟨current, ret, hcur, ?_⟩
  rcases hrel with ⟨rfl, hno⟩ | ⟨f, rfl, hsup⟩
  · refine ⟨rfl, fun p => ?_, AList.lookup_insert _, fun k _ hs => absurd hs (hno k),
      fun k hk _ => AList.lookup_insert_ne hk, fun k => ?_⟩
    · simp
    · change ((released.vrfReleased.erase _).lookup k).isSome ↔ _
      rw [GoMap.lookup_erase_ite]
      by_cases hk : k = cert.vrfKeyHash
      · simp [hk]
      · simp [hk, hno k]
  · refine ⟨rfl, fun p => ?_, AList.lookup_insert _, fun k hk hs => ?_, fun k hk hs => ?_,
      fun k => ?_⟩
    · simp
    · rw [(hsup k).mp hs] at hk ⊢
      exact (AList.lookup_insert_ne hk).trans (AList.lookup_erase _ _)
    · exact (AList.lookup_insert_ne hk).trans
        (AList.lookup_erase_ne fun h => hs ((hsup k).mpr h))
    · change (((b.vrfReleased.insert f ()).erase _).lookup k).isSome ↔ _
      rw [GoMap.lookup_erase_ite, GoMap.lookup_insert_ite, hsup]
      by_cases hk : k = cert.vrfKeyHash
      · simp [hk]
      · by_cases hkf : k = f
        · simp only [hkf] at hk ⊢
          simp [hk]
        · simp [hk, hkf]

/-! ## The queries, read from the record -/

section

variable (b p)

theorem poolCurrentState_eq :
    b.poolCurrentState p =
      if (b.pool p).registrationKnown ∧ (b.pool p).retirementKnown = true then
        .ok ((b.pool p).registration, (b.pool p).retirementEpoch)
      else (b.base.poolCurrentState p).map fun base =>
        (if (b.pool p).registrationKnown then (b.pool p).registration else base.1,
          if (b.pool p).retirementKnown then (b.pool p).retirementEpoch else base.2) := by
  unfold poolCurrentState pool
  cases b.pools.lookup p with
  | none =>
    cases b.base.poolCurrentState p with
    | error | ok => simp [Except.map]
  | some st =>
    cases hreg : st.registrationKnown <;> cases hret : st.retirementKnown <;>
      cases b.base.poolCurrentState p <;> simp [hreg, hret, Except.map, bind, Except.bind]

theorem isPoolRegistered_eq :
    b.isPoolRegistered p =
      ((b.pool p).registrationKnown && (b.pool p).registration.isSome ||
        b.base.isPoolRegistered p) := by
  unfold isPoolRegistered pool
  cases b.pools.lookup p with
  | none => simp
  | some st =>
    cases hreg : st.registrationKnown <;> cases hsome : st.registration.isSome <;>
      simp [hreg, hsome]

theorem futureVrfKey?_eq : b.futureVrfKey? p = (b.pool p).future.map (·.vrfKeyHash) := by
  unfold futureVrfKey? pool
  cases b.pools.lookup p with
  | none => rfl
  | some state => rfl

end

theorem poolCurrentState_of_pool (hbase : b'.base = b.base) (hpool : b'.pool p = b.pool p) :
    b'.poolCurrentState p = b.poolCurrentState p := by
  rw [poolCurrentState_eq, poolCurrentState_eq, hpool, hbase]

theorem poolCurrentState_congr (h : b'.poolPart = b.poolPart) (p : PoolKeyHash) :
    b'.poolCurrentState p = b.poolCurrentState p := by
  simp only [poolPart, Prod.mk.injEq] at h
  exact poolCurrentState_of_pool h.1 (by simp only [pool, h.2.1])

variable {ret : Option UInt64}

theorem poolCurrentState_setRetirement {future : Option PoolRegistrationCertificate}
    {reg : Option PoolRegistrationCertificate} {retirement : Option UInt64}
    (hbase : b'.base = b.base)
    (hpool : b'.pool p =
      { b.pool p with future := future, retirementEpoch := retirement, retirementKnown := true })
    (h : b.poolCurrentState p = .ok (reg, ret)) :
    b'.poolCurrentState p = .ok (reg, retirement) := by
  rw [poolCurrentState_eq] at h ⊢
  rw [hpool, hbase]
  by_cases hboth : (b.pool p).registrationKnown ∧ (b.pool p).retirementKnown
  · rw [if_pos hboth] at h
    cases h
    simp [hboth.1]
  · rw [if_neg hboth] at h
    cases hq : b.base.poolCurrentState p with
    | error e =>
      rw [hq] at h
      cases h
    | ok q =>
      rw [hq] at h
      cases h
      by_cases hreg : (b.pool p).registrationKnown
      · simp [hreg]
      · simp [hreg, Except.map]

/-! ## Registrations and retirements -/

theorem exists_applyPoolRegistration {current : Option PoolRegistrationCertificate}
    (h : b.poolCurrentState cert.operator = .ok (current, ret)) :
    ∃ b', b.applyPoolRegistration cert = .ok b' := by
  unfold applyPoolRegistration
  rw [h]
  cases current with
  | none | some => exact ⟨_, rfl⟩

theorem poolCurrentState_applyPoolRegistration (h : b.applyPoolRegistration cert = .ok b') :
    ∃ current ret, b.poolCurrentState cert.operator = .ok (current, ret) ∧
      ∀ p, b'.poolCurrentState p =
        if p = cert.operator then .ok (some (current.getD cert), none)
        else b.poolCurrentState p := by
  obtain ⟨current, ret, hcur, hb⟩ := registered_of_applyPoolRegistration h
  refine ⟨current, ret, hcur, fun p => ?_⟩
  have hpool := hb.pool_eq p
  by_cases hp : p = cert.operator
  · subst hp
    rw [if_pos rfl] at hpool ⊢
    cases current with
    | none =>
      rw [poolCurrentState_eq, hpool]
      simp [registeredPool]
    | some cur => exact poolCurrentState_setRetirement hb.base_eq hpool hcur
  · rw [if_neg hp] at hpool ⊢
    exact poolCurrentState_of_pool hb.base_eq hpool

theorem poolCurrentState_applyPoolRetirement_of_ne (b : BlockLedgerState) {pool : PoolKeyHash}
    (epoch : UInt64) (hp : p ≠ pool) :
    (b.applyPoolRetirement pool epoch).poolCurrentState p = b.poolCurrentState p :=
  poolCurrentState_of_pool rfl (by simp [applyPoolRetirement, hp])

theorem poolCurrentState_applyPoolRetirement {pool : PoolKeyHash} {epoch : UInt64}
    {reg : Option PoolRegistrationCertificate} (h : b.poolCurrentState pool = .ok (reg, ret))
    (p : PoolKeyHash) :
    (b.applyPoolRetirement pool epoch).poolCurrentState p =
      if p = pool then .ok (reg, some epoch) else b.poolCurrentState p := by
  by_cases hp : p = pool
  · subst hp
    rw [if_pos rfl]
    have hpool : (b.applyPoolRetirement p epoch).pool p =
        { b.pool p with retirementEpoch := some epoch, retirementKnown := true } := by
      simp [applyPoolRetirement]
    exact poolCurrentState_setRetirement (b := b) rfl hpool h
  · rw [if_neg hp]
    exact poolCurrentState_applyPoolRetirement_of_ne b epoch hp

/-! ## When a certificate can be applied -/

theorem exists_applyCertificate {pp : ProtocolParameters} {cert : Certificate}
    {keyDeposit : UInt64} (hkey : blockKeyDeposit pp = .ok keyDeposit)
    (hpool : ∀ c, cert = .poolRegistration c → ∃ x, b.poolCurrentState c.operator = .ok x)
    (hdrep : ∀ c anchor, cert = .updateDrep c anchor → ∃ x, b.dRepRegistration c = .ok x) :
    ∃ b', applyCertificate pp b cert = .ok b' := by
  cases cert with
  | poolRegistration c =>
    obtain ⟨⟨current, ret⟩, hx⟩ := hpool c rfl
    exact exists_applyPoolRegistration (b := { b with seq := b.seq + 1 }) hx
  | stakeRegistration cred => exact ⟨_, bind_eq_ok.mpr ⟨keyDeposit, hkey, rfl⟩⟩
  | updateDrep cred anchor =>
    obtain ⟨reg, hx⟩ := hdrep cred anchor rfl
    cases reg with
    | none => exact ⟨_, bind_eq_ok.mpr ⟨none, hx, rfl⟩⟩
    | some reg => exact ⟨_, bind_eq_ok.mpr ⟨some reg, hx, rfl⟩⟩
  | _ => exact ⟨_, rfl⟩

theorem poolCurrentState_ok_applyCertificate {pp : ProtocolParameters} {cert : Certificate}
    (happ : applyCertificate pp b cert = .ok b') (p : PoolKeyHash)
    (h : ∃ x, b.poolCurrentState p = .ok x) : ∃ x, b'.poolCurrentState p = .ok x := by
  by_cases hcert : cert.isPool
  · cases cert with
    | poolRegistration c =>
      obtain ⟨current, ret, _, hafter⟩ := poolCurrentState_applyPoolRegistration happ
      rw [hafter]
      split
      · exact ⟨_, rfl⟩
      · exact h
    | poolRetirement pool epoch =>
      cases happ
      obtain ⟨x, hx⟩ := h
      by_cases hp : p = pool
      · subst hp
        exact ⟨_, (poolCurrentState_applyPoolRetirement (b := { b with seq := b.seq + 1 }) hx
          p).trans (if_pos rfl)⟩
      · exact ⟨x, (poolCurrentState_applyPoolRetirement_of_ne _ epoch hp).trans hx⟩
    | _ => cases hcert
  · rw [poolCurrentState_congr (poolPart_applyCertificate (by simpa using hcert) happ)]
    exact h

end Gouroboros.Ledger.BlockLedgerState

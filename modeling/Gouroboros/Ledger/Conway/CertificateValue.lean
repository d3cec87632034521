import Gouroboros.Ledger.Common.BlockPools
import Gouroboros.Ledger.Common.BlockValue
import Gouroboros.Ledger.Conway.RuleSteps

/-!
# Certificates move no value but their deposits

Three folds walk the certificates of a transaction: the deposit rule, the value
rule and the block-scoped view. `Agrees` ties their states together while they
run in lockstep: what a rule would answer for a credential is what the view
has on record. Under it every certificate both rules accept is applied, and
moves the recorded deposits by exactly what the value rule counts
(`Agrees.step`); `Agrees.run` is the same for a whole list.
-/

namespace Gouroboros.Ledger.Conway

open Total ExceptFold BlockLedgerState

/-- The answers for one stake credential agree: the view's, the deposit rule's
and the value rule's. The deposit rule follows the balance only of a credential
the transaction deregisters. -/
structure StakeAgrees (followed : Prop) (answer : AccountAnswer) (marked : Bool)
    (deposit : Except LedgerError CertificateStakeState)
    (value : Except LedgerError ValueConservationStakeState) : Prop where
  registered : marked = answer.registered
  deposit_eq : ∀ st, deposit = .ok st → st.registered = true →
    answer.deposit = .ok (some st.deposit)
  balance_eq : followed → ∀ st, deposit = .ok st → st.registered = true →
    answer.balance = .ok (some st.balance)
  refund_eq : ∀ st st', deposit = .ok st → st.registered = true → value = .ok st' →
    st'.deposit = st.deposit
  unregistered : answer.registered = false →
    recordedAmount answer.balance = 0 ∧ recordedAmount answer.deposit = 0

/-- The answers for one DRep agree, anchors apart. -/
structure DRepAgrees (view deposit value : Except LedgerError (Option DRepRegistration)) :
    Prop where
  view_eq : ∀ reg, deposit = .ok reg →
    ∃ reg', view = .ok reg' ∧ reg'.map (·.deposit) = reg.map (·.deposit)
  refund_eq : ∀ reg reg', deposit = .ok (some reg) → value = .ok (some reg') →
    reg'.deposit = reg.deposit

/-- The deposit rule's state `s` and the value rule's `v`, both over the ledger
state `ls`, agree with the view `b` the certificates are applied to, where
`dereg` are the credentials the transaction deregisters. -/
structure Agrees (ls : LedgerState) (pp : ConwayProtocolParameters) (dereg : List Credential)
    (b : BlockLedgerState) (s : DepositState) (v : ValueState) : Prop where
  stake : ∀ c, StakeAgrees (c ∈ dereg) (b.accountAnswer c) (s.isMarkedRegistered ls c)
    (s.stakeAnswer ls c) (v.stakeAnswer ls pp c)
  drep : ∀ c, DRepAgrees (b.dRepRegistration c) (s.drepAnswer ls c) (v.drepAnswer ls c)

/-- The movements of one or more certificates that both rules accepted, the
value rule counting from `v` to `v'`. -/
structure DepositsMove (b b' : BlockLedgerState) (v v' : ValueState) : Prop where
  rewards : Moves (rewardOf b.toLedgerState) (rewardOf b'.toLedgerState) 0
  deposits : ∃ ds dd, Moves (stakeDepositOf b.toLedgerState) (stakeDepositOf b'.toLedgerState) ds ∧
    Moves (drepDepositOf b.toLedgerState) (drepDepositOf b'.toLedgerState) dd ∧
    ds + dd = (v'.deposits - v.deposits) - (v'.refunds - v.refunds)

theorem DepositsMove.refl (b : BlockLedgerState) (v : ValueState) : DepositsMove b b v v :=
  ⟨Moves.refl _, 0, 0, Moves.refl _, Moves.refl _, by ring⟩

theorem DepositsMove.trans {b b' b'' : BlockLedgerState} {v v' v'' : ValueState}
    (h₁ : DepositsMove b b' v v') (h₂ : DepositsMove b' b'' v' v'') : DepositsMove b b'' v v'' := by
  obtain ⟨ds₁, dd₁, hs₁, hd₁, hsum₁⟩ := h₁.deposits
  obtain ⟨ds₂, dd₂, hs₂, hd₂, hsum₂⟩ := h₂.deposits
  refine ⟨?_, ds₁ + ds₂, dd₁ + dd₂, hs₁.trans hs₂, hd₁.trans hd₂, by linarith⟩
  simpa using h₁.rewards.trans h₂.rewards

section Step

variable {ls : LedgerState} {pp : ConwayProtocolParameters} {dereg : List Credential}
  {b b' : BlockLedgerState} {s s' : DepositState} {v v' : ValueState} {cert : Certificate}
  {cred : Credential}

theorem blockKeyDeposit_conway (pp : ConwayProtocolParameters) :
    blockKeyDeposit pp.toProtocolParameters = .ok pp.keyDeposit := by
  have hkey : pp.toProtocolParameters.keyDepositAmount = some (pp.keyDeposit.toNat : Int) := rfl
  rw [blockKeyDeposit, hkey, Option.bind_some, uint64?_natCast]

theorem certificateDepositAmounts_conway (pp : ConwayProtocolParameters) :
    certificateDepositAmounts pp.toProtocolParameters = .ok (pp.keyDeposit, pp.dRepDeposit) := by
  have hkey : pp.toProtocolParameters.keyDepositAmount = some (pp.keyDeposit.toNat : Int) := rfl
  have hdrep : pp.toProtocolParameters.dRepDepositAmount = some (pp.dRepDeposit.toNat : Int) := rfl
  rw [certificateDepositAmounts, hkey, hdrep, Option.bind_some, Option.bind_some, uint64?_natCast,
    uint64?_natCast]

theorem Agrees.congr (h : Agrees ls pp dereg b s v)
    (hacc : ∀ c, b'.accountAnswer c = b.accountAnswer c)
    (hdrep : ∀ c, b'.dRepRegistration c = b.dRepRegistration c) : Agrees ls pp dereg b' s v := by
  constructor
  · intro c
    rw [hacc]
    exact h.stake c
  · intro c
    rw [hdrep]
    exact h.drep c

theorem Agrees.write_stake (h : Agrees ls pp dereg b s v) {st : CertificateStakeState}
    {value : Except LedgerError ValueConservationStakeState} {answer : AccountAnswer}
    (hs : s.WritesStake s' cred st)
    (hv : ∀ c, v'.stakeAnswer ls pp c = if c = cred then value else v.stakeAnswer ls pp c)
    (hvdrep : ∀ c, v'.drepAnswer ls c = v.drepAnswer ls c)
    (hacc : ∀ c, b'.accountAnswer c = if c = cred then answer else b.accountAnswer c)
    (hdrep : ∀ c, b'.dRepRegistration c = b.dRepRegistration c)
    (hnew : StakeAgrees (cred ∈ dereg) answer st.registered (.ok st) value) :
    Agrees ls pp dereg b' s' v' := by
  constructor
  · intro c
    rw [hacc, hs.isMarkedRegistered, hs.stakeAnswer, hv]
    by_cases hc : c = cred
    · simpa only [hc, if_true] using hnew
    · simpa only [hc, if_false] using h.stake c
  · intro c
    rw [hdrep, hs.drepAnswer, hvdrep]
    exact h.drep c

variable {value view : Except LedgerError (Option DRepRegistration)} {reg : Option DRepRegistration}

theorem Agrees.write_drep (h : Agrees ls pp dereg b s v) (hs : s.WritesDRep s' cred reg)
    (hv : ∀ c, v'.drepAnswer ls c = if c = cred then value else v.drepAnswer ls c)
    (hvstake : ∀ c, v'.stakeAnswer ls pp c = v.stakeAnswer ls pp c)
    (hdrep : ∀ c, b'.dRepRegistration c = if c = cred then view else b.dRepRegistration c)
    (hacc : ∀ c, b'.accountAnswer c = b.accountAnswer c)
    (hnew : DRepAgrees view (.ok reg) value) : Agrees ls pp dereg b' s' v' := by
  constructor
  · intro c
    rw [hacc, hs.isMarkedRegistered, hs.stakeAnswer, hvstake]
    exact h.stake c
  · intro c
    rw [hdrep, hs.drepAnswer, hv]
    by_cases hc : c = cred
    · simpa only [hc, if_true] using hnew
    · simpa only [hc, if_false] using h.drep c

theorem drepDeposits_move {reg : Except LedgerError (Option DRepRegistration)}
    (h : ∀ c, b'.dRepRegistration c = if c = cred then reg else b.dRepRegistration c) :
    Moves (drepDepositOf b.toLedgerState) (drepDepositOf b'.toLedgerState)
      (registrationDeposit reg - drepDepositOf b.toLedgerState cred) := by
  have heq : ∀ (t : BlockLedgerState) c,
      drepDepositOf t.toLedgerState c = registrationDeposit (t.dRepRegistration c) :=
    fun _ _ => rfl
  have hm := Moves.of_ne (f := drepDepositOf b.toLedgerState)
    (g := drepDepositOf b'.toLedgerState) cred
    (fun c hc => by rw [heq, heq, h, if_neg hc])
  rwa [heq b', h, if_pos rfl] at hm

theorem accountAnswer_of_no_effect (hc : cert.stakeEffect pp.keyDeposit = none)
    (hb : applyCertificate pp.toProtocolParameters b cert = .ok b') (c : Credential) :
    b'.accountAnswer c = b.accountAnswer c := by
  rw [accountAnswer_applyCertificate (blockKeyDeposit_conway pp) hb, hc, AccountAnswer.after]

section

variable (h : Agrees ls pp dereg b s v)
include h

/-- A stake certificate that the rules and the view take alike: `st` is what the rules then have on
record, and the deposit moves from `before` to `after`. -/
theorem Agrees.stake_step {deposit : Option UInt64}
    {st : CertificateStakeState} {vst : ValueConservationStakeState} {refund paid : Int}
    (hc : cert.stakeEffect pp.keyDeposit = some (cred, deposit))
    (hs : s.WritesStake s' cred st) (hv : v.WritesStake v' cred vst refund paid)
    (hb : applyCertificate pp.toProtocolParameters b cert = .ok b')
    (hnew : StakeAgrees (cred ∈ dereg) (.ofEffect deposit) st.registered (.ok st) (.ok vst))
    (hreward : rewardOf b.toLedgerState cred = 0)
    (hmove : recordedAmount (.ok deposit) - stakeDepositOf b.toLedgerState cred = paid - refund) :
    Agrees ls pp dereg b' s' v' ∧ DepositsMove b b' v v' := by
  have hacc : ∀ c, b'.accountAnswer c =
      if c = cred then .ofEffect deposit else b.accountAnswer c := by
    intro c
    rw [accountAnswer_applyCertificate (blockKeyDeposit_conway pp) hb, hc, AccountAnswer.after]
  have hdrep : ∀ c, b'.dRepRegistration c = b.dRepRegistration c := by
    intro c
    rw [dRepRegistration_applyCertificate hb,
      drepEffect_of_not_isDRep (Certificate.isDRep_of_stakeEffect hc)]
  have hzero : recordedAmount (AccountAnswer.ofEffect deposit).balance = 0 := by
    cases deposit with
    | none => rfl
    | some amount => rfl
  refine ⟨h.write_stake hs hv.stakeAnswer hv.drepAnswer hacc hdrep hnew, ?_, ?_⟩
  · have hr := rewards_move hacc
    rwa [hreward, hzero] at hr
  · refine ⟨_, 0, stakeDeposits_move hacc, ?_, ?_⟩
    · rw [drepDepositOf_congr hdrep]
      exact Moves.refl _
    · rw [hv.refunds, hv.deposits]
      change recordedAmount (.ok deposit) - _ + 0 = _
      rw [hmove]
      ring

theorem Agrees.drep_step (hc : cert.stakeEffect pp.keyDeposit = none)
    (hs : s.WritesDRep s' cred reg)
    (hv : ∀ c, v'.drepAnswer ls c = if c = cred then value else v.drepAnswer ls c)
    (hvstake : ∀ c, v'.stakeAnswer ls pp c = v.stakeAnswer ls pp c)
    (hb : applyCertificate pp.toProtocolParameters b cert = .ok b')
    (hview : ∀ c, drepEffect cert c (b.dRepRegistration c) = if c = cred then view else b.dRepRegistration c)
    (hnew : DRepAgrees view (.ok reg) value)
    (hmove : registrationDeposit view - drepDepositOf b.toLedgerState cred =
      (v'.deposits - v.deposits) - (v'.refunds - v.refunds)) :
    Agrees ls pp dereg b' s' v' ∧ DepositsMove b b' v v' := by
  have hacc := accountAnswer_of_no_effect hc hb
  have hdrep : ∀ c, b'.dRepRegistration c = if c = cred then view else b.dRepRegistration c :=
    fun c => (dRepRegistration_applyCertificate hb c).trans (hview c)
  refine ⟨h.write_drep hs hv hvstake hdrep hacc hnew, ?_, 0, _, ?_, drepDeposits_move hdrep, ?_⟩
  · rw [rewardOf_congr hacc]
    exact Moves.refl _
  · rw [stakeDepositOf_congr hacc]
    exact Moves.refl _
  · rw [hmove, zero_add]

theorem Agrees.drepDepositOf_eq (hreg : s.drepAnswer ls cred = .ok reg) :
    drepDepositOf b.toLedgerState cred = registrationDeposit (.ok reg) := by
  obtain ⟨reg', hview, hdep⟩ := (h.drep cred).view_eq reg hreg
  change registrationDeposit (b.dRepRegistration cred) = _
  rw [hview]
  cases reg with
  | none =>
    cases reg' with
    | none => rfl
    | some r' => cases hdep
  | some r =>
    cases reg' with
    | none => cases hdep
    | some r' =>
      have hd : r'.deposit = r.deposit := Option.some.inj hdep
      simp [registrationDeposit, Except.map, hd]

end

section Accepted

variable (h : Agrees ls pp dereg b s v)
  (hs : DepositState.step ls pp.keyDeposit pp.dRepDeposit s cert = .ok s')
  (hv : ValueState.step ls pp true v cert = .ok v')
  (hb : applyCertificate pp.toProtocolParameters b cert = .ok b')
include h hs hv hb

theorem Agrees.register {amount : UInt64}
    (hc : cert.stakeEffect pp.keyDeposit = some (cred, some amount)) :
    Agrees ls pp dereg b' s' v' ∧ DepositsMove b b' v v' := by
  obtain ⟨rfl, hunreg, rfl⟩ := (DepositState.step_register hc).mp hs
  obtain ⟨_, hwv⟩ := ValueState.step_register hc hv
  obtain ⟨hreward, hdeposit⟩ :=
    (h.stake cred).unregistered ((h.stake cred).registered.symm.trans hunreg)
  have hnew : StakeAgrees (cred ∈ dereg) (.ofEffect (some pp.keyDeposit)) true
      (.ok ⟨true, pp.keyDeposit, 0⟩) (.ok ⟨true, pp.keyDeposit⟩) := by
    refine ⟨rfl, ?_, ?_, ?_, ?_⟩
    · rintro _ ⟨⟩ _
      rfl
    · rintro _ _ ⟨⟩ _
      rfl
    · rintro _ _ ⟨⟩ _ ⟨⟩
      rfl
    · intro hfalse
      cases hfalse
  refine h.stake_step hc (DepositState.writesStake_storeStakeState s cred _) hwv hb hnew
    hreward ?_
  rw [stakeDepositOf_eq, hdeposit]
  rfl

theorem Agrees.deregister (hmem : cred ∈ dereg)
    (hc : cert.stakeEffect pp.keyDeposit = some (cred, none)) :
    Agrees ls pp dereg b' s' v' ∧ DepositsMove b b' v v' := by
  obtain ⟨state, hderegisters, hws⟩ := DepositState.step_deregister hc hs
  obtain ⟨vst, hvanswer, _, hwv⟩ := ValueState.step_deregister hc hv
  have hbal := (h.stake cred).balance_eq hmem state hderegisters.answer hderegisters.registered
  have hdep := (h.stake cred).deposit_eq state hderegisters.answer hderegisters.registered
  have hrefund := (h.stake cred).refund_eq state vst hderegisters.answer hderegisters.registered
    hvanswer
  have hnew : StakeAgrees (cred ∈ dereg) (.ofEffect none) false
      (.ok { state with registered := false, deposit := 0 }) (.ok ⟨false, 0⟩) := by
    refine ⟨rfl, ?_, ?_, ?_, fun _ => ⟨rfl, rfl⟩⟩
    · rintro _ ⟨⟩ hfalse
      cases hfalse
    · rintro _ _ ⟨⟩ hfalse
      cases hfalse
    · rintro _ _ ⟨⟩ hfalse
      cases hfalse
  refine h.stake_step hc hws hwv hb hnew ?_ ?_
  · rw [rewardOf_eq, hbal, hderegisters.balance]
    rfl
  · rw [stakeDepositOf_eq, hdep, hrefund]
    rfl

theorem Agrees.other (hc : cert.stakeEffect pp.keyDeposit = none) (hd : cert.isDRep = false) :
    Agrees ls pp dereg b' s' v' ∧ DepositsMove b b' v v' := by
  rw [DepositState.step_other hc hd] at hs
  rw [ValueState.step_other hc (fun _ _ he => by rw [he] at hd; cases hd)
    (fun _ _ _ he => by rw [he] at hd; cases hd)] at hv
  cases hs
  cases hv
  have hacc := accountAnswer_of_no_effect hc hb
  have hdrep : ∀ c, b'.dRepRegistration c = b.dRepRegistration c := by
    intro c
    rw [dRepRegistration_applyCertificate hb, drepEffect_of_not_isDRep hd]
  refine ⟨h.congr hacc hdrep, ?_, 0, 0, ?_, ?_, by ring⟩
  · rw [rewardOf_congr hacc]
    exact Moves.refl _
  · rw [stakeDepositOf_congr hacc]
    exact Moves.refl _
  · rw [drepDepositOf_congr hdrep]
    exact Moves.refl _

theorem Agrees.drep_certificate (hd : cert.isDRep) :
    Agrees ls pp dereg b' s' v' ∧ DepositsMove b b' v v' := by
  cases cert with
  | registrationDrep c amount anchor =>
    obtain ⟨rfl, hnone, hws⟩ := DepositState.step_registrationDrep hs
    have hwv := ValueState.step_registrationDrep hv
    refine h.drep_step rfl hws hwv.drepAnswer hwv.stakeAnswer hb (fun _ => rfl) ⟨?_, ?_⟩ ?_
    · rintro _ ⟨⟩
      exact ⟨_, rfl, rfl⟩
    · rintro _ _ ⟨⟩ ⟨⟩
      rfl
    · rw [h.drepDepositOf_eq hnone, hwv.refunds, hwv.deposits]
      simp [registrationDeposit, Except.map, recordedAmount]
  | deregistrationDrep c amount =>
    obtain ⟨reg, hreg, hdep, hws⟩ := DepositState.step_deregistrationDrep hs
    obtain ⟨reg', deposit, hreg', hdep', hwv⟩ := ValueState.step_deregistrationDrep hv
    have heq : deposit = amount := by
      have := (h.drep c).refund_eq reg reg' hreg hreg'
      rw [hdep, hdep'] at this
      exact Option.some.inj this
    refine h.drep_step rfl hws hwv.drepAnswer hwv.stakeAnswer hb (fun _ => rfl) ⟨?_, ?_⟩ ?_
    · rintro _ ⟨⟩
      exact ⟨_, rfl, rfl⟩
    · rintro _ _ ⟨⟩
    · rw [h.drepDepositOf_eq hreg, hwv.refunds, hwv.deposits, heq]
      simp [registrationDeposit, Except.map, recordedAmount, hdep]
  | updateDrep c anchor =>
    -- The value rule does not look at updates; the deposit stays as it was.
    obtain ⟨reg, hreg, hws⟩ := DepositState.step_updateDrep hs
    cases hv
    obtain ⟨reg', hview, hdep⟩ := (h.drep c).view_eq _ hreg
    cases reg' with
    | none => cases hdep
    | some reg' =>
      have hdep : reg'.deposit = reg.deposit := Option.some.inj hdep
      have hvalue : ∀ d, v.drepAnswer ls d =
          if d = c then v.drepAnswer ls c else v.drepAnswer ls d := by
        intro d
        rw [← Function.update_apply, Function.update_eq_self]
      have heffect : ∀ d, drepEffect (.updateDrep c anchor) d
          (b.dRepRegistration d) =
            if d = c then .ok (some { reg' with anchor := anchor })
            else b.dRepRegistration d := by
        intro d
        by_cases hdc : d = c
        · simp [drepEffect, hdc, hview, Except.map]
        · simp [drepEffect, hdc]
      refine h.drep_step rfl hws hvalue (fun _ => rfl) hb heffect ⟨?_, ?_⟩ ?_
      · rintro _ ⟨⟩
        exact ⟨_, rfl, congrArg some hdep⟩
      · rintro _ r ⟨⟩ hr
        exact (h.drep c).refund_eq reg r hreg hr
      · rw [h.drepDepositOf_eq hreg]
        simp [registrationDeposit, Except.map, hdep]
  | _ => cases hd

end Accepted

theorem Agrees.step (h : Agrees ls pp dereg b s v)
    (hdereg : ∀ c, cert.stakeEffect pp.keyDeposit = some (c, none) → c ∈ dereg)
    (hpool : ∀ c, cert = .poolRegistration c → ∃ x, b.poolCurrentState c.operator = .ok x)
    (hs : DepositState.step ls pp.keyDeposit pp.dRepDeposit s cert = .ok s')
    (hv : ValueState.step ls pp true v cert = .ok v') :
    ∃ b', applyCertificate pp.toProtocolParameters b cert = .ok b' ∧
      Agrees ls pp dereg b' s' v' ∧ DepositsMove b b' v v' := by
  have hdrep : ∀ c anchor, cert = .updateDrep c anchor → ∃ x, b.dRepRegistration c = .ok x := by
    rintro c anchor rfl
    obtain ⟨reg, hreg, _⟩ := DepositState.step_updateDrep hs
    obtain ⟨reg', hview, _⟩ := (h.drep c).view_eq _ hreg
    exact ⟨reg', hview⟩
  obtain ⟨b', hb⟩ := exists_applyCertificate (blockKeyDeposit_conway pp) hpool hdrep
  refine ⟨b', hb, ?_⟩
  cases hc : cert.stakeEffect pp.keyDeposit with
  | none =>
    cases hd : cert.isDRep with
    | true => exact h.drep_certificate hs hv hb hd
    | false => exact h.other hs hv hb hc hd
  | some effect =>
    obtain ⟨cred, deposit⟩ := effect
    cases deposit with
    | none => exact h.deregister hs hv hb (hdereg cred hc) hc
    | some amount => exact h.register hs hv hb hc

theorem Agrees.run {certs : List Certificate} (h : Agrees ls pp dereg b s v)
    (hdereg : ∀ cert ∈ certs, ∀ c, cert.stakeEffect pp.keyDeposit = some (c, none) → c ∈ dereg)
    (hpool : ∀ c, .poolRegistration c ∈ certs → ∃ x, b.poolCurrentState c.operator = .ok x)
    (hs : certs.foldlM (DepositState.step ls pp.keyDeposit pp.dRepDeposit) s = .ok s')
    (hv : certs.foldlM (ValueState.step ls pp true) v = .ok v') :
    ∃ b', b.applyCertificates pp.toProtocolParameters certs = .ok b' ∧ DepositsMove b b' v v' := by
  induction certs generalizing b s v with
  | nil =>
    cases hs
    cases hv
    exact ⟨b, rfl, .refl b _⟩
  | cons cert certs ih =>
    obtain ⟨s₁, hs₁, hs⟩ := foldlM_cons_eq_ok.mp hs
    obtain ⟨v₁, hv₁, hv⟩ := foldlM_cons_eq_ok.mp hv
    obtain ⟨b₁, hb₁, h₁, hmove₁⟩ := h.step (hdereg cert (by simp))
      (fun c hc => hpool c (by simp [hc])) hs₁ hv₁
    obtain ⟨b', hb', hmove⟩ := ih h₁ (fun cert' hmem => hdereg cert' (by simp [hmem]))
      (fun c hc => poolCurrentState_ok_applyCertificate hb₁ c.operator
        (hpool c (by simp [hc]))) hs hv
    exact ⟨b', foldlM_cons_eq_ok.mpr ⟨b₁, hb₁, hb'⟩, hmove₁.trans hmove⟩

end Step

end Gouroboros.Ledger.Conway

import Mathlib.Algebra.Order.Group.Multiset
import Gouroboros.Pipeline.ApplyOrder
import Gouroboros.Pipeline.BlockPipeline

/-!
# The reorder buffer never overflows

What holds over every interleaving of `Submit`, the workers, the runner and `Fence`
is `pipeline_bounded_and_fenced`. The sequence numbers on their way to the runner or
in its buffer (`waiting`) are distinct and between the next one to apply and the
number of items queued, which `waitForPendingCapacity` keeps within `m + 1` of the
completed sequence (`PipelineInv`).
-/

namespace Gouroboros.Pipeline

def seqs (items : List BlockItem) : Multiset Nat := ↑(items.map BlockItem.sequenceNumber)

@[simp] theorem seqs_nil : seqs [] = 0 := rfl

@[simp] theorem seqs_cons (item : BlockItem) (items : List BlockItem) :
    seqs (item :: items) = item.sequenceNumber ::ₘ seqs items := rfl

@[simp] theorem seqs_append (a b : List BlockItem) : seqs (a ++ b) = seqs a + seqs b := by
  simp [seqs]

theorem seqs_erase {item : BlockItem} {items : List BlockItem} (h : item ∈ items) :
    item.sequenceNumber ::ₘ seqs (items.erase item) = seqs items := by
  exact Multiset.coe_eq_coe.mpr ((List.perm_cons_erase h).symm.map _)

theorem seqs_erase_le (item : BlockItem) (items : List BlockItem) :
    seqs (items.erase item) ≤ seqs items :=
  Multiset.coe_le.mpr ((List.erase_sublist.map _).subperm)

/-! ## What a step of the runner does -/

namespace ApplyStageRunner

def arriving : Pc → List BlockItem
  | .process item => [item]
  | .dispatch item => [item]
  | _ => []

/-- The sequence numbers the runner has received and not yet taken up. -/
def waiting (s : ApplyStageRunner) : Multiset Nat := seqs (arriving s.pc) + ↑s.pending.keys

def LimitExceeded (s : ApplyStageRunner) : Prop :=
  ∃ item, .rejected item .pendingLimitExceeded ∈ s.log

/-- A step may lose waiting numbers, or take up the next one. -/
structure Effect (s s' : ApplyStageRunner) : Prop where
  taken : s'.nextSequence = s.nextSequence ∧ s'.waiting ≤ s.waiting ∨
    s'.nextSequence = s.nextSequence + 1 ∧ s.nextSequence ::ₘ s'.waiting ≤ s.waiting
  reported : s.reported ≤ s'.reported
  limit : s'.LimitExceeded → s.LimitExceeded

variable {cfg : ApplyConfig} {s s' : ApplyStageRunner} {item : BlockItem}
  {processed : List BlockItem}

theorem effect_of_still (hnext : s'.nextSequence = s.nextSequence)
    (hpending : s'.pending = s.pending)
    (harriving : arriving s'.pc = [] ∨ arriving s'.pc = arriving s.pc)
    (hreported : s.reported ≤ s'.reported) (hlimit : s'.LimitExceeded → s.LimitExceeded) :
    Effect s s' := by
  refine ⟨.inl ⟨hnext, ?_⟩, hreported, hlimit⟩
  unfold waiting
  rw [hpending]
  rcases harriving with harriving | harriving
  · rw [harriving, seqs_nil, Multiset.zero_add]
    exact Multiset.le_add_left _ _
  · rw [harriving]

theorem effect_goes {pc : Pc} {cancelled : Bool} {output : List BlockItem}
    (hpc : arriving pc = []) : Effect s { s with cancelled, output, pc } :=
  effect_of_still rfl rfl (.inl hpc) (Nat.le_refl _) id

theorem limitExceeded_record {event : Event}
    (hevent : ∀ item, event ≠ .rejected item .pendingLimitExceeded)
    (h : (s.record event).LimitExceeded) : s.LimitExceeded := by
  rcases h with ⟨item, hmem⟩
  rcases List.mem_append.mp hmem with hold | hnew
  · exact ⟨item, hold⟩
  · exact absurd (List.mem_singleton.mp hnew).symm (hevent item)

theorem effect_complete : Effect s (s.complete item processed) :=
  effect_of_still rfl rfl (.inl rfl) (Nat.le_refl _) (limitExceeded_record nofun)

theorem effect_reject {err : ProcessError} (herr : err ≠ .pendingLimitExceeded) :
    Effect s (s.reject item processed err) :=
  effect_of_still rfl rfl (.inl rfl) (Nat.le_refl _)
    (limitExceeded_record fun _ heq => herr (Event.rejected.inj heq).2)

theorem Effect.of_record (event : Event)
    (hevent : ∀ item, event ≠ .rejected item .pendingLimitExceeded)
    (h : Effect (s.record event) s') : Effect s s' :=
  ⟨h.taken, h.reported, fun hlimit => limitExceeded_record hevent (h.limit hlimit)⟩

theorem effect_maybeApply : Effect s (s.maybeApply cfg item processed) := by
  unfold maybeApply
  split
  · split
    · exact effect_complete
    · exact effect_reject nofun
  split
  · exact effect_reject nofun
  split
  · exact effect_reject nofun
  split
  · exact effect_complete
  split
  · exact effect_reject nofun
  · exact effect_goes rfl

theorem effect_callChainContextValidator {outcome : CallOutcome} :
    Effect s (s.callChainContextValidator cfg item processed outcome) := by
  unfold callChainContextValidator
  refine .of_record (.chainContext item (outcome.err "chain-context validator")) nofun ?_
  cases outcome.err "chain-context validator" with
  | some err => exact effect_reject nofun
  | none =>
    refine effect_goes ?_
    split
    · rfl
    · rfl

theorem effect_callOrderedValidator {outcome : CallOutcome} :
    Effect s (s.callOrderedValidator item processed outcome) := by
  unfold callOrderedValidator
  refine .of_record (.ordered item (outcome.err "ordered validator")) nofun ?_
  cases outcome.err "ordered validator" with
  | some err => exact effect_reject nofun
  | none => exact effect_goes rfl

theorem effect_callApplyFunc {outcome : CallOutcome} :
    Effect s (s.callApplyFunc item processed outcome) := by
  unfold callApplyFunc
  refine .of_record (.apply item (outcome.err "apply function")) nofun ?_
  cases outcome.err "apply function" with
  | some err => exact effect_reject nofun
  | none => exact effect_complete

theorem effect_takePending (hpc : s.pc = .takePending processed) :
    Effect s (s.takePending processed) := by
  unfold takePending
  split
  · exact effect_goes rfl
  · rename_i item hlookup
    refine ⟨.inr ⟨rfl, ?_⟩, Nat.le_refl _, id⟩
    have hmem : s.nextSequence ∈ s.pending.keys := GoMap.mem_keys_iff.mpr ⟨item, hlookup⟩
    unfold waiting
    rw [hpc]
    show s.nextSequence ::ₘ (0 + ↑(s.pending.erase s.nextSequence).keys) ≤ 0 + ↑s.pending.keys
    rw [Multiset.zero_add, Multiset.zero_add, AList.keys_erase, ← Multiset.coe_erase,
      Multiset.cons_erase (Multiset.mem_coe.mpr hmem)]

/-- The waiting numbers are distinct and at most `m` past the next one. -/
structure Ahead (m : Nat) (s : ApplyStageRunner) : Prop where
  nodup : s.waiting.Nodup
  range : ∀ n ∈ s.waiting, s.nextSequence ≤ n ∧ n ≤ s.nextSequence + m

/-- An item that is not the next one finds room in the buffer: it and the
buffered ones are distinct numbers of the `m` after the next one. -/
theorem Ahead.pending_lt {m : Nat} (h : s.Ahead m) (hpc : s.pc = .dispatch item)
    (hseq : item.sequenceNumber ≠ s.nextSequence)
    (hnext : s.pending.lookup s.nextSequence = none) : s.pending.keys.length < m := by
  have hwaiting : s.waiting = ↑(item.sequenceNumber :: s.pending.keys) := by
    unfold waiting
    rw [hpc]
    rfl
  have hnodup : (item.sequenceNumber :: s.pending.keys).Nodup := by
    have hnodup := h.nodup
    rw [hwaiting] at hnodup
    exact hnodup
  have hkeys : s.nextSequence ∉ s.pending.keys := by
    intro hmem
    obtain ⟨other, hother⟩ := GoMap.mem_keys_iff.mp hmem
    rw [hnext] at hother
    cases hother
  have hsub : ∀ n ∈ item.sequenceNumber :: s.pending.keys,
      n ∈ List.range' (s.nextSequence + 1) m := by
    intro n hn
    have hrange := h.range n (by rw [hwaiting]; exact hn)
    have hne : n ≠ s.nextSequence := by
      rcases List.mem_cons.mp hn with rfl | hn
      · exact hseq
      · rintro rfl
        exact hkeys hn
    rw [List.mem_range'_1]
    omega
  have hlength := (hnodup.subperm hsub).length_le
  rw [List.length_cons, List.length_range'] at hlength
  exact hlength

theorem effect_processWithStatus {m : Nat} (h : s.Ahead m) (hm : cfg.maxPending = m)
    (hpc : s.pc = .dispatch item) (hnext : s.pending.lookup s.nextSequence = none) :
    Effect s (s.processWithStatus cfg item) := by
  have hwaiting : s.waiting = item.sequenceNumber ::ₘ ↑s.pending.keys := by
    unfold waiting
    rw [hpc]
    rfl
  unfold processWithStatus
  split
  · rename_i hseq
    refine ⟨.inr ⟨rfl, ?_⟩, Nat.le_refl _, id⟩
    rw [hwaiting, hseq]
    show s.nextSequence ::ₘ (0 + ↑s.pending.keys) ≤ _
    rw [Multiset.zero_add]
  · rename_i hseq
    split
    · have hroom := h.pending_lt hpc hseq hnext
      omega
    · refine ⟨.inl ⟨rfl, ?_⟩, Nat.le_refl _, id⟩
      rw [hwaiting]
      show 0 + (↑(s.pending.insert item.sequenceNumber item).keys : Multiset Nat) ≤ _
      rw [Multiset.zero_add, AList.keys_insert, ← Multiset.cons_coe]
      exact Multiset.cons_le_cons _ (Multiset.coe_le.mpr List.erase_sublist.subperm)

theorem effect_accountProcessed {err : Option ProcessError} (h : Inv cfg s)
    (hpc : s.pc = .accountProcessed processed err) :
    Effect s (s.accountProcessed cfg processed err) := by
  have hreported : s.reported ≤ (s.callProcessedFunc processed).reported := by
    refine (reported_callProcessedFunc h.stage ?_).1
    have hplace := h.pc
    rw [hpc] at hplace
    cases err with
    | none => exact fun _ => hplace.1.delivered
    | some err => exact hplace.2
  unfold accountProcessed
  split
  · exact effect_of_still rfl rfl (.inl rfl) hreported id
  · exact effect_of_still rfl rfl (.inl rfl) hreported id

theorem effect_step {m : Nat} {choice : Choice} (h : Inv cfg s) (hahead : s.Ahead m)
    (hm : cfg.maxPending = m) (hstep : s.step cfg choice = some s')
    (hchoice : ∀ item, choice ≠ .receive item) : Effect s s' := by
  have hplace := h.pc
  have hforward (err : Option ProcessError) : arriving (afterForward err) = [] := by
    cases err with
    | none | some => rfl
  unfold ApplyStageRunner.step at hstep
  split at hstep
  case h_1 =>
    cases hstep
    exact effect_of_still rfl rfl (.inr rfl) (Nat.le_refl _) id
  case h_3 item _ => exact absurd rfl (hchoice item)
  case h_4 item hpc =>
    cases hstep
    cases hcancelled : s.cancelled with
    | true => exact effect_goes rfl
    | false => exact effect_of_still rfl rfl (.inr (by rw [hpc]; rfl)) (Nat.le_refl _) id
  case h_5 item hpc =>
    cases hstep
    rw [hpc] at hplace
    exact effect_processWithStatus hahead hm hpc hplace.2
  case h_6 =>
    cases hstep
    exact effect_maybeApply
  case h_7 =>
    cases hstep
    exact effect_callChainContextValidator
  case h_8 =>
    cases hstep
    exact effect_callOrderedValidator
  case h_9 =>
    cases hstep
    split
    · exact effect_reject nofun
    · exact effect_goes rfl
  case h_10 =>
    rcases Option.ite_none_left_eq_some.mp hstep with ⟨-, hstep⟩
    cases hstep
    exact effect_complete
  case h_11 =>
    rcases Option.ite_none_right_eq_some.mp hstep with ⟨-, hstep⟩
    cases hstep
    exact effect_callApplyFunc
  case h_12 =>
    cases hstep
    refine effect_goes ?_
    split
    · rfl
    · rfl
  case h_13 hpc =>
    cases hstep
    exact effect_takePending hpc
  case h_14 hpc =>
    cases hstep
    exact effect_accountProcessed h hpc
  case h_17 =>
    rcases Option.ite_none_right_eq_some.mp hstep with ⟨-, hstep⟩
    cases hstep
    exact effect_goes (hforward _)
  case h_18 =>
    cases hstep
    exact effect_goes (hforward _)
  case h_20 =>
    rcases Option.ite_none_right_eq_some.mp hstep with ⟨-, hstep⟩
    cases hstep
    exact effect_goes rfl
  case h_23 => cases hstep
  all_goals
    cases hstep
    exact effect_goes rfl

theorem step_receive (hstep : s.step cfg (.receive item) = some s') :
    s' = { s with pc := .process item } ∧ s'.waiting = item.sequenceNumber ::ₘ s.waiting := by
  unfold ApplyStageRunner.step at hstep
  cases hpc : s.pc with
  | select =>
    rw [hpc] at hstep
    cases hstep
    refine ⟨rfl, ?_⟩
    unfold waiting
    rw [hpc]
    show item.sequenceNumber ::ₘ 0 + _ = item.sequenceNumber ::ₘ (0 + _)
    rw [Multiset.cons_add]
  | _ => simp [hpc] at hstep

end ApplyStageRunner

/-! ## The pipeline -/

namespace BlockPipeline

/-- The sequence numbers between the enqueue and the apply stage. -/
def waiting (p : BlockPipeline) : Multiset Nat :=
  seqs p.submitChan + seqs p.decoding + seqs p.decodedChan + seqs p.validating +
    seqs p.validatedChan + p.runner.waiting

/-- What the holder of the gate knows. Between the enqueue and the commit the
queue is one ahead of the counter. -/
def GateInv (m : Nat) (p : BlockPipeline) : Gate → Prop
  | .free | .waiting | .fence =>
    p.queued.length = p.sequenceCounter ∧ p.returned = List.range p.sequenceCounter
  | .ready sequence =>
    sequence = p.sequenceCounter ∧ p.queued.length = p.sequenceCounter ∧
      p.returned = List.range p.sequenceCounter ∧ p.sequenceCounter ≤ p.completedSequence + m
  | .enqueued sequence =>
    sequence = p.sequenceCounter ∧ p.queued.length = p.sequenceCounter + 1 ∧
      p.returned = List.range p.sequenceCounter
  | .committed sequence =>
    sequence + 1 = p.sequenceCounter ∧ p.queued.length = p.sequenceCounter ∧
      p.returned = List.range sequence

structure FenceInv (p : BlockPipeline) (fence : Fence) : Prop where
  acknowledged : ∀ n ∈ fence.acknowledged, n < fence.target
  completed : fence.returnedNil = true → fence.target ≤ p.completedSequence

structure PipelineInv (cfg : PipelineConfig) (m : Nat) (p : BlockPipeline) : Prop where
  runner : ApplyStageRunner.Inv cfg.apply p.runner
  nodup : p.waiting.Nodup
  ahead : ∀ n ∈ p.waiting, p.runner.nextSequence ≤ n ∧ n < p.queued.length
  next_le : p.runner.nextSequence ≤ p.queued.length
  queued : p.queued = List.range p.queued.length
  bound : p.queued.length ≤ p.completedSequence + m + 1
  gate : p.GateInv m p.gate
  limit : ¬ p.runner.LimitExceeded
  fences : ∀ fence ∈ p.fences, p.FenceInv fence

variable {cfg : PipelineConfig} {m : Nat} {p p' : BlockPipeline}

theorem pipelineInv_start (cfg : PipelineConfig) (m : Nat) : PipelineInv cfg m {} where
  runner := ApplyStageRunner.inv_start _
  nodup := Multiset.nodup_zero
  ahead := fun n hn => absurd hn (Multiset.notMem_zero n)
  next_le := Nat.le_refl _
  queued := rfl
  bound := Nat.zero_le _
  gate := ⟨rfl, rfl⟩
  limit := fun ⟨_, hmem⟩ => by cases hmem
  fences := nofun

theorem PipelineInv.completed_le (h : PipelineInv cfg m p) :
    p.completedSequence ≤ p.runner.nextSequence :=
  h.runner.stage.reported_le.trans h.runner.stage.count_le

theorem PipelineInv.ahead_runner (h : PipelineInv cfg m p) : p.runner.Ahead m := by
  have hle : p.runner.waiting ≤ p.waiting := Multiset.le_add_left _ _
  refine ⟨Multiset.nodup_of_le hle h.nodup, fun n hn => ?_⟩
  have hrange := h.ahead n (Multiset.mem_of_le hle hn)
  have hbound := h.bound
  have hcompleted := h.completed_le
  omega

theorem FenceInv.mono {fence : Fence} (h : p.FenceInv fence)
    (hle : p.completedSequence ≤ p'.completedSequence) : p'.FenceInv fence :=
  ⟨h.acknowledged, fun hreturned => (h.completed hreturned).trans hle⟩

/-! ### The workers -/

theorem PipelineInv.move (h : PipelineInv cfg m p)
    (submitChan decoding decodedChan validating validatedChan : List BlockItem)
    (hwaiting : seqs submitChan + seqs decoding + seqs decodedChan + seqs validating +
      seqs validatedChan + p.runner.waiting ≤ p.waiting) :
    PipelineInv cfg m
      { p with
        submitChan := submitChan, decoding := decoding, decodedChan := decodedChan,
        validating := validating, validatedChan := validatedChan } where
  __ := h
  nodup := Multiset.nodup_of_le hwaiting h.nodup
  ahead := fun n hn => h.ahead n (Multiset.mem_of_le hwaiting hn)
  fences := fun fence hmem => (h.fences fence hmem).mono (Nat.le_refl _)

variable {action : PipelineAction}

section

variable (h : PipelineInv cfg m p)
include h

theorem PipelineInv.workerStep
    (hstep : p.workerStep cfg action = some p') : PipelineInv cfg m p' := by
  unfold BlockPipeline.workerStep at hstep
  split at hstep
  case h_6 => cases hstep
  all_goals
    split at hstep <;> cases hstep
    apply h.move
    unfold waiting
  -- into a stage and out of it, twice
  iterate 2
    · rename_i hchan
      rw [hchan, seqs_cons, seqs_cons]
      simp only [Multiset.cons_add, Multiset.add_cons, le_refl]
    · rename_i hmem
      rw [← seqs_erase hmem, seqs_append, seqs_cons, seqs_nil]
      simp only [Multiset.cons_add, Multiset.add_cons, Multiset.add_zero, le_refl]
  · rename_i item _
    have hdecoding := seqs_erase_le item p.decoding
    have hvalidating := seqs_erase_le item p.validating
    gcongr

/-! ### The runner -/

theorem PipelineInv.of_effect {runner : ApplyStageRunner}
    (hrunner : ApplyStageRunner.Inv cfg.apply runner)
    (heffect : ApplyStageRunner.Effect p.runner runner) :
    PipelineInv cfg m { p with runner := runner } := by
  have hahead : ({ p with runner := runner } : BlockPipeline).waiting.Nodup ∧
      (∀ n ∈ ({ p with runner := runner } : BlockPipeline).waiting,
        runner.nextSequence ≤ n ∧ n < p.queued.length) ∧
      runner.nextSequence ≤ p.queued.length := by
    rcases heffect.taken with ⟨hnext, hle⟩ | ⟨hnext, hle⟩
    · have hle' : ({ p with runner := runner } : BlockPipeline).waiting ≤ p.waiting :=
        add_le_add_right hle _
      rw [hnext]
      exact ⟨Multiset.nodup_of_le hle' h.nodup, fun n hn => h.ahead n (Multiset.mem_of_le hle' hn),
        h.next_le⟩
    · have hle' : p.runner.nextSequence ::ₘ ({ p with runner := runner } : BlockPipeline).waiting ≤
          p.waiting := by
        unfold waiting
        rw [← Multiset.add_cons]
        exact add_le_add_right hle _
      obtain ⟨hnew, hnodup⟩ := Multiset.nodup_cons.mp (Multiset.nodup_of_le hle' h.nodup)
      refine ⟨hnodup, fun n hn => ?_, ?_⟩
      · have hrange := h.ahead n (Multiset.mem_of_le hle' (Multiset.mem_cons_of_mem hn))
        have hne : n ≠ p.runner.nextSequence := by
          rintro rfl
          exact hnew hn
        omega
      · have hrange := h.ahead _ (Multiset.mem_of_le hle' (Multiset.mem_cons_self _ _))
        omega
  have hcompleted : p.completedSequence ≤ runner.reported := heffect.reported
  refine ⟨hrunner, hahead.1, hahead.2.1, hahead.2.2, h.queued, ?_, ?_,
    fun hlimit => h.limit (heffect.limit hlimit), fun fence hmem => (h.fences fence hmem).mono hcompleted⟩
  · have hbound := h.bound
    show p.queued.length ≤ runner.reported + m + 1
    omega
  · have hgate := h.gate
    cases hplace : p.gate with
    | ready sequence =>
      rw [hplace] at hgate
      refine ⟨hgate.1, hgate.2.1, hgate.2.2.1, ?_⟩
      show p.sequenceCounter ≤ runner.reported + m
      exact hgate.2.2.2.trans (Nat.add_le_add_right hcompleted m)
    | free | waiting | fence | enqueued | committed =>
      rw [hplace] at hgate
      exact hgate

theorem PipelineInv.receive {item : BlockItem} {runner : ApplyStageRunner}
    (hstep : p.runner.step cfg.apply (.receive item) = some runner)
    (decodedChan validatedChan : List BlockItem)
    (hchan : item.sequenceNumber ::ₘ (seqs decodedChan + seqs validatedChan) =
      seqs p.decodedChan + seqs p.validatedChan) :
    PipelineInv cfg m
      { p with decodedChan := decodedChan, validatedChan := validatedChan, runner := runner } := by
  obtain ⟨hrunner, hreceived⟩ := ApplyStageRunner.step_receive hstep
  have hwaiting : ({ p with
      decodedChan := decodedChan, validatedChan := validatedChan, runner := runner } :
      BlockPipeline).waiting = p.waiting := by
    unfold waiting
    rw [hreceived]
    calc seqs p.submitChan + seqs p.decoding + seqs decodedChan + seqs p.validating +
          seqs validatedChan + item.sequenceNumber ::ₘ p.runner.waiting
        = seqs p.submitChan + seqs p.decoding + seqs p.validating +
            item.sequenceNumber ::ₘ (seqs decodedChan + seqs validatedChan) + p.runner.waiting := by
          simp only [Multiset.add_cons, Multiset.cons_add]
          congr 1
          abel
      _ = _ := by
          rw [hchan]
          abel
  have hinv := h.runner.step hstep
  subst hrunner
  exact
    { h with
      runner := hinv
      nodup := hwaiting ▸ h.nodup
      ahead := fun n hn => h.ahead n (hwaiting ▸ hn)
      fences := fun fence hmem => (h.fences fence hmem).mono (Nat.le_refl _) }

theorem PipelineInv.receiveStep (hstep : p.receiveStep cfg = some p') : PipelineInv cfg m p' := by
  unfold BlockPipeline.receiveStep at hstep
  split at hstep
  · rename_i item rest _ hchan
    obtain ⟨runner, hrunner, rfl⟩ := Option.map_eq_some_iff.mp hstep
    refine h.receive hrunner p.decodedChan rest ?_
    rw [hchan, seqs_cons, Multiset.add_cons]
  · rename_i item rest _ hchan
    obtain ⟨runner, hrunner, rfl⟩ := Option.map_eq_some_iff.mp hstep
    refine h.receive hrunner rest p.validatedChan ?_
    rw [hchan, seqs_cons, Multiset.cons_add]
  · cases hstep

/-! ### Submissions and fences -/

theorem PipelineInv.enqueue {sequence : Nat}
    (hgate : p.gate = .ready sequence) :
    PipelineInv cfg m
      { p with
        submitChan := p.submitChan ++ [newBlockItem sequence]
        queued := p.queued ++ [sequence]
        gate := .enqueued sequence } := by
  have hready := h.gate
  rw [hgate] at hready
  obtain ⟨hsequence, hqueued, hreturned, hcapacity⟩ := hready
  have hlength : (p.queued ++ [sequence]).length = p.queued.length + 1 := by simp
  have hwaiting : ({ p with
      submitChan := p.submitChan ++ [newBlockItem sequence]
      queued := p.queued ++ [sequence]
      gate := .enqueued sequence } : BlockPipeline).waiting = sequence ::ₘ p.waiting := by
    unfold waiting
    rw [seqs_append, seqs_cons, seqs_nil]
    simp only [Multiset.cons_add, Multiset.add_cons, Multiset.add_zero]
    rfl
  refine ⟨h.runner, ?_, ?_, ?_, ?_, ?_, ⟨hsequence, ?_, hreturned⟩, h.limit,
    fun fence hmem => (h.fences fence hmem).mono (Nat.le_refl _)⟩
  · rw [hwaiting, Multiset.nodup_cons]
    refine ⟨fun hmem => ?_, h.nodup⟩
    have hlt := (h.ahead sequence hmem).2
    omega
  · intro n hn
    rw [hwaiting, Multiset.mem_cons] at hn
    dsimp only
    have hnext := h.next_le
    rcases hn with rfl | hn
    · omega
    · have hrange := h.ahead n hn
      omega
  · have hnext := h.next_le
    dsimp only
    omega
  · rw [hlength, List.range_succ, ← h.queued]
    rw [hsequence, ← hqueued]
  · show (p.queued ++ [sequence]).length ≤ p.completedSequence + m + 1
    omega
  · dsimp only
    omega

theorem PipelineInv.still {gate : Gate} {sequenceCounter : Nat} {returned : List Nat}
    {fences : List Fence}
    (hgate : GateInv m { p with gate, sequenceCounter, returned, fences } gate)
    (hfences : ∀ fence ∈ fences, p.FenceInv fence) :
    PipelineInv cfg m { p with gate, sequenceCounter, returned, fences } :=
  ⟨h.runner, h.nodup, h.ahead, h.next_le, h.queued, h.bound, hgate, h.limit,
    fun fence hmem => (hfences fence hmem).mono (Nat.le_refl _)⟩

theorem PipelineInv.submitStep (hm : cfg.maxPendingBlocks = m)
    (hpos : 0 < m) (hstep : p.submitStep cfg action = some p') : PipelineInv cfg m p' := by
  have hgate := h.gate
  unfold BlockPipeline.submitStep at hstep
  cases action with
  | lockSubmit =>
    rcases Option.ite_none_right_eq_some.mp hstep with ⟨hfree, hstep⟩
    cases hstep
    rw [hfree] at hgate
    exact h.still hgate h.fences
  | capacity =>
    rcases Option.ite_none_right_eq_some.mp hstep with ⟨⟨hwaiting, hcapacity⟩, hstep⟩
    cases hstep
    rw [hwaiting] at hgate
    have hroom : p.sequenceCounter ≤ p.completedSequence + m := by
      unfold hasPendingCapacity at hcapacity
      omega
    exact h.still ⟨rfl, hgate.1, hgate.2, hroom⟩ h.fences
  | failSubmit =>
    dsimp only at hstep
    split at hstep <;> cases hstep
    · rename_i hplace
      rw [hplace] at hgate
      exact h.still hgate h.fences
    · rename_i hplace
      rw [hplace] at hgate
      exact h.still ⟨hgate.2.1, hgate.2.2.1⟩ h.fences
  | enqueue =>
    dsimp only at hstep
    split at hstep <;> cases hstep
    rename_i hplace
    exact h.enqueue hplace
  | commit =>
    dsimp only at hstep
    split at hstep <;> cases hstep
    rename_i hplace
    rw [hplace] at hgate
    rcases hgate with ⟨rfl, hqueued, hreturned⟩
    exact h.still ⟨rfl, hqueued, hreturned⟩ h.fences
  | unlockSubmit =>
    dsimp only at hstep
    split at hstep <;> cases hstep
    rename_i hplace
    rw [hplace] at hgate
    rcases hgate with ⟨hnext, hqueued, hreturned⟩
    refine h.still ⟨hqueued, ?_⟩ h.fences
    dsimp only
    rw [hreturned, ← hnext, List.range_succ]
  | _ => cases hstep

theorem PipelineInv.fenceStep (hstep : p.fenceStep action = some p') : PipelineInv cfg m p' := by
  have hgate := h.gate
  unfold BlockPipeline.fenceStep at hstep
  cases action with
  | lockFence | failFence =>
    rcases Option.ite_none_right_eq_some.mp hstep with ⟨hplace, hstep⟩
    cases hstep
    rw [hplace] at hgate
    exact h.still hgate h.fences
  | captureFence =>
    rcases Option.ite_none_right_eq_some.mp hstep with ⟨hplace, hstep⟩
    cases hstep
    rw [hplace] at hgate
    refine h.still hgate fun fence hmem => ?_
    rcases List.mem_append.mp hmem with hold | hnew
    · exact h.fences fence hold
    · -- every submission that has returned is below the boundary
      rw [List.mem_singleton.mp hnew]
      refine ⟨fun n hn => ?_, nofun⟩
      rw [hgate.2] at hn
      exact List.mem_range.mp hn
  | returnFence index =>
    dsimp only at hstep
    split at hstep
    case h_1 before hbefore =>
      rcases Option.ite_none_right_eq_some.mp hstep with ⟨hreached, hstep⟩
      cases hstep
      refine h.still h.gate fun fence hmem => ?_
      rcases List.mem_or_eq_of_mem_set hmem with hold | rfl
      · exact h.fences fence hold
      · exact ⟨(h.fences before (List.mem_of_getElem? hbefore)).acknowledged, fun _ => hreached⟩
    case h_2 => cases hstep
  | _ => cases hstep

theorem PipelineInv.step (hm : cfg.maxPendingBlocks = m) (hpos : 0 < m)
    (hstep : p.step cfg action = some p') : PipelineInv cfg m p' := by
  unfold BlockPipeline.step at hstep
  split at hstep
  · exact h.receiveStep hstep
  · cases hstep
  · rename_i choice hchoice
    obtain ⟨runner, hrunner, rfl⟩ := Option.map_eq_some_iff.mp hstep
    exact h.of_effect (h.runner.step hrunner)
      (ApplyStageRunner.effect_step h.runner h.ahead_runner hm hrunner fun item heq => hchoice item heq)
  all_goals first
    | exact h.submitStep hm hpos hstep
    | exact h.workerStep hstep
    | exact h.fenceStep hstep

theorem PipelineInv.completed_mono (hm : cfg.maxPendingBlocks = m)
    (hstep : p.step cfg action = some p') : p.completedSequence ≤ p'.completedSequence := by
  have hsame : p'.runner = p.runner → p.completedSequence ≤ p'.completedSequence := by
    intro hrunner
    rw [completedSequence, completedSequence, hrunner]
  unfold BlockPipeline.step at hstep
  split at hstep
  · unfold BlockPipeline.receiveStep at hstep
    split at hstep
    case h_3 => cases hstep
    all_goals
      obtain ⟨runner, hrunner, rfl⟩ := Option.map_eq_some_iff.mp hstep
      obtain ⟨rfl, _⟩ := ApplyStageRunner.step_receive hrunner
      exact Nat.le_refl _
  · cases hstep
  · rename_i choice hchoice
    obtain ⟨runner, hrunner, rfl⟩ := Option.map_eq_some_iff.mp hstep
    exact (ApplyStageRunner.effect_step h.runner h.ahead_runner hm hrunner
      fun item heq => hchoice item heq).reported
  -- only the runner's own steps change the runner
  all_goals
    exact hsame (by
      grind [BlockPipeline.submitStep, BlockPipeline.workerStep, BlockPipeline.fenceStep])

theorem PipelineInv.counter_le :
    p.sequenceCounter ≤ p.queued.length ∧ ∃ n, p.returned = List.range n := by
  have hgate := h.gate
  generalize p.gate = place at hgate
  cases place with
  | free | waiting | fence => exact ⟨hgate.1.ge, _, hgate.2⟩
  | ready sequence => exact ⟨hgate.2.1.ge, _, hgate.2.2.1⟩
  | enqueued sequence => exact ⟨by have := hgate.2.1; omega, _, hgate.2.2⟩
  | committed sequence => exact ⟨hgate.2.1.ge, _, hgate.2.2⟩

end

theorem pipelineInv_of_run (hm : cfg.maxPendingBlocks = m) (hpos : 0 < m)
    {actions : List PipelineAction}
    (hrun : Transition.run (BlockPipeline.step cfg) {} actions = some p) : PipelineInv cfg m p :=
  Transition.run_invariant (fun _ _ _ h hstep => h.step hm hpos hstep) (pipelineInv_start cfg m) hrun

theorem PipelineInv.fenced {fence : Fence} {n : Nat} (h : PipelineInv cfg m p)
    (hfence : fence ∈ p.fences) (hreturned : fence.returnedNil) (hn : n ∈ fence.acknowledged) :
    ∃ item ∈ processedItems p.runner.log, item.sequenceNumber = n := by
  have hinv := h.fences fence hfence
  have hlt : n < (processedItems p.runner.log).length := by
    have htarget := hinv.acknowledged n hn
    have hcompleted := hinv.completed hreturned
    have hreported : p.completedSequence ≤ (processedItems p.runner.log).length :=
      h.runner.stage.reported_le
    omega
  have hmem : n ∈ (processedItems p.runner.log).map BlockItem.sequenceNumber := by
    rw [h.runner.stage.log.sequence]
    exact List.mem_range.mpr hlt
  exact List.mem_map.mp hmem

end BlockPipeline

/-- Over every interleaving, with the pending limit `m > 0`: the queue and the
successful submissions are numbered `0, 1, 2, …`; the accepted sequences are at
most `m + 1` ahead of the completed ones; the pending limit is never exceeded; the
completed sequence never decreases; and when a fence has returned nil, the apply
stage has processed every item whose submission had returned before. -/
theorem pipeline_bounded_and_fenced (cfg : PipelineConfig) {m : Nat}
    (hm : cfg.maxPendingBlocks = m) (hpos : 0 < m) {actions : List PipelineAction}
    {p : BlockPipeline} (hrun : Transition.run (BlockPipeline.step cfg) {} actions = some p) :
    (∃ n, p.queued = List.range n) ∧ (∃ n, p.returned = List.range n) ∧
      p.sequenceCounter ≤ p.completedSequence + (m + 1) ∧
      ¬ p.runner.LimitExceeded ∧
      (∀ action p', p.step cfg action = some p' → p.completedSequence ≤ p'.completedSequence) ∧
      ∀ fence ∈ p.fences, fence.returnedNil = true → ∀ n ∈ fence.acknowledged,
        ∃ item ∈ processedItems p.runner.log, item.sequenceNumber = n := by
  have h := BlockPipeline.pipelineInv_of_run hm hpos hrun
  refine ⟨⟨_, h.queued⟩, h.counter_le.2, ?_, h.limit, fun _ _ hstep => h.completed_mono hm hstep,
    fun fence hfence hreturned n hn => h.fenced hfence hreturned hn⟩
  exact h.counter_le.1.trans h.bound

/-- Two blocks that the decode workers reorder, and a fence behind them. -/
theorem pipeline_bounded_and_fenced_reordered :
    let cfg : PipelineConfig := ⟨1, false, false, false, true, false⟩
    let submit : List PipelineAction := [.lockSubmit, .capacity, .enqueue, .commit, .unlockSubmit]
    let block : Nat → BlockItem := BlockPipeline.newBlockItem
    let advance : PipelineAction := .runner .advance
    let actions : List PipelineAction := submit ++ submit ++
      [.lockFence, .captureFence, .takeSubmitted, .takeSubmitted, .decoded (block 1) none,
        .decoded (block 0) none, .receive, advance, advance, advance, advance, .receive, advance,
        advance, advance, advance, advance, advance, advance, advance, advance, .returnFence 0]
    ∃ p, Transition.run (BlockPipeline.step cfg) {} actions = some p ∧
      p.returned = [0, 1] ∧ p.fences = [⟨2, [0, 1], true⟩] ∧ ¬ p.runner.LimitExceeded ∧
      ∃ item ∈ processedItems p.runner.log, item.sequenceNumber = 1 := by
  intro cfg submit block advance actions
  have hrun : Transition.run (BlockPipeline.step cfg) {} actions = some _ := rfl
  have h := pipeline_bounded_and_fenced cfg rfl Nat.zero_lt_one hrun
  refine ⟨_, hrun, rfl, rfl, h.2.2.2.1, ?_⟩
  exact h.2.2.2.2.2 ⟨2, [0, 1], true⟩ (List.mem_singleton_self _) rfl 1 (by simp)

/-- Between the enqueue and the apply stage there are at most `m + 1` blocks, none of them twice, and
none from before the next one to apply. -/
theorem held_blocks_bounded (cfg : PipelineConfig) {m : Nat} (hm : cfg.maxPendingBlocks = m)
    (hpos : 0 < m) {actions : List PipelineAction} {p : BlockPipeline}
    (hrun : Transition.run (BlockPipeline.step cfg) {} actions = some p) :
    p.waiting.Nodup ∧ p.waiting.card ≤ m + 1 ∧ ∀ n ∈ p.waiting, p.runner.nextSequence ≤ n := by
  have h := BlockPipeline.pipelineInv_of_run hm hpos hrun
  refine ⟨h.nodup, ?_, fun n hn => (h.ahead n hn).1⟩
  -- the numbers are among those from the next one to the end of the queue
  have hle : p.waiting ≤ ↑(List.range' p.runner.nextSequence
      (p.queued.length - p.runner.nextSequence)) := by
    refine (Multiset.le_iff_subset h.nodup).mpr ?_
    intro n hn
    have hrange := h.ahead n hn
    exact List.mem_range'_1.mpr (by omega)
  have hcard := Multiset.card_le_card hle
  rw [Multiset.coe_card, List.length_range'] at hcard
  have hbound := h.bound
  have hcompleted := h.completed_le
  omega

/-- With room for one block, two are on their way. -/
theorem held_blocks_bounded_two :
    ∃ actions p, Transition.run (BlockPipeline.step ⟨1, false, false, false, true, false⟩) {} actions =
      some p ∧ p.waiting = {0, 1} ∧ p.waiting.card ≤ 2 := by
  have hrun : Transition.run (BlockPipeline.step ⟨1, false, false, false, true, false⟩) {}
    [.lockSubmit, .capacity, .enqueue, .commit, .unlockSubmit, .lockSubmit, .capacity, .enqueue] =
      some _ := rfl
  exact ⟨_, _, hrun, rfl, (held_blocks_bounded _ rfl Nat.zero_lt_one hrun).2.1⟩

end Gouroboros.Pipeline

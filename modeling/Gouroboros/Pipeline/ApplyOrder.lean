import Mathlib.Data.List.Range
import Gouroboros.Pipeline.ApplyStage

/-!
# Blocks are applied in order

What holds over every run of the runner is `blocks_applied_in_order`. The
invariant `Inv` says, for each place of the goroutine, how the next sequence
number relates to the items processed so far. It is ahead by one while an item is
under way (`Working`); a rejection leaves it ahead for good, and from there the
runner never reaches the critical section again.
-/

namespace Gouroboros.Pipeline

/-- The items on which `maybeApply` succeeded, in order. -/
def processedItems (log : List Event) : List BlockItem :=
  log.filterMap fun
    | .processed item => some item
    | _ => none

/-- The items on which `ApplyFunc` was called successfully, in order. -/
def appliedItems (log : List Event) : List BlockItem :=
  log.filterMap fun
    | .apply item none => some item
    | _ => none

def Clean (log : List Event) : Prop := ∀ item err, Event.rejected item err ∉ log

def ApplyConfig.applies (cfg : ApplyConfig) : Bool :=
  !cfg.trustedDecodeOnly && !cfg.headerOnly && cfg.hasApplyFunc

/-- The item passed the checks that come before the validators. -/
structure Accepted (cfg : ApplyConfig) (item : BlockItem) : Prop where
  decoded : item.decodeError = none
  validated : item.validationError = none
  isValid : cfg.requireValidation = true → item.isValid = true
  mode : cfg.trustedDecodeOnly = false ∧ cfg.headerOnly = false

def callsBefore (cfg : ApplyConfig) (item : BlockItem) : List Event :=
  .chainContext item none :: if cfg.hasOrderedValidator then [.ordered item none] else []

/-- Every call of `ApplyFunc` is on an accepted item, comes right after its
validators succeeded, and after no rejection. -/
def CallsGuarded (cfg : ApplyConfig) (log : List Event) : Prop :=
  ∀ before item err after, log = before ++ .apply item err :: after →
    Accepted cfg item ∧ callsBefore cfg item <:+ before ∧ Clean before

/-! ## The log -/

section Log

variable {cfg : ApplyConfig} {log : List Event} {item : BlockItem}

@[simp] theorem processedItems_append (log more : List Event) :
    processedItems (log ++ more) = processedItems log ++ processedItems more :=
  List.filterMap_append

@[simp] theorem appliedItems_append (log more : List Event) :
    appliedItems (log ++ more) = appliedItems log ++ appliedItems more :=
  List.filterMap_append

variable {event : Event}

theorem Clean.append_singleton (h : Clean log) (hevent : ∀ item err, event ≠ .rejected item err) :
    Clean (log ++ [event]) := by
  intro item err hmem
  rcases List.mem_append.mp hmem with hmem | hmem
  · exact h item err hmem
  · exact hevent item err (List.mem_singleton.mp hmem).symm

theorem CallsGuarded.append_singleton (h : CallsGuarded cfg log)
    (hevent : ∀ item err, event = .apply item err →
      Accepted cfg item ∧ callsBefore cfg item <:+ log ∧ Clean log) :
    CallsGuarded cfg (log ++ [event]) := by
  intro before item err after heq
  rcases List.eq_nil_or_concat after with rfl | ⟨after, last, rfl⟩
  · obtain ⟨rfl, hlast⟩ := List.append_inj' heq rfl
    exact hevent item err (List.cons.inj hlast).1
  · rw [List.concat_eq_append, ← List.cons_append, ← List.append_assoc] at heq
    obtain ⟨hlog, _⟩ := List.append_inj' heq rfl
    exact h before item err after hlog

structure LogInv (cfg : ApplyConfig) (log : List Event) : Prop where
  sequence : (processedItems log).map BlockItem.sequenceNumber =
    List.range (processedItems log).length
  applied : appliedItems log = if cfg.applies then processedItems log else []
  guarded : CallsGuarded cfg log

theorem logInv_nil (cfg : ApplyConfig) : LogInv cfg [] := by
  refine ⟨rfl, ?_, ?_⟩
  · simp [appliedItems, processedItems]
  · intro before item err after heq
    simp at heq

section

variable (h : LogInv cfg log)
include h

theorem LogInv.append_other (hprocessed : processedItems [event] = [])
    (hcall : ∀ item err, event ≠ .apply item err) : LogInv cfg (log ++ [event]) := by
  have happlied : appliedItems [event] = [] := by
    cases event with
    | apply item err => exact absurd rfl (hcall item err)
    | _ => rfl
  refine ⟨?_, ?_, h.guarded.append_singleton fun item err heq => absurd heq (hcall item err)⟩
  · rw [processedItems_append, hprocessed, List.append_nil]
    exact h.sequence
  · rw [appliedItems_append, processedItems_append, hprocessed, happlied, List.append_nil,
      List.append_nil]
    exact h.applied

theorem LogInv.append_failedCall {err : CallError} (haccepted : Accepted cfg item)
    (hcalls : callsBefore cfg item <:+ log) (hclean : Clean log) :
    LogInv cfg (log ++ [.apply item (some err)]) := by
  refine ⟨?_, ?_, h.guarded.append_singleton ?_⟩
  · simpa [processedItems] using h.sequence
  · simpa [processedItems, appliedItems] using h.applied
  · intro item' err' heq
    cases heq
    exact ⟨haccepted, hcalls, hclean⟩

section

variable (hcount : (processedItems log).length = item.sequenceNumber)
include hcount

theorem range_of_processed :
    (processedItems log ++ [item]).map BlockItem.sequenceNumber =
      List.range (processedItems log ++ [item]).length := by
  rw [List.map_append, h.sequence, List.length_append, List.length_singleton, List.range_succ,
    hcount]
  rfl

theorem LogInv.append_processed (hmode : cfg.applies = false) :
    LogInv cfg (log ++ [.processed item]) := by
  refine ⟨?_, ?_, h.guarded.append_singleton nofun⟩
  · rw [processedItems_append]
    exact range_of_processed h hcount
  · have happlied := h.applied
    rw [hmode] at happlied ⊢
    simpa [appliedItems] using happlied

theorem LogInv.append_applied (hfunc : cfg.hasApplyFunc) (haccepted : Accepted cfg item)
    (hcalls : callsBefore cfg item <:+ log) (hclean : Clean log) :
    LogInv cfg ((log ++ [.apply item none]) ++ [.processed item]) := by
  have happlies : cfg.applies := by
    unfold ApplyConfig.applies
    rw [haccepted.mode.1, haccepted.mode.2, hfunc]
    rfl
  have hguarded : CallsGuarded cfg (log ++ [.apply item none]) := by
    apply h.guarded.append_singleton
    intro item' err heq
    cases heq
    exact ⟨haccepted, hcalls, hclean⟩
  refine ⟨?_, ?_, hguarded.append_singleton nofun⟩
  · have hrange := range_of_processed h hcount
    simpa [processedItems] using hrange
  · have happlied := h.applied
    rw [happlies, if_pos rfl] at happlied ⊢
    rw [appliedItems_append, appliedItems_append, processedItems_append, processedItems_append,
      happlied]
    simp [appliedItems, processedItems]

end

end

end Log

/-! ## The invariant -/

namespace ApplyStageRunner

/-- The items that the runner has processed and not yet sent. -/
def held : Pc → List BlockItem
  | .maybeApply _ processed => processed
  | .callChainContextValidator _ processed => processed
  | .callOrderedValidator _ processed => processed
  | .applyItem _ processed => processed
  | .callApplyFunc _ processed => processed
  | .applyPending processed => processed
  | .takePending processed => processed
  | .accountProcessed processed _ => processed
  | .forwardProcessed rest _ => rest
  | .forwardCommitted rest => rest
  | _ => []

def count (s : ApplyStageRunner) : Nat := (processedItems s.log).length

/-- Between two items: every sequence number below the next one was processed. -/
structure Steady (s : ApplyStageRunner) (processed : List BlockItem) : Prop where
  next : s.nextSequence = s.count
  delivered : s.output ++ processed = processedItems s.log
  clean : Clean s.log

/-- An item is under way: the next sequence number is already past it. -/
structure Working (s : ApplyStageRunner) (item : BlockItem) (processed : List BlockItem) :
    Prop where
  next : s.nextSequence = item.sequenceNumber + 1
  count : s.count = item.sequenceNumber
  delivered : s.output ++ processed = processedItems s.log
  clean : Clean s.log

def Settled (s : ApplyStageRunner) (processed : List BlockItem) : Prop :=
  s.Steady processed ∧ s.pending.lookup s.nextSequence = none

def PcInv (cfg : ApplyConfig) (s : ApplyStageRunner) : Pc → Prop
  | .select | .process _ | .report => s.cancelled = true ∨ s.Settled []
  | .forwardProcessed rest _ => s.cancelled = true ∨ s.Settled rest
  | .dispatch _ => s.Settled []
  | .maybeApply item processed => s.Working item processed
  | .callChainContextValidator item processed => s.Working item processed ∧ Accepted cfg item
  | .callOrderedValidator item processed =>
    s.Working item processed ∧ Accepted cfg item ∧ cfg.hasOrderedValidator = true ∧
      [.chainContext item none] <:+ s.log
  | .applyItem item processed | .callApplyFunc item processed =>
    s.Working item processed ∧ Accepted cfg item ∧ callsBefore cfg item <:+ s.log
  | .applyPending processed | .takePending processed => s.Steady processed
  | .accountProcessed processed none => s.Settled processed
  | .accountProcessed processed (some err) =>
    (err.fatal = true ∨ s.cancelled = true) ∧
      (processed ≠ [] → s.output ++ processed = processedItems s.log)
  | .forwardCommitted _ | .stopped => True

structure StageInv (cfg : ApplyConfig) (s : ApplyStageRunner) : Prop where
  log : LogInv cfg s.log
  keyed : ∀ n item, s.pending.lookup n = some item → item.sequenceNumber = n
  count_le : s.count ≤ s.nextSequence
  reported_le : s.reported ≤ s.count

structure Inv (cfg : ApplyConfig) (s : ApplyStageRunner) : Prop where
  stage : StageInv cfg s
  output : s.output ++ held s.pc <+: processedItems s.log
  pc : s.PcInv cfg s.pc

variable {cfg : ApplyConfig} {s : ApplyStageRunner} {item : BlockItem} {processed : List BlockItem}

@[simp] theorem record_log (event : Event) : (s.record event).log = s.log ++ [event] := rfl

theorem inv_start (cfg : ApplyConfig) : Inv cfg {} :=
  ⟨⟨logInv_nil cfg, fun n item hlookup => by simp at hlookup, Nat.le_refl _, Nat.le_refl _⟩,
    List.prefix_refl _, .inr ⟨⟨rfl, rfl, nofun⟩, rfl⟩⟩

/-! The place of the goroutine and the context do not matter to what follows. -/

theorem Steady.moveTo (h : s.Steady processed) (pc : Pc) (cancelled : Bool) :
    ({ s with pc := pc, cancelled := cancelled } : ApplyStageRunner).Steady processed :=
  { h with }

theorem Settled.moveTo (h : s.Settled processed) (pc : Pc) (cancelled : Bool) :
    ({ s with pc := pc, cancelled := cancelled } : ApplyStageRunner).Settled processed :=
  ⟨h.1.moveTo pc cancelled, h.2⟩

theorem Working.output (h : s.Working item processed) :
    s.output ++ processed <+: processedItems s.log :=
  h.delivered ▸ List.prefix_refl _

theorem Steady.output (h : s.Steady processed) : s.output ++ processed <+: processedItems s.log :=
  h.delivered ▸ List.prefix_refl _

/-! ## Logging -/

section

variable (hprocessed : processedItems [event] = [])
include hprocessed

theorem count_record : (s.record event).count = s.count := by
  rw [count, record_log, processedItems_append, hprocessed, List.append_nil, count]

theorem StageInv.record (h : StageInv cfg s) (hlog : LogInv cfg (s.log ++ [event])) :
    StageInv cfg (s.record event) := by
  refine ⟨hlog, h.keyed, ?_, ?_⟩
  · rw [count_record hprocessed]
    exact h.count_le
  · rw [count_record hprocessed]
    exact h.reported_le

theorem Working.record (h : s.Working item processed)
    (hevent : ∀ item err, event ≠ .rejected item err) :
    (s.record event).Working item processed := by
  refine ⟨h.next, ?_, ?_, h.clean.append_singleton hevent⟩
  · rw [count_record hprocessed]
    exact h.count
  · rw [record_log, processedItems_append, hprocessed, List.append_nil]
    exact h.delivered

end

theorem StageInv.inv_reject {err : ProcessError} (h : StageInv cfg s)
    (hdelivered : s.output ++ processed = processedItems s.log)
    (herr : err.fatal ∨ s.cancelled) : Inv cfg (s.reject item processed err) := by
  have hstage : StageInv cfg (s.record (.rejected item err)) :=
    h.record rfl (h.log.append_other rfl nofun)
  have hdelivered : s.output ++ processed = processedItems (s.log ++ [.rejected item err]) := by
    rw [hdelivered]
    simp [processedItems]
  refine ⟨{ hstage with }, ?_, herr, fun _ => hdelivered⟩
  show s.output ++ processed <+: processedItems (s.log ++ [.rejected item err])
  exact ⟨[], by rw [List.append_nil, hdelivered]⟩

theorem Working.inv_complete (hw : s.Working item processed)
    (hkeyed : ∀ n item, s.pending.lookup n = some item → item.sequenceNumber = n)
    (hreported : s.reported ≤ s.count) (hlog : LogInv cfg (s.log ++ [.processed item])) :
    Inv cfg (s.complete item processed) := by
  have hitems : processedItems (s.log ++ [.processed item]) = processedItems s.log ++ [item] := by
    simp [processedItems]
  have hcount : (s.complete item processed).count = s.count + 1 := by
    show (processedItems (s.log ++ [.processed item])).length = s.count + 1
    rw [hitems, List.length_append]
    rfl
  have hnext : (s.complete item processed).nextSequence = s.count + 1 := by
    rw [hw.count]
    exact hw.next
  have hsteady : (s.complete item processed).Steady (processed ++ [item]) := by
    refine ⟨by rw [hcount, hnext], ?_, ?_⟩
    · show s.output ++ (processed ++ [item]) = processedItems (s.log ++ [.processed item])
      rw [hitems, ← hw.delivered, List.append_assoc]
    · exact hw.clean.append_singleton nofun
  refine ⟨⟨hlog, hkeyed, ?_, ?_⟩, hsteady.output, hsteady⟩
  · rw [hcount, hnext]
  · rw [hcount]
    exact Nat.le_succ_of_le hreported

/-! ## One step -/

section

variable (h : StageInv cfg s)
include h

theorem inv_processWithStatus (hsettled : s.Settled []) :
    Inv cfg (s.processWithStatus cfg item) := by
  unfold processWithStatus
  split
  · -- the next item: the counter moves on before the item is looked at
    rename_i hseq
    refine ⟨⟨h.log, h.keyed, Nat.le_succ_of_le h.count_le, h.reported_le⟩, hsettled.1.output,
      by rw [hseq], ?_, hsettled.1.delivered, hsettled.1.clean⟩
    rw [hseq]
    exact hsettled.1.next.symm
  · rename_i hseq
    split
    · exact h.inv_reject hsettled.1.delivered (.inl rfl)
    · refine ⟨⟨h.log, ?_, h.count_le, h.reported_le⟩, hsettled.1.output,
        ⟨hsettled.1.next, hsettled.1.delivered, hsettled.1.clean⟩, ?_⟩
      · intro n other hlookup
        rw [GoMap.lookup_insert_ite] at hlookup
        split at hlookup
        · rename_i hn
          cases hlookup
          exact hn.symm
        · exact h.keyed n other hlookup
      · show (s.pending.insert item.sequenceNumber item).lookup s.nextSequence = none
        rw [GoMap.lookup_insert_ite, if_neg (Ne.symm hseq)]
        exact hsettled.2

theorem inv_maybeApply (hw : s.Working item processed) :
    Inv cfg (s.maybeApply cfg item processed) := by
  have hskip : cfg.applies = false → Inv cfg (s.complete item processed) := fun hmode =>
    hw.inv_complete h.keyed h.reported_le (h.log.append_processed hw.count hmode)
  have hreject : ∀ cause, Inv cfg (s.reject item processed (.itemRejected cause)) := fun cause =>
    h.inv_reject hw.delivered (.inl rfl)
  unfold maybeApply
  split
  · split
    · rename_i htrusted
      exact hskip (by simp [ApplyConfig.applies, htrusted])
    · exact hreject _
  · rename_i hdecoded
    split
    · exact hreject _
    · rename_i hvalidated
      split
      · exact hreject _
      · rename_i hvalid
        split
        · rename_i hmode
          apply hskip
          unfold ApplyConfig.applies
          rcases Bool.or_eq_true_iff.mp hmode with hmode | hmode
          · simp [hmode]
          · simp [hmode]
        · rename_i hmode
          split
          · exact hreject _
          · -- every check passed
            have haccepted : Accepted cfg item := by
              refine ⟨hdecoded, hvalidated, ?_, ?_⟩
              · intro hrequire
                simpa [hrequire] using hvalid
              · simpa using hmode
            exact ⟨{ h with }, hw.output, { hw with }, haccepted⟩

section

variable (hw : s.Working item processed) (haccepted : Accepted cfg item) (outcome : CallOutcome)
include hw haccepted outcome

theorem inv_callChainContextValidator :
    Inv cfg (s.callChainContextValidator cfg item processed outcome) := by
  unfold callChainContextValidator
  dsimp only
  generalize CallOutcome.err "chain-context validator" outcome = err
  have hrecord : (s.record (.chainContext item err)).Working item processed := hw.record rfl nofun
  have hstage : StageInv cfg (s.record (.chainContext item err)) :=
    h.record rfl (h.log.append_other rfl nofun)
  split
  · exact hstage.inv_reject hrecord.delivered (.inl rfl)
  · have hsuffix : [Event.chainContext item none] <:+ s.log ++ [.chainContext item none] :=
      List.suffix_append _ _
    by_cases hordered : cfg.hasOrderedValidator
    · rw [if_pos hordered]
      exact ⟨{ hstage with }, hrecord.output, { hrecord with }, haccepted, hordered, hsuffix⟩
    · rw [if_neg hordered]
      refine ⟨{ hstage with }, hrecord.output, { hrecord with }, haccepted, ?_⟩
      rw [callsBefore, if_neg hordered]
      exact hsuffix

theorem inv_callOrderedValidator (hordered : cfg.hasOrderedValidator)
    (hcalls : [.chainContext item none] <:+ s.log) :
    Inv cfg (s.callOrderedValidator item processed outcome) := by
  unfold callOrderedValidator
  dsimp only
  generalize CallOutcome.err "ordered validator" outcome = err
  have hrecord : (s.record (.ordered item err)).Working item processed := hw.record rfl nofun
  have hstage : StageInv cfg (s.record (.ordered item err)) :=
    h.record rfl (h.log.append_other rfl nofun)
  split
  · exact hstage.inv_reject hrecord.delivered (.inl rfl)
  · refine ⟨{ hstage with }, hrecord.output, { hrecord with }, haccepted, ?_⟩
    obtain ⟨before, hbefore⟩ := hcalls
    rw [callsBefore, if_pos hordered]
    exact ⟨before, by rw [record_log, ← hbefore, List.append_assoc]; rfl⟩

theorem inv_callApplyFunc (hcalls : callsBefore cfg item <:+ s.log) (hfunc : cfg.hasApplyFunc) :
    Inv cfg (s.callApplyFunc item processed outcome) := by
  unfold callApplyFunc
  dsimp only
  generalize CallOutcome.err "apply function" outcome = err
  have hrecord : (s.record (.apply item err)).Working item processed := hw.record rfl nofun
  split
  · exact (h.record rfl (h.log.append_failedCall haccepted hcalls hw.clean)).inv_reject
      hrecord.delivered (.inl rfl)
  · refine hrecord.inv_complete h.keyed ?_
      (h.log.append_applied hw.count hfunc haccepted hcalls hw.clean)
    rw [count_record rfl]
    exact h.reported_le

end

theorem inv_takePending (hsteady : s.Steady processed) : Inv cfg (s.takePending processed) := by
  unfold takePending
  split
  · rename_i hlookup
    exact ⟨{ h with }, hsteady.output, { hsteady with }, hlookup⟩
  · -- the buffered item is the next one, so it is under way
    rename_i item hlookup
    have hseq : item.sequenceNumber = s.nextSequence := h.keyed _ _ hlookup
    refine ⟨⟨h.log, ?_, Nat.le_succ_of_le h.count_le, h.reported_le⟩, hsteady.output, ?_, ?_,
      hsteady.delivered, hsteady.clean⟩
    · intro n other hother
      rw [GoMap.lookup_erase_ite] at hother
      split at hother
      · cases hother
      · exact h.keyed n other hother
    · rw [hseq]
    · rw [hseq]
      exact hsteady.next.symm

end

theorem last_sequence (h : LogInv cfg s.log)
    (hdelivered : s.output ++ processed = processedItems s.log)
    (hlast : processed.getLast? = some item) : item.sequenceNumber + 1 = s.count := by
  obtain ⟨front, rfl⟩ := List.getLast?_eq_some_iff.mp hlast
  rw [← List.append_assoc] at hdelivered
  have hsequence := h.sequence
  rw [← hdelivered, List.map_append, List.length_append, List.length_singleton,
    List.range_succ] at hsequence
  obtain ⟨_, hlast⟩ := List.append_inj' hsequence rfl
  rw [count, ← hdelivered, List.length_append, List.length_singleton]
  exact congrArg (· + 1) (List.cons.inj hlast).1

section

variable (h : StageInv cfg s)
  (hdelivered : processed ≠ [] → s.output ++ processed = processedItems s.log)
include h hdelivered

theorem reported_callProcessedFunc :
    s.reported ≤ (s.callProcessedFunc processed).reported ∧
      (s.callProcessedFunc processed).reported ≤ s.count := by
  unfold callProcessedFunc
  cases hlast : processed.getLast? with
  | none => exact ⟨Nat.le_refl _, h.reported_le⟩
  | some item =>
    have hne : processed ≠ [] := by
      rintro rfl
      cases hlast
    have hcount := last_sequence h.log (hdelivered hne) hlast
    rw [Option.map_some, Option.getD_some, hcount]
    exact ⟨h.reported_le, Nat.le_refl _⟩

theorem StageInv.callProcessedFunc : StageInv cfg (s.callProcessedFunc processed) :=
  { h with reported_le := (reported_callProcessedFunc h hdelivered).2 }

end

theorem inv_fail (h : StageInv cfg s) (hheld : s.output ++ processed <+: processedItems s.log) :
    Inv cfg (s.fail cfg processed) :=
  ⟨{ h with }, hheld, trivial⟩

section

variable (h : Inv cfg s)
include h

theorem inv_accountProcessed {err : Option ProcessError}
    (hpc : s.pc = .accountProcessed processed err) :
    Inv cfg (s.accountProcessed cfg processed err) := by
  have hheld : s.output ++ processed <+: processedItems s.log := by
    have houtput := h.output
    rw [hpc] at houtput
    exact houtput
  have hplace := h.pc
  rw [hpc] at hplace
  unfold accountProcessed
  cases err with
  | none =>
    have hsettled : s.Settled processed := hplace
    have hstage := h.stage.callProcessedFunc fun _ => hsettled.1.delivered
    exact ⟨{ hstage with }, hheld, .inr ⟨{ hsettled.1 with }, hsettled.2⟩⟩
  | some err =>
    obtain ⟨hend, hdelivered⟩ := hplace
    have hstage := h.stage.callProcessedFunc hdelivered
    split
    · exact inv_fail hstage hheld
    · rename_i hfatal
      exact ⟨{ hstage with }, hheld, .inl (hend.resolve_left hfatal)⟩

theorem inv_send {rest : List BlockItem} {pc : Pc}
    (hheld : held s.pc = item :: rest) (hheld' : held pc = rest)
    (hpc : ({ s with output := s.output ++ [item], pc := pc } : ApplyStageRunner).PcInv cfg pc) :
    Inv cfg { s with output := s.output ++ [item], pc := pc } := by
  refine ⟨{ h.stage with }, ?_, hpc⟩
  have houtput := h.output
  rw [hheld] at houtput
  show (s.output ++ [item]) ++ held pc <+: processedItems s.log
  rw [hheld', List.append_assoc]
  exact houtput

theorem Inv.output_initial : s.output <+: processedItems s.log :=
  (List.prefix_append _ _).trans h.output

theorem Inv.cancel : Inv cfg { s with cancelled := true } := by
  refine ⟨{ h.stage with }, h.output, ?_⟩
  have hpc := h.pc
  generalize s.pc = place at hpc ⊢
  cases place with
  | select | process | report | forwardProcessed => exact .inl rfl
  | forwardCommitted | stopped => trivial
  | dispatch => exact Settled.moveTo hpc _ _
  | maybeApply => exact { (hpc : s.Working _ _) with }
  | callChainContextValidator | callOrderedValidator | applyItem | callApplyFunc =>
    exact ⟨{ hpc.1 with }, hpc.2⟩
  | applyPending | takePending => exact Steady.moveTo hpc _ _
  | accountProcessed processed err =>
    cases err with
    | none => exact Settled.moveTo hpc _ _
    | some err => exact ⟨.inr rfl, hpc.2⟩

theorem inv_afterForward {err : Option ProcessError}
    (hidle : s.cancelled ∨ s.Settled []) : Inv cfg { s with pc := afterForward err } := by
  have hidle' : ∀ pc, s.cancelled ∨
      ({ s with pc := pc } : ApplyStageRunner).Settled [] := fun pc =>
    hidle.imp id fun hsettled => hsettled.moveTo _ _
  have houtput : s.output ++ [] <+: processedItems s.log := by
    rw [List.append_nil]
    exact h.output_initial
  cases err with
  | none | some => exact ⟨{ h.stage with }, houtput, hidle' _⟩

theorem Inv.step {s' : ApplyStageRunner} {choice : Choice}
    (hstep : s.step cfg choice = some s') : Inv cfg s' := by
  have hpc := h.pc
  have houtput := h.output
  have hnone : s.output ++ [] <+: processedItems s.log := by
    rw [List.append_nil]
    exact h.output_initial
  unfold ApplyStageRunner.step at hstep
  split at hstep
  all_goals try rename_i heq
  all_goals try rw [heq] at hpc houtput
  · cases hstep
    exact h.cancel
  · cases hstep
    exact ⟨{ h.stage with }, hnone, trivial⟩
  · cases hstep
    exact ⟨{ h.stage with }, hnone, hpc.imp id fun hsettled => hsettled.moveTo _ _⟩
  · -- the context check: past it the runner was settled
    cases hstep
    split
    · rename_i hcancelled
      exact ⟨{ h.stage with }, hnone, .inr hcancelled, fun hne => absurd rfl hne⟩
    · rename_i hcancelled
      exact ⟨{ h.stage with }, hnone, Settled.moveTo (hpc.resolve_left hcancelled) _ _⟩
  · cases hstep
    exact inv_processWithStatus h.stage hpc
  · cases hstep
    exact inv_maybeApply h.stage hpc
  · cases hstep
    exact inv_callChainContextValidator h.stage hpc.1 hpc.2 _
  · cases hstep
    exact inv_callOrderedValidator h.stage hpc.1 hpc.2.1 _ hpc.2.2.1 hpc.2.2.2
  · cases hstep
    split
    · rename_i hcancelled
      exact h.stage.inv_reject hpc.1.delivered (.inr hcancelled)
    · exact ⟨{ h.stage with }, houtput, { hpc.1 with }, hpc.2⟩
  · split at hstep
    · cases hstep
    · rename_i hfunc
      cases hstep
      refine hpc.1.inv_complete h.stage.keyed h.stage.reported_le
        (h.stage.log.append_processed hpc.1.count ?_)
      simp [ApplyConfig.applies, hfunc]
  · split at hstep
    · rename_i hfunc
      cases hstep
      exact inv_callApplyFunc h.stage hpc.1 hpc.2.1 _ hpc.2.2 hfunc
    · cases hstep
  · cases hstep
    split
    · rename_i hcancelled
      exact ⟨{ h.stage with }, houtput, .inr hcancelled, fun _ => hpc.delivered⟩
    · exact ⟨{ h.stage with }, houtput, Steady.moveTo hpc _ _⟩
  · cases hstep
    exact inv_takePending h.stage hpc
  · cases hstep
    exact inv_accountProcessed h heq
  · cases hstep
    exact inv_fail h.stage houtput
  · cases hstep
    rename_i rest err
    refine inv_send h (by rw [heq]; rfl) rfl ?_
    refine hpc.imp id fun hsettled => ⟨⟨hsettled.1.next, ?_, hsettled.1.clean⟩, hsettled.2⟩
    show (s.output ++ [_]) ++ rest = _
    rw [List.append_assoc]
    exact hsettled.1.delivered
  · split at hstep
    · rename_i hcancelled
      cases hstep
      exact inv_afterForward h (.inl hcancelled)
    · cases hstep
  · cases hstep
    exact inv_afterForward h hpc
  · cases hstep
    exact ⟨{ h.stage with }, hnone, hpc.imp id fun hsettled => hsettled.moveTo _ _⟩
  · split at hstep
    · cases hstep
      exact ⟨{ h.stage with }, hnone, trivial⟩
    · cases hstep
  · cases hstep
    exact inv_send h (by rw [heq]; rfl) rfl trivial
  · cases hstep
    exact ⟨{ h.stage with }, hnone, trivial⟩
  · cases hstep

end

theorem inv_of_run {choices : List Choice} (hrun : Transition.run (step cfg) {} choices = some s) :
    Inv cfg s :=
  Transition.run_invariant (fun _ _ _ h hstep => h.step hstep) (inv_start cfg) hrun

end ApplyStageRunner

theorem LogInv.sequence_of_initial {cfg : ApplyConfig} {log : List Event} {items : List BlockItem}
    (h : LogInv cfg log) (hitems : items <+: processedItems log) :
    ∃ n, items.map BlockItem.sequenceNumber = List.range n := by
  have hmap := hitems.map BlockItem.sequenceNumber
  rw [h.sequence, List.prefix_iff_eq_take, List.take_range] at hmap
  exact ⟨_, hmap⟩

/-- At every moment of every run: `ApplyFunc` has succeeded on exactly the items
`0, …, k - 1`, in that order and once each; every call of it was guarded, and
came before any rejection; and the items sent to the output are `0, …, n - 1`. -/
theorem blocks_applied_in_order (cfg : ApplyConfig) {choices : List Choice} {s : ApplyStageRunner}
    (hrun : Transition.run (ApplyStageRunner.step cfg) {} choices = some s) :
    (∃ k, (appliedItems s.log).map BlockItem.sequenceNumber = List.range k) ∧
      CallsGuarded cfg s.log ∧
      ∃ n, s.output.map BlockItem.sequenceNumber = List.range n := by
  have h := ApplyStageRunner.inv_of_run hrun
  refine ⟨?_, h.stage.log.guarded, h.stage.log.sequence_of_initial h.output_initial⟩
  rw [h.stage.log.applied]
  split
  · exact ⟨_, h.stage.log.sequence⟩
  · exact ⟨0, rfl⟩

/-- Two valid blocks, the second of which arrives first and panics in `ApplyFunc`. -/
theorem blocks_applied_in_order_latePanic :
    let cfg : ApplyConfig := ⟨true, true, true, false, false, true, 4, true⟩
    let block : Nat → BlockItem := fun n => ⟨n, none, none, true⟩
    let ok : Choice := .callback (.returned none)
    let choices : List Choice :=
      [.receive (block 1), .advance, .advance, .advance, .advance, .receive (block 0), .advance,
        .advance, .advance, ok, ok, .advance, ok, .advance, .advance, .advance, ok, ok, .advance,
        .callback (.panicked "boom"), .advance, .send, .advance]
    ∃ s, Transition.run (ApplyStageRunner.step cfg) {} choices = some s ∧
      s.pc = .stopped ∧ appliedItems s.log = [block 0] ∧ s.output = [block 0] ∧
      CallsGuarded cfg s.log := by
  intro cfg block ok choices
  have hrun : Transition.run (ApplyStageRunner.step cfg) {} choices = some _ := rfl
  exact ⟨_, hrun, rfl, rfl, rfl, (blocks_applied_in_order cfg hrun).2.1⟩

end Gouroboros.Pipeline

import Gouroboros.Lib.GoMap
import Gouroboros.Lib.Transition

/-!
# The apply stage and its runner

`pipeline/apply_stage.go` as a step function. A state of the runner is the
place its goroutine has reached (`Pc`, one constructor for each point at which
the environment can interfere), the apply stage's fields, what has been sent to
the output channel, and a log of the calls it made. What it does not decide
itself is a `Choice`: which item arrives, what a callback returns, whether the
output accepts an item, and when the context is cancelled.

Sequence numbers are natural numbers: a `uint64` counter that is incremented
once for each block does not wrap around. Metrics, durations and the reporting of
errors are left out, except that a full error channel holds the runner up until
the context is cancelled.
-/

namespace Gouroboros.Pipeline

/-- What the apply stage reads of an item. The earlier stages have set it. -/
structure BlockItem where
  sequenceNumber : Nat
  decodeError : Option String
  validationError : Option String
  isValid : Bool
deriving DecidableEq

inductive CallOutcome where
  | returned (err : Option String)
  | panicked (value : String)
deriving DecidableEq

/-- The error of a callback; a recovered panic names the guard that caught it. -/
inductive CallError where
  | returned (err : String)
  | stagePanic (guard : String) (value : String)
deriving DecidableEq

/-- `panics.Guard`: a panic becomes an error. -/
def CallOutcome.err (guard : String) : CallOutcome → Option CallError
  | .returned err => err.map .returned
  | .panicked value => some (.stagePanic guard value)

/-- The causes that `ErrPipelineItemRejected` wraps. -/
inductive Rejection where
  | decodeBlock (err : String)
  | validateBlock (err : String)
  | blockNotValidated
  | missingChainContextValidator
  | chainContextValidation (err : CallError)
  | orderedValidation (err : CallError)
  | blockApply (err : CallError)
deriving DecidableEq

inductive ProcessError where
  | contextDone
  | pendingLimitExceeded
  | itemRejected (cause : Rejection)
deriving DecidableEq

/-- The errors that end the runner. -/
def ProcessError.fatal : ProcessError → Bool
  | .contextDone => false
  | .pendingLimitExceeded => true
  | .itemRejected _ => true

/-- What an apply stage and its runner are set up with. -/
structure ApplyConfig where
  hasApplyFunc : Bool
  hasChainContextValidator : Bool
  hasOrderedValidator : Bool
  trustedDecodeOnly : Bool
  headerOnly : Bool
  requireValidation : Bool
  maxPending : Int
  /-- `fatalFunc` cancels the runner's own context. -/
  cancelsOnFatal : Bool
deriving DecidableEq

/-- The calls made for the items, and how each item ended. -/
inductive Event where
  | chainContext (item : BlockItem) (err : Option CallError)
  | ordered (item : BlockItem) (err : Option CallError)
  | apply (item : BlockItem) (err : Option CallError)
  | processed (item : BlockItem)
  | rejected (item : BlockItem) (err : ProcessError)
deriving DecidableEq

/-- Where the runner's goroutine is. `processed` are the items that the call of
`processWithStatus` under way has processed so far. -/
inductive Pc where
  /-- The select at the head of the loop of `run`. -/
  | select
  /-- At the context check of `processWithStatus`. -/
  | process (item : BlockItem)
  /-- At the critical section of `processWithStatus`. -/
  | dispatch (item : BlockItem)
  | maybeApply (item : BlockItem) (processed : List BlockItem)
  | callChainContextValidator (item : BlockItem) (processed : List BlockItem)
  | callOrderedValidator (item : BlockItem) (processed : List BlockItem)
  /-- At the context check of `applyItem`. -/
  | applyItem (item : BlockItem) (processed : List BlockItem)
  | callApplyFunc (item : BlockItem) (processed : List BlockItem)
  /-- At the context check of the loop of `applyPending`. -/
  | applyPending (processed : List BlockItem)
  /-- At the critical section of the loop of `applyPending`. -/
  | takePending (processed : List BlockItem)
  | accountProcessed (processed : List BlockItem) (err : Option ProcessError)
  | forwardProcessed (rest : List BlockItem) (err : Option ProcessError)
  /-- Sending an error that is not fatal. -/
  | report
  | forwardCommitted (rest : List BlockItem)
  | stopped
deriving DecidableEq

structure ApplyStageRunner where
  pc : Pc := .select
  cancelled : Bool := false
  nextSequence : Nat := 0
  pending : GoMap Nat BlockItem := ∅
  /-- The last argument of `processedFunc`. -/
  reported : Nat := 0
  output : List BlockItem := []
  log : List Event := []
deriving DecidableEq

inductive Choice where
  /-- The context is cancelled. -/
  | cancel
  /-- The input is closed, or the cancelled context is noticed. -/
  | stop
  | receive (item : BlockItem)
  /-- The goroutine goes on by itself. -/
  | advance
  | callback (outcome : CallOutcome)
  /-- The output channel takes the next item. -/
  | send
  /-- A blocked send is abandoned for the cancelled context. -/
  | giveUp
deriving DecidableEq

namespace ApplyStageRunner

def record (s : ApplyStageRunner) (event : Event) : ApplyStageRunner :=
  { s with log := s.log ++ [event] }

/-- `maybeApply` has failed: the item is rejected and the call returns. -/
def reject (s : ApplyStageRunner) (item : BlockItem) (processed : List BlockItem)
    (err : ProcessError) : ApplyStageRunner :=
  { s.record (.rejected item err) with pc := .accountProcessed processed (some err) }

/-- `maybeApply` has succeeded: the buffered items are next. -/
def complete (s : ApplyStageRunner) (item : BlockItem) (processed : List BlockItem) :
    ApplyStageRunner :=
  { s.record (.processed item) with pc := .applyPending (processed ++ [item]) }

/-- The critical section of `processWithStatus`. -/
def processWithStatus (cfg : ApplyConfig) (s : ApplyStageRunner) (item : BlockItem) :
    ApplyStageRunner :=
  if item.sequenceNumber = s.nextSequence then
    { s with nextSequence := s.nextSequence + 1, pc := .maybeApply item [] }
  else if 0 < cfg.maxPending ∧ cfg.maxPending ≤ s.pending.keys.length then
    s.reject item [] .pendingLimitExceeded
  else
    { s with
      pending := s.pending.insert item.sequenceNumber item
      pc := .accountProcessed [] none }

/-- The checks of `maybeApply`, up to the chain-context validator. -/
def maybeApply (cfg : ApplyConfig) (s : ApplyStageRunner) (item : BlockItem)
    (processed : List BlockItem) : ApplyStageRunner :=
  match item.decodeError with
  | some err =>
    if cfg.trustedDecodeOnly then s.complete item processed
    else s.reject item processed (.itemRejected (.decodeBlock err))
  | none =>
    match item.validationError with
    | some err => s.reject item processed (.itemRejected (.validateBlock err))
    | none =>
      if cfg.requireValidation && !item.isValid then
        s.reject item processed (.itemRejected .blockNotValidated)
      else if cfg.trustedDecodeOnly || cfg.headerOnly then s.complete item processed
      else if !cfg.hasChainContextValidator then
        s.reject item processed (.itemRejected .missingChainContextValidator)
      else { s with pc := .callChainContextValidator item processed }

def callChainContextValidator (cfg : ApplyConfig) (s : ApplyStageRunner) (item : BlockItem)
    (processed : List BlockItem) (outcome : CallOutcome) : ApplyStageRunner :=
  let err := outcome.err "chain-context validator"
  let s := s.record (.chainContext item err)
  match err with
  | some err => s.reject item processed (.itemRejected (.chainContextValidation err))
  | none =>
    { s with
      pc :=
        if cfg.hasOrderedValidator then .callOrderedValidator item processed
        else .applyItem item processed }

def callOrderedValidator (s : ApplyStageRunner) (item : BlockItem) (processed : List BlockItem)
    (outcome : CallOutcome) : ApplyStageRunner :=
  let err := outcome.err "ordered validator"
  let s := s.record (.ordered item err)
  match err with
  | some err => s.reject item processed (.itemRejected (.orderedValidation err))
  | none => { s with pc := .applyItem item processed }

def callApplyFunc (s : ApplyStageRunner) (item : BlockItem) (processed : List BlockItem)
    (outcome : CallOutcome) : ApplyStageRunner :=
  let err := outcome.err "apply function"
  let s := s.record (.apply item err)
  match err with
  | some err => s.reject item processed (.itemRejected (.blockApply err))
  | none => s.complete item processed

/-- The critical section of `applyPending`. -/
def takePending (s : ApplyStageRunner) (processed : List BlockItem) : ApplyStageRunner :=
  match s.pending.lookup s.nextSequence with
  | none => { s with pc := .accountProcessed processed none }
  | some item =>
    { s with
      pending := s.pending.erase s.nextSequence
      nextSequence := s.nextSequence + 1
      pc := .maybeApply item processed }

def fail (cfg : ApplyConfig) (s : ApplyStageRunner) (processed : List BlockItem) :
    ApplyStageRunner :=
  { s with cancelled := s.cancelled || cfg.cancelsOnFatal, pc := .forwardCommitted processed }

/-- `processedFunc` is called with the number after the last item, if there is one. -/
def callProcessedFunc (s : ApplyStageRunner) (processed : List BlockItem) : ApplyStageRunner :=
  { s with
    reported := (processed.getLast?.map fun item => item.sequenceNumber + 1).getD s.reported }

/-- `processedFunc` has returned: what comes next depends on the error. -/
def accountProcessed (cfg : ApplyConfig) (s : ApplyStageRunner) (processed : List BlockItem)
    (err : Option ProcessError) : ApplyStageRunner :=
  let s := s.callProcessedFunc processed
  if err.any ProcessError.fatal then s.fail cfg processed
  else { s with pc := .forwardProcessed processed err }

/-- After the processed items: the error, if any, and the next item. -/
def afterForward (err : Option ProcessError) : Pc := if err.isSome then .report else .select

/-- One step of the runner, as `choice` decides. -/
def step (cfg : ApplyConfig) (s : ApplyStageRunner) (choice : Choice) : Option ApplyStageRunner :=
  match s.pc, choice with
  | _, .cancel => some { s with cancelled := true }
  | .select, .stop => some { s with pc := .stopped }
  | .select, .receive item => some { s with pc := .process item }
  | .process item, .advance =>
    some { s with
      pc := if s.cancelled then .accountProcessed [] (some .contextDone) else .dispatch item }
  | .dispatch item, .advance => some (s.processWithStatus cfg item)
  | .maybeApply item processed, .advance => some (s.maybeApply cfg item processed)
  | .callChainContextValidator item processed, .callback outcome =>
    some (s.callChainContextValidator cfg item processed outcome)
  | .callOrderedValidator item processed, .callback outcome =>
    some (s.callOrderedValidator item processed outcome)
  | .applyItem item processed, .advance =>
    some (if s.cancelled then s.reject item processed .contextDone
      else { s with pc := .callApplyFunc item processed })
  -- A missing `ApplyFunc` counts as success.
  | .callApplyFunc item processed, .advance =>
    if cfg.hasApplyFunc then none else some (s.complete item processed)
  | .callApplyFunc item processed, .callback outcome =>
    if cfg.hasApplyFunc then some (s.callApplyFunc item processed outcome) else none
  | .applyPending processed, .advance =>
    some { s with
      pc := if s.cancelled then .accountProcessed processed (some .contextDone)
        else .takePending processed }
  | .takePending processed, .advance => some (s.takePending processed)
  | .accountProcessed processed err, .advance => some (s.accountProcessed cfg processed err)
  -- A panic of `processedFunc` is fatal.
  | .accountProcessed (item :: rest) _, .callback (.panicked _) => some (s.fail cfg (item :: rest))
  | .forwardProcessed (item :: rest) err, .send =>
    some { s with output := s.output ++ [item], pc := .forwardProcessed rest err }
  | .forwardProcessed (_ :: _) err, .giveUp =>
    if s.cancelled then some { s with pc := afterForward err } else none
  | .forwardProcessed [] err, .advance => some { s with pc := afterForward err }
  | .report, .advance => some { s with pc := .select }
  | .report, .giveUp => if s.cancelled then some { s with pc := .stopped } else none
  | .forwardCommitted (item :: rest), .send =>
    some { s with output := s.output ++ [item], pc := .forwardCommitted rest }
  | .forwardCommitted [], .advance => some { s with pc := .stopped }
  | _, _ => none

end ApplyStageRunner

end Gouroboros.Pipeline

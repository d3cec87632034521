import Gouroboros.Pipeline.ApplyStage

/-!
# The block pipeline

`pipeline/pipeline.go`: `Submit` puts items into the queue under the submit
gate, decode and validate workers carry them to the apply stage in any order,
the runner of `ApplyStage` processes them, and `Fence` waits for those submitted
before it. The steps of the goroutines interleave as the list of actions says.

`completedSequence` is what `processedFunc` was last called with
(`markProcessed`), and the pipeline's context is the runner's. Channels are
unbounded, and a worker may hold an item for as long as it likes: both only
allow more interleavings. An action that fails a `Submit` is always possible,
since its caller's context may be cancelled at any time. The byte budget and the
results side do not touch the counters and are left out.
-/

namespace Gouroboros.Pipeline

inductive Gate where
  | free
  /-- `Submit` in `waitForPendingCapacity`. -/
  | waiting
  /-- `Submit` with the sequence number it loaded, before the enqueue. -/
  | ready (sequence : Nat)
  /-- `Submit` after the enqueue, before `sequenceCounter.Add`. -/
  | enqueued (sequence : Nat)
  /-- `Submit` about to release the gate and return nil. -/
  | committed (sequence : Nat)
  /-- `Fence`, before it reads the counter. -/
  | fence
deriving DecidableEq

/-- A call of `Fence` past its boundary. `acknowledged` are the sequence numbers
of the `Submit` calls that had returned nil when it captured `target`. -/
structure Fence where
  target : Nat
  acknowledged : List Nat
  returnedNil : Bool
deriving DecidableEq

structure PipelineConfig where
  maxPendingBlocks : Int
  /-- `ValidateWorkers > 0`. -/
  validationEnabled : Bool
  hasApplyFunc : Bool
  hasChainContextValidator : Bool
  trustedDecodeOnly : Bool
  headerOnly : Bool
deriving DecidableEq

/-- How `Start` sets the apply stage up. -/
def PipelineConfig.apply (cfg : PipelineConfig) : ApplyConfig where
  hasApplyFunc := cfg.hasApplyFunc
  hasChainContextValidator := cfg.hasChainContextValidator
  hasOrderedValidator := !cfg.trustedDecodeOnly && !cfg.headerOnly
  trustedDecodeOnly := cfg.trustedDecodeOnly
  headerOnly := cfg.headerOnly
  requireValidation := cfg.validationEnabled
  maxPending := cfg.maxPendingBlocks
  cancelsOnFatal := true

structure BlockPipeline where
  sequenceCounter : Nat := 0
  gate : Gate := .free
  submitChan : List BlockItem := []
  /-- The items the decode workers hold. -/
  decoding : List BlockItem := []
  decodedChan : List BlockItem := []
  /-- The items the validate workers hold. -/
  validating : List BlockItem := []
  validatedChan : List BlockItem := []
  runner : ApplyStageRunner := {}
  /-- The sequence numbers put into the queue, in order. -/
  queued : List Nat := []
  /-- The sequence numbers whose `Submit` returned nil, in order. -/
  returned : List Nat := []
  fences : List Fence := []
deriving DecidableEq

inductive PipelineAction where
  /-- `Submit` acquires the gate. -/
  | lockSubmit
  /-- `waitForPendingCapacity` returns nil. -/
  | capacity
  /-- `Submit` gives up before the enqueue. -/
  | failSubmit
  | enqueue
  | commit
  | unlockSubmit
  | takeSubmitted
  | decoded (item : BlockItem) (decodeError : Option String)
  | takeDecoded
  | validated (item : BlockItem) (validationError : Option String) (isValid : Bool)
  /-- A worker drops its item for the cancelled context. -/
  | drop (item : BlockItem)
  /-- The runner receives from its input. -/
  | receive
  /-- Any other step of the runner. -/
  | runner (choice : Choice)
  | lockFence
  | captureFence
  | failFence
  | returnFence (index : Nat)
deriving DecidableEq

namespace BlockPipeline

def completedSequence (p : BlockPipeline) : Nat := p.runner.reported

def hasPendingCapacity (cfg : PipelineConfig) (p : BlockPipeline) : Prop :=
  cfg.maxPendingBlocks ≤ 0 ∨ p.sequenceCounter ≤ p.completedSequence ∨
    (p.sequenceCounter - p.completedSequence : Nat) ≤ cfg.maxPendingBlocks

instance (cfg : PipelineConfig) (p : BlockPipeline) : Decidable (p.hasPendingCapacity cfg) :=
  inferInstanceAs (Decidable (_ ∨ _ ∨ _))

/-- Nothing is known of the block yet. -/
def newBlockItem (sequence : Nat) : BlockItem := ⟨sequence, none, none, false⟩

def submitStep (cfg : PipelineConfig) (p : BlockPipeline) : PipelineAction → Option BlockPipeline
  | .lockSubmit => if p.gate = .free then some { p with gate := .waiting } else none
  | .capacity =>
    if p.gate = .waiting ∧ p.hasPendingCapacity cfg then
      some { p with gate := .ready p.sequenceCounter }
    else none
  | .failSubmit =>
    match p.gate with
    | .waiting | .ready _ => some { p with gate := .free }
    | _ => none
  | .enqueue =>
    match p.gate with
    | .ready sequence =>
      some { p with
        submitChan := p.submitChan ++ [newBlockItem sequence]
        queued := p.queued ++ [sequence]
        gate := .enqueued sequence }
    | _ => none
  | .commit =>
    match p.gate with
    | .enqueued sequence =>
      some { p with sequenceCounter := p.sequenceCounter + 1, gate := .committed sequence }
    | _ => none
  | .unlockSubmit =>
    match p.gate with
    | .committed sequence => some { p with returned := p.returned ++ [sequence], gate := .free }
    | _ => none
  | _ => none

/-- The workers. Without validation the decoded items go straight to the runner. -/
def workerStep (cfg : PipelineConfig) (p : BlockPipeline) : PipelineAction → Option BlockPipeline
  | .takeSubmitted =>
    match p.submitChan with
    | item :: rest => some { p with submitChan := rest, decoding := item :: p.decoding }
    | [] => none
  | .decoded item decodeError =>
    if item ∈ p.decoding then
      some { p with
        decoding := p.decoding.erase item
        decodedChan := p.decodedChan ++ [{ item with decodeError := decodeError }] }
    else none
  | .takeDecoded =>
    match cfg.validationEnabled, p.decodedChan with
    | true, item :: rest => some { p with decodedChan := rest, validating := item :: p.validating }
    | _, _ => none
  | .validated item validationError isValid =>
    if item ∈ p.validating then
      some { p with
        validating := p.validating.erase item
        validatedChan := p.validatedChan ++
          [{ item with validationError := validationError, isValid := isValid }] }
    else none
  | .drop item =>
    if p.runner.cancelled then
      some { p with decoding := p.decoding.erase item, validating := p.validating.erase item }
    else none
  | _ => none

/-- The runner takes the head of the channel that `Start` gave it. -/
def receiveStep (cfg : PipelineConfig) (p : BlockPipeline) : Option BlockPipeline :=
  match cfg.validationEnabled, p.decodedChan, p.validatedChan with
  | true, _, item :: rest =>
    (p.runner.step cfg.apply (.receive item)).map fun runner =>
      { p with validatedChan := rest, runner := runner }
  | false, item :: rest, _ =>
    (p.runner.step cfg.apply (.receive item)).map fun runner =>
      { p with decodedChan := rest, runner := runner }
  | _, _, _ => none

def fenceStep (p : BlockPipeline) : PipelineAction → Option BlockPipeline
  | .lockFence => if p.gate = .free then some { p with gate := .fence } else none
  | .failFence => if p.gate = .fence then some { p with gate := .free } else none
  | .captureFence =>
    if p.gate = .fence then
      some { p with
        fences := p.fences ++ [⟨p.sequenceCounter, p.returned, false⟩]
        gate := .free }
    else none
  | .returnFence index =>
    match p.fences[index]? with
    | some fence =>
      if fence.target ≤ p.completedSequence then
        some { p with fences := p.fences.set index { fence with returnedNil := true } }
      else none
    | none => none
  | _ => none

def step (cfg : PipelineConfig) (p : BlockPipeline) (action : PipelineAction) :
    Option BlockPipeline :=
  match action with
  | .receive => p.receiveStep cfg
  | .runner (.receive _) => none
  | .runner choice => (p.runner.step cfg.apply choice).map fun runner => { p with runner := runner }
  | .lockSubmit | .capacity | .failSubmit | .enqueue | .commit | .unlockSubmit =>
    p.submitStep cfg action
  | .takeSubmitted | .decoded .. | .takeDecoded | .validated .. | .drop _ => p.workerStep cfg action
  | .lockFence | .captureFence | .failFence | .returnFence _ => p.fenceStep action

end BlockPipeline

end Gouroboros.Pipeline

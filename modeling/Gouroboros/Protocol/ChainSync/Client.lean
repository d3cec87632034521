import Gouroboros.Lib.Transition

/-!
# The chain-sync client

The goroutines of `protocol/chainsync/client.go` between `Start` and the end of
the connection: the sync loop, the handlers of the server's replies, which run
one after the other, and the calls of `Sync`, `Reintersect` and
`StopAfterDrain`.

`busyMutex` is the field `busy`: what its holder is about to do, so that there is
one holder by construction. `lifecycleMutex` is held from one step to the next
only by a handler that is sending a ready signal (`lifecycleHeld`); every other
critical section of it blocks nowhere and is one step, which needs it free. The
ready channel is the list `ready`, of capacity `limit`.

`SendMessage` puts a message into the protocol's send queue, which its own
goroutine empties; it fails when the protocol is done. Messages, points and tips
are left out, and so are the waits at the end of `finishStop` for goroutines that
the closed channels have released. A `Stop`, a lost connection or an error of the
protocol is `connectionLost`.
-/

namespace Gouroboros.Protocol.ChainSync

def defaultPipelineLimit : Nat := 75

/-- `NewClient`: the limit of a configuration, with the default for zero. -/
def newClientLimit (pipelineLimit : Nat) : Nat :=
  if pipelineLimit = 0 then defaultPipelineLimit else pipelineLimit

/-- Where the handler of a reply to MsgRequestNext is. `failed` is whether it will
return an error, which ends the protocol. -/
inductive HandlerPc where
  | idle
  /-- In the callback, or in the pipeline. -/
  | callback
  /-- Before it locks `lifecycleMutex` to signal `ready`. -/
  | lockForSignal (ready failed : Bool)
  /-- Holding `lifecycleMutex`, at the send. -/
  | signalling (ready failed : Bool)
  /-- Before `requestNextAnswered`. -/
  | retire (failed : Bool)
deriving DecidableEq

/-- How a callback ends: with a ready signal, or with an error and no signal. -/
inductive CallbackOutcome where
  | signal (ready failed : Bool)
  | error
deriving DecidableEq

inductive OpKind where
  /-- `stopsBefore` is the number of stop requests when it was called. -/
  | reintersect (stopsBefore : Nat)
  | stopAfterDrain
deriving DecidableEq

/-- A call that does not hold `busyMutex`. `generation` names the loop whose stop
channel it read. -/
inductive OpPc where
  | reintersectCalled
  /-- At the head of the loop of `quiesceSync`. -/
  | closeLoopStop (kind : OpKind)
  | awaitLoop (kind : OpKind) (generation : Nat)
  | lockBusy (kind : OpKind) (generation : Nat)
  /-- `finishStop`, before it closes the ready channel. -/
  | closeReady
deriving DecidableEq

/-- What the call that holds `busyMutex` is about to do. -/
inductive OpBusy where
  | recheck (kind : OpKind) (generation : Nat)
  | countOutstanding (kind : OpKind)
  | awaitDrained (kind : OpKind)
  | drainSignals (stopsBefore : Nat)
  | checkStopped (stopsBefore : Nat)
  | sendFindIntersect
  | awaitIntersect
  /-- `sendInitialRequestAndStartSyncLoop`. -/
  | initialCheck
  | initialCount
  | initialSend
  | startLoop
  /-- `StopAfterDrain` after the drain. -/
  | setStopping
  | sendDone
deriving DecidableEq

/-- What the sync loop that holds `busyMutex` is about to do; `remaining` requests
of a batch are still to be sent. -/
inductive LoopBusy where
  | check
  | count (remaining : Nat)
  | send (remaining : Nat)
  | finish
deriving DecidableEq

inductive BusyPc where
  | free
  | loop (pc : LoopBusy)
  | op (pc : OpBusy)
deriving DecidableEq

inductive LoopPc where
  | none
  | select
  | lockBusy
  /-- Holding `busyMutex`. -/
  | holding
  | exited
deriving DecidableEq

/-- The state right after `Start`, with `Sync` holding `busyMutex`. -/
structure Client where
  stopping : Bool := false
  done : Bool := false
  handler : HandlerPc := .idle
  loop : LoopPc := .none
  /-- The number of loops started: the identity of `syncLoopStop`. -/
  loopGeneration : Nat := 0
  /-- `syncLoopStop` is closed. -/
  loopStop : Bool := false
  busy : BusyPc := .op .sendFindIntersect
  ops : List OpPc := []
  ready : List Bool := []
  readyClosed : Bool := false
  syncPipelinedRequestNext : Nat := 0
  outstandingRequestNext : Nat := 0
  /-- `requestNextDrained` is not nil. -/
  drainPending : Bool := false
  syncStopRequests : Nat := 0
  /-- The requests that the server has not answered. -/
  unanswered : Nat := 0
deriving DecidableEq

inductive Action where
  | callReintersect
  | callStopAfterDrain
  /-- A call that does not hold `busyMutex` goes on. -/
  | opStep (index : Nat)
  | opAbandon (index : Nat)
  /-- The holder of `busyMutex` goes on. -/
  | busyStep
  | busyAbandon
  | loopSignal
  | loopStopped
  | loopLock
  /-- The server answers a request. -/
  | reply
  | callbackReturns (outcome : CallbackOutcome)
  | handlerStep
  | handlerDone
  | intersectReply (found : Bool)
  | connectionLost
deriving DecidableEq

namespace Client

def lifecycleHeld (c : Client) : Bool :=
  match c.handler with
  | .signalling .. => true
  | _ => false

def requestNextAnswered (c : Client) : Client :=
  let outstanding := c.outstandingRequestNext - 1
  { c with
    outstandingRequestNext := outstanding
    drainPending := c.drainPending && decide (0 < outstanding) }

/-- The handlers. A handler at its send waits for a slot, or for the done channel. -/
def handlerStep (limit : Nat) (c : Client) : Action → Option Client
  | .reply =>
    if c.handler = .idle ∧ 0 < c.unanswered ∧ c.done = false then
      some { c with handler := .callback, unanswered := c.unanswered - 1 }
    else none
  | .callbackReturns outcome =>
    match c.handler, outcome with
    | .callback, .signal ready failed => some { c with handler := .lockForSignal ready failed }
    | .callback, .error => some { c with handler := .retire true }
    | _, _ => none
  | .handlerStep =>
    match c.handler with
    | .lockForSignal ready failed =>
      some { c with
        handler := if c.readyClosed then .retire failed else .signalling ready failed }
    | .signalling ready failed =>
      if c.ready.length < limit then
        some { c with
          ready := c.ready ++ [ready]
          syncStopRequests := if ready then c.syncStopRequests else c.syncStopRequests + 1
          handler := .retire failed }
      else none
    | .retire failed =>
      some { c.requestNextAnswered with handler := .idle, done := c.done || failed }
    | _ => none
  | .handlerDone =>
    match c.handler with
    | .signalling _ failed =>
      if c.done then some { c with handler := .retire failed } else none
    | _ => none
  | _ => none

/-- The sync loop where it does not hold `busyMutex`. -/
def loopStep (c : Client) : Action → Option Client
  | .loopSignal =>
    match c.loop, c.ready with
    | .select, ready :: rest =>
      some { c with ready := rest, loop := if ready then .lockBusy else .exited }
    | _, _ => none
  | .loopStopped =>
    if c.loop = .select ∧ (c.loopStop = true ∨ c.done = true ∨ c.readyClosed = true) then
      some { c with loop := .exited }
    else none
  | .loopLock =>
    if c.loop = .lockBusy ∧ c.busy = .free then
      some { c with loop := .holding, busy := .loop .check }
    else none
  | _ => none

/-- The sync loop where it holds `busyMutex`. -/
def loopBusyStep (limit : Nat) (c : Client) : LoopBusy → Client
  | .check =>
    if c.loopStop || c.stopping then { c with loop := .exited, busy := .free }
    else if 0 < c.syncPipelinedRequestNext then
      { c with
        syncPipelinedRequestNext := c.syncPipelinedRequestNext - 1
        loop := .select
        busy := .free }
    else { c with busy := .loop (.count (max limit 1)) }
  | .count remaining =>
    { c with
      outstandingRequestNext := c.outstandingRequestNext + 1
      busy := .loop (.send remaining) }
  | .send remaining =>
    if c.done then { c.requestNextAnswered with loop := .exited, busy := .free }
    else
      { c with
        unanswered := c.unanswered + 1
        busy := .loop (if remaining = 1 then .finish else .count (remaining - 1)) }
  | .finish =>
    if c.stopping then { c with loop := .exited, busy := .free }
    else
      { c with
        syncPipelinedRequestNext := max limit 1 - 1
        loop := .select
        busy := .free }

/-- After the drain of `quiesceSync`. -/
def afterDrain : OpKind → BusyPc
  | .reintersect stopsBefore => .op (.drainSignals stopsBefore)
  | .stopAfterDrain => .op .setStopping

/-- A call that holds `busyMutex` and does not have to wait. -/
def opBusyStep (c : Client) : OpBusy → Option Client
  | .recheck kind generation =>
    some (if generation = c.loopGeneration then { c with busy := .op (.countOutstanding kind) }
      else { c with busy := .free, ops := c.ops ++ [.closeLoopStop kind] })
  | .countOutstanding kind =>
    some (if 0 < c.outstandingRequestNext then
        { c with drainPending := true, busy := .op (.awaitDrained kind) }
      else { c with busy := afterDrain kind })
  | .awaitDrained kind =>
    if c.drainPending then none else some { c with busy := afterDrain kind }
  | .drainSignals stopsBefore =>
    match c.ready with
    | _ :: rest => some { c with ready := rest }
    | [] =>
      some { c with
        busy := if c.readyClosed then .free else .op (.checkStopped stopsBefore) }
  | .checkStopped stopsBefore =>
    some { c with
      busy := if c.syncStopRequests ≠ stopsBefore then .free else .op .sendFindIntersect }
  | .sendFindIntersect => some { c with busy := if c.done then .free else .op .awaitIntersect }
  | .awaitIntersect => none
  | .initialCheck =>
    some { c with busy := if c.stopping || c.readyClosed then .free else .op .initialCount }
  | .initialCount =>
    some { c with
      outstandingRequestNext := c.outstandingRequestNext + 1
      busy := .op .initialSend }
  | .initialSend =>
    some (if c.done then { c.requestNextAnswered with busy := .free }
      else { c with unanswered := c.unanswered + 1, busy := .op .startLoop })
  | .startLoop =>
    some (if c.stopping then { c with busy := .free }
      else
        { c with
          syncPipelinedRequestNext := 0
          loopGeneration := c.loopGeneration + 1
          loopStop := false
          loop := .select
          busy := .free })
  | .setStopping =>
    some (if c.stopping then { c with busy := .free }
      else { c with stopping := true, busy := .op .sendDone })
  | .sendDone => some { c with busy := .free, ops := c.ops ++ [.closeReady] }

/-- The next step of the holder locks `lifecycleMutex`. A send does when it fails. -/
def needsLifecycle (c : Client) : Bool :=
  match c.busy with
  | .loop (.send _) | .op .initialSend => c.done
  | .op (.awaitDrained _) | .op (.drainSignals _) | .op .sendFindIntersect | .op .sendDone => false
  | _ => true

def busyStep (limit : Nat) (c : Client) : Action → Option Client
  | .busyStep =>
    if c.lifecycleHeld && c.needsLifecycle then none
    else
      match c.busy with
      | .free => none
      | .loop pc => some (c.loopBusyStep limit pc)
      | .op pc => c.opBusyStep pc
  | .busyAbandon =>
    match c.busy with
    | .op (.awaitDrained kind) =>
      -- The context of `StopAfterDrain` may end at any time, and the wait is taken back.
      if kind = .stopAfterDrain then some { c with drainPending := false, busy := .free }
      else if c.done || c.stopping then some { c with busy := .free }
      else none
    | .op .awaitIntersect => if c.done then some { c with busy := .free } else none
    | _ => none
  | .intersectReply found =>
    if c.busy = .op .awaitIntersect ∧ c.handler = .idle ∧ c.done = false then
      some { c with busy := if found then .op .initialCheck else .free }
    else none
  | _ => none

/-- One call goes on; `others` are the other calls. -/
def opStep (c : Client) (others : List OpPc) : OpPc → Option Client
  | .reintersectCalled =>
    if c.lifecycleHeld then none
    else some { c with ops := .closeLoopStop (.reintersect c.syncStopRequests) :: others }
  | .closeLoopStop kind =>
    if c.lifecycleHeld then none
    else if c.loopGeneration = 0 then some { c with ops := .lockBusy kind 0 :: others }
    else some { c with loopStop := true, ops := .awaitLoop kind c.loopGeneration :: others }
  | .awaitLoop kind generation =>
    if generation < c.loopGeneration ∨ c.loop = .exited then
      some { c with ops := .lockBusy kind generation :: others }
    else none
  | .lockBusy kind generation =>
    if c.busy = .free then some { c with busy := .op (.recheck kind generation), ops := others }
    else none
  | .closeReady =>
    if c.lifecycleHeld then none
    else some { c with readyClosed := true, done := true, ops := others }

def opAbandon (c : Client) (others : List OpPc) : OpPc → Option Client
  | .awaitLoop kind _ | .lockBusy kind _ =>
    if c.done || c.stopping || decide (kind = .stopAfterDrain) then some { c with ops := others }
    else none
  | _ => none

/-- A new call passes `beginOperation`. -/
def call (c : Client) (pc : OpPc) : Option Client :=
  if c.lifecycleHeld || c.stopping || c.readyClosed then none else some { c with ops := pc :: c.ops }

def step (limit : Nat) (c : Client) (action : Action) : Option Client :=
  match action with
  | .callReintersect => c.call .reintersectCalled
  | .callStopAfterDrain => c.call (.closeLoopStop .stopAfterDrain)
  | .opStep index => (c.ops[index]?).bind fun op => c.opStep (c.ops.eraseIdx index) op
  | .opAbandon index => (c.ops[index]?).bind fun op => c.opAbandon (c.ops.eraseIdx index) op
  | .busyStep | .busyAbandon | .intersectReply _ => c.busyStep limit action
  | .loopSignal | .loopStopped | .loopLock => c.loopStep action
  | .reply | .callbackReturns _ | .handlerStep | .handlerDone => c.handlerStep limit action
  | .connectionLost => some { c with done := true }

end Client

end Gouroboros.Protocol.ChainSync

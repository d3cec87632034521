import Gouroboros.Protocol.StateMachine

/-!
# The loops of a mini-protocol

`sendLoop`, `readLoop` and `recvLoop` of `protocol/protocol.go`, joined with a
peer that follows the state map, as a transition system. Every access to what
the loops share is a step of its own, so a run is any interleaving of them.
`stateLoop` answers a transition request while its caller waits, so asking and
answering are one step.

The queues and the two directions of the connection are lists that nothing bounds,
and a message moves on whenever it is taken, so every delay of bytes is covered. A
batch goes out when it is complete: that its first segment may reach the peer
earlier is covered by the loop waiting at its next step. Sizes, decoding, timeouts
and shutdown are left out.

A loop that would call `SendError` leaves the reason in `failure`. `refused`
counts the transition requests that `stateLoop` answered with an error, and
`sent`, `handled` and `written` record what went where.
-/

namespace Gouroboros.Protocol

inductive Failure (M : Type) where
  | admissionDenied (msg : M)
  | messageNotAllowed (msg : M)
  | sendTransition (msg : M)
  | inboundTransition (msg : M)
deriving DecidableEq

/-- Where `sendLoop` is. `queueTransition` is its variable of that name. -/
inductive SendPc (M : Type) where
  | top
  /-- At a select for the token alone. -/
  | awaitToken
  /-- At the select for the token or a queued message. -/
  | selectPipelined
  /-- `resolvePipelinedDequeue`, at its first look at the state. -/
  | resolve (msg : M)
  | drainToken (msg : M)
  /-- In `flushQueuedStateTransitions`, entered with a backlog of `before`. -/
  | flush (msg : M) (before : Nat)
  | postFlush (msg : M) (before : Nat)
  /-- Woken with agency. -/
  | agency
  | readSendQueue (queueTransition : Bool)
  | recheck (msg : M)
  | write (msg : M) (queueTransition : Bool)
  | batched
  | sendSegments
deriving DecidableEq

structure SendLoop (M : Type) where
  pc : SendPc M := .top
  queuedStateTransitions : List M := []
  pipelinedOutbound : Option M := none
  payload : List M := []
deriving DecidableEq

/-- Where `readLoop` is with the first message of its buffer. -/
inductive ReadPc (S M : Type) where
  | idle
  | snapshotted (state : S) (generation : Nat) (hadUnreservedPipelinedRequest : Bool)
  | admitted (msg : M) (reservedPipelinedReply : Bool)
deriving DecidableEq

inductive RecvPc (M : Type) where
  | idle
  /-- Waiting until the peer has agency. -/
  | waiting (msg : M) (reservedPipelinedReply : Bool)
  | transition (msg : M) (reservedPipelinedReply : Bool)
  | handle (msg : M)
deriving DecidableEq

structure System (S T M : Type) where
  shared : Shared S T
  sendLoop : SendLoop M := {}
  readPc : ReadPc S M := .idle
  recvPc : RecvPc M := .idle
  /-- What the application has still to queue. -/
  application : List M
  sendQueue : List M := []
  recvQueue : List (M × Bool) := []
  toServer : List M := []
  toClient : List M := []
  server : S
  written : List M := []
  sent : List M := []
  handled : List M := []
  refused : Nat := 0
  failure : Option (Failure M) := none

inductive Action (M : Type) where
  | enqueue
  /-- `sendLoop` goes on where it has no choice. -/
  | sendStep
  /-- A select takes the token, or a queued message. -/
  | sendToken
  | sendDequeue
  /-- The batch takes another queued message, or ends. -/
  | sendMore
  | sendBreak
  | snapshot
  | admission
  | push
  | recvTake
  | recvStep
  | serverReceive
  | serverSend (msg : M)
deriving DecidableEq

namespace System

variable {S T M : Type} [DecidableEq T] (cfg : ProtocolConfig S T M)

def fail (s : System S T M) (failure : Failure M) : System S T M :=
  { s with failure := some failure }

def sendTo (s : System S T M) (pc : SendPc M) : System S T M :=
  { s with sendLoop := { s.sendLoop with pc := pc } }

/-- `sendLoop` keeps `msg` in `pipelinedOutbound`. -/
def hold (s : System S T M) (msg : M) (pc : SendPc M) : System S T M :=
  { s with sendLoop := { s.sendLoop with pc := pc, pipelinedOutbound := some msg } }

def takeToken (s : System S T M) : System S T M :=
  { s with shared := { s.shared with sendReady := false } }

/-- A message that cannot go now waits for agency if some state with our agency allows
it. -/
def holdForAgency (s : System S T M) (msg : M) (pc : SendPc M) : System S T M :=
  if messageHasAgencyTransition cfg msg then s.hold msg pc else s.fail (.messageNotAllowed msg)

/-! ## The send loop -/

def sendTop (s : System S T M) : System S T M :=
  if s.sendLoop.pipelinedOutbound.isSome then s.sendTo .awaitToken
  else if roleMayPipeline (cfg.stateMap s.shared.currentState) then s.sendTo .selectPipelined
  else s.sendTo .awaitToken

def sendResolve (s : System S T M) (msg : M) : System S T M :=
  let entry := cfg.stateMap s.shared.currentState
  if pipelinedMessageFits cfg entry msg then s.hold msg (.readSendQueue true)
  else if !roleHasAgency entry then s.holdForAgency cfg msg .top
  else s.sendTo (.drainToken msg)

/-- One deferred transition of the flush; an error ends it. -/
def sendFlush (s : System S T M) (msg : M) (before : Nat) : System S T M :=
  match s.sendLoop.queuedStateTransitions with
  | [] => s.sendTo (.postFlush msg before)
  | deferred :: rest =>
    match applyTransition cfg s.shared deferred false true with
    | none => { s.sendTo (.postFlush msg before) with refused := s.refused + 1 }
    | some shared =>
      { s with
        shared := shared
        sendLoop := { s.sendLoop with queuedStateTransitions := rest } }

/-- `observeStateAndDrainSendReady` and the decision on the message. -/
def sendPostFlush (s : System S T M) (msg : M) (before : Nat) : System S T M :=
  let s := s.takeToken
  let entry := cfg.stateMap s.shared.currentState
  if pipelinedMessageFits cfg entry msg then s.hold msg (.readSendQueue true)
  else if !roleHasAgency entry then s.holdForAgency cfg msg .top
  else if s.sendLoop.queuedStateTransitions = [] then
    if (nextState cfg s.shared.currentState msg).isSome then s.hold msg (.readSendQueue false)
    else s.fail (.messageNotAllowed msg)
  else if s.sendLoop.queuedStateTransitions.length < before then
    s.sendTo (.flush msg s.sendLoop.queuedStateTransitions.length)
  else s.fail (.sendTransition msg)

def sendAgency (s : System S T M) : System S T M :=
  match s.sendLoop.queuedStateTransitions with
  | [] => s.sendTo (.readSendQueue false)
  | deferred :: rest =>
    match applyTransition cfg s.shared deferred false true with
    | none => { s.fail (.sendTransition deferred) with refused := s.refused + 1 }
    | some shared =>
      { s with
        shared := shared
        sendLoop := { s.sendLoop with pc := .top, queuedStateTransitions := rest } }

/-- The next message of the batch; a held one comes first. -/
def sendRead (s : System S T M) (queueTransition : Bool) : Option (System S T M) :=
  match s.sendLoop.pipelinedOutbound, s.sendQueue with
  | some msg, _ =>
    some { s with
      sendLoop := { s.sendLoop with pc := .write msg queueTransition, pipelinedOutbound := none } }
  | none, msg :: rest =>
    some { s.sendTo (if queueTransition then .recheck msg else .write msg false) with
      sendQueue := rest }
  | none, [] => none

/-- A message batched behind others. With an empty backlog `takeAgencyToken` lets it be an
ordinary send. -/
def sendRecheck (s : System S T M) (msg : M) : System S T M :=
  let entry := cfg.stateMap s.shared.currentState
  if s.sendLoop.queuedStateTransitions = [] ∧ roleHasAgency entry = true then
    s.takeToken.sendTo (.write msg false)
  else if roleMayPipeline entry && pipelinedMessageFits cfg entry msg then
    s.sendTo (.write msg true)
  else s.holdForAgency cfg msg .sendSegments

/-- A message goes into the batch, and its transition runs now or is deferred. -/
def sendWrite (s : System S T M) (msg : M) (queueTransition : Bool) : System S T M :=
  if queueTransition then
    { s with
      shared :=
        { s.shared with
          pendingPipelinedRequests := s.shared.pendingPipelinedRequests + 1 }
      sendLoop :=
        { s.sendLoop with
          pc := .batched
          payload := s.sendLoop.payload ++ [msg]
          queuedStateTransitions := s.sendLoop.queuedStateTransitions ++ [msg] } }
  else
    match applyTransition cfg s.shared msg false false with
    | none => { s.fail (.sendTransition msg) with refused := s.refused + 1 }
    | some shared =>
      { s with
        shared := shared
        sendLoop := { s.sendLoop with pc := .batched, payload := s.sendLoop.payload ++ [msg] } }

def sendSegments (s : System S T M) : System S T M :=
  { s with
    toServer := s.toServer ++ s.sendLoop.payload
    written := s.written ++ s.sendLoop.payload
    sendLoop := { s.sendLoop with pc := .top, payload := [] } }

/-- The steps of `sendLoop` without a choice. -/
def sendStep (s : System S T M) : Option (System S T M) :=
  match s.sendLoop.pc with
  | .top => some (s.sendTop cfg)
  | .resolve msg => some (s.sendResolve cfg msg)
  | .drainToken msg =>
    if s.shared.sendReady then
      some (s.takeToken.sendTo (.flush msg s.sendLoop.queuedStateTransitions.length))
    else none
  | .flush msg before => some (s.sendFlush cfg msg before)
  | .postFlush msg before => some (s.sendPostFlush cfg msg before)
  | .agency => some (s.sendAgency cfg)
  | .readSendQueue queueTransition => s.sendRead queueTransition
  | .recheck msg => some (s.sendRecheck cfg msg)
  | .write msg queueTransition => some (s.sendWrite cfg msg queueTransition)
  | .sendSegments => some s.sendSegments
  | .awaitToken | .selectPipelined | .batched => none

def sendToken (s : System S T M) : Option (System S T M) :=
  match s.sendLoop.pc with
  | .awaitToken | .selectPipelined =>
    if s.shared.sendReady then some (s.takeToken.sendTo .agency) else none
  | _ => none

def sendDequeue (s : System S T M) : Option (System S T M) :=
  match s.sendLoop.pc, s.sendQueue with
  | .selectPipelined, msg :: rest => some { s.sendTo (.resolve msg) with sendQueue := rest }
  | _, _ => none

/-! ## The read loop and the receive loop -/

/-- `waitForInboundSnapshot`, when the next message has started to arrive. -/
def snapshot (s : System S T M) : Option (System S T M) :=
  match s.readPc, s.toClient with
  | .idle, _ :: _ =>
    let (state, generation, hadUnreserved, awaitingReply) := currentInboundSnapshot s.shared
    if hadUnreserved || !awaitingReply then
      some { s with readPc := .snapshotted state generation hadUnreserved }
    else none
  | _, _ => none

def admission (s : System S T M) : Option (System S T M) :=
  match s.readPc, s.toClient with
  | .snapshotted state generation hadUnreserved, msg :: rest =>
    match reserveInboundAdmission cfg s.shared (cfg.messageType msg) state generation
      hadUnreserved with
    | .denied => some (s.fail (.admissionDenied msg))
    | .wait => none
    | .granted reserved shared =>
      some { s with shared := shared, readPc := .admitted msg reserved, toClient := rest }
  | _, _ => none

def push (s : System S T M) : Option (System S T M) :=
  match s.readPc with
  | .admitted msg reserved =>
    some { s with readPc := .idle, recvQueue := s.recvQueue ++ [(msg, reserved)] }
  | _ => none

def recvTake (s : System S T M) : Option (System S T M) :=
  match s.recvPc, s.recvQueue with
  | .idle, (msg, reserved) :: rest =>
    some { s with recvPc := .waiting msg reserved, recvQueue := rest }
  | _, _ => none

def recvStep (s : System S T M) : Option (System S T M) :=
  match s.recvPc with
  | .idle => none
  | .waiting msg reserved =>
    if peerHasAgency cfg s.shared then some { s with recvPc := .transition msg reserved } else none
  | .transition msg reserved =>
    match applyTransition cfg s.shared msg reserved false with
    | none => some { s.fail (.inboundTransition msg) with refused := s.refused + 1 }
    | some shared => some { s with shared := shared, recvPc := .handle msg }
  | .handle msg => some { s with recvPc := .idle, handled := s.handled ++ [msg] }

/-! ## The peer -/

/-- The peer takes the next request when it has answered the last one. -/
def serverReceive (s : System S T M) : Option (System S T M) :=
  match s.toServer with
  | [] => none
  | msg :: rest =>
    if agencyHolderFor (cfg.stateMap s.server) = .ours then
      (nextState cfg s.server msg).map fun server => { s with server := server, toServer := rest }
    else none

/-- The peer sends what its state allows. -/
def serverSend (s : System S T M) (msg : M) : Option (System S T M) :=
  if agencyHolderFor (cfg.stateMap s.server) = .peer then
    (nextState cfg s.server msg).map fun server =>
      { s with server := server, toClient := s.toClient ++ [msg], sent := s.sent ++ [msg] }
  else none

def start (application : List M) : System S T M where
  shared := initialShared cfg
  application := application
  server := cfg.initialState

def step (s : System S T M) (action : Action M) : Option (System S T M) :=
  if s.failure.isSome then none
  else
    match action with
    | .enqueue =>
      match s.application with
      | [] => none
      | msg :: rest => some { s with application := rest, sendQueue := s.sendQueue ++ [msg] }
    | .sendStep => s.sendStep cfg
    | .sendToken => s.sendToken
    | .sendDequeue => s.sendDequeue
    | .sendMore =>
      if s.sendLoop.pc matches .batched ∧ s.sendQueue ≠ [] then
        some (s.sendTo (.readSendQueue true))
      else none
    | .sendBreak => if s.sendLoop.pc matches .batched then some (s.sendTo .sendSegments) else none
    | .snapshot => s.snapshot
    | .admission => s.admission cfg
    | .push => s.push
    | .recvTake => s.recvTake
    | .recvStep => s.recvStep cfg
    | .serverReceive => s.serverReceive cfg
    | .serverSend msg => s.serverSend cfg msg

/-- A loop is at a transition request, for `msg` and with these arguments. -/
inductive Asks (s : System S T M) : (msg : M) → (reply request : Bool) → Prop where
  | agency {msg : M} {rest : List M} (hpc : s.sendLoop.pc = .agency)
      (hbacklog : s.sendLoop.queuedStateTransitions = msg :: rest) : Asks s msg false true
  | flush {held msg : M} {rest : List M} {before : Nat} (hpc : s.sendLoop.pc = .flush held before)
      (hbacklog : s.sendLoop.queuedStateTransitions = msg :: rest) : Asks s msg false true
  | write {msg : M} (hpc : s.sendLoop.pc = .write msg false) : Asks s msg false false
  | inbound {msg : M} {reserved : Bool} (hpc : s.recvPc = .transition msg reserved) :
      Asks s msg reserved false

/-- `flushQueuedStateTransitions` has run a transition and goes on. -/
def FlushGoesOn (s : System S T M) : Prop :=
  ∃ held before, s.sendLoop.pc = .flush held before ∧
    s.sendLoop.queuedStateTransitions.length < before

end System

end Gouroboros.Protocol

import Gouroboros.Lib.Transition
import Gouroboros.Protocol.TxSubmission.Validation

/-!
# A tx-submission session

The server and the client of `protocol/txsubmission`, joined by two reliable
FIFO channels. A call of `RequestTxIds` or `RequestTxs` is one step up to its
`SendMessage`; the handler of the reply completes it. The handler of a request
for IDs is two steps on the client, because the client sends its reply before it
records the new window.

`initialized` is whether the server's protocol instance has left its first
state: a request stays in the send queue until the client's Init has come. A
handler that returns an error ends the connection, and so do a `Stop`, a lost
connection, a failing `SendMessage` and a failing InitFunc or DoneFunc, which are
the step `connectionLost`. After MsgDone the server starts a new instance by
itself and the client when it is started again (`clientStart`).
-/

namespace Gouroboros.Protocol.TxSubmission

/-! ## The server -/

structure PendingTxIdsRequest where
  blocking : Bool
  requested : Nat
  ack : Nat
deriving DecidableEq

structure PendingTxsRequest where
  requested : List TxId
  advertisedSizes : GoMap TxId UInt32

structure Server where
  stopping : Bool := false
  ackCount : Nat := 0
  outstandingTxIds : List TxIdAndSize := []
  pendingTxIds : Option PendingTxIdsRequest := none
  pendingTxs : Option PendingTxsRequest := none

inductive ServerMessage where
  | requestTxIds (blocking : Bool) (ack req : UInt16)
  | requestTxs (txIds : List TxId)
deriving DecidableEq

/-- The sizes of a window by ID; of entries with one ID the last counts. -/
def sizesById (window : List TxIdAndSize) : GoMap TxId UInt32 :=
  window.foldl (fun sizes entry => sizes.insert entry.txId entry.size) ∅

namespace Server

def requestTxIds (s : Server) (blocking : Bool) (reqCount : Int) :
    Except Error (Server × ServerMessage) :=
  if reqCount < 0 then .error .requestExceeded
  else if (maxRequestCount : Int) < reqCount then .error .requestExceeded
  else if s.stopping then .error .shuttingDown
  else if s.pendingTxIds.isSome ∨ s.pendingTxs.isSome then .error .requestAlreadyPending
  else if maxAckCount < s.ackCount then .error .requestExceeded
  else if s.outstandingTxIds.length < s.ackCount then .error .requestExceeded
  else if maxUnackedTxIds < s.outstandingTxIds.length - s.ackCount + reqCount.toNat then
    .error .requestExceeded
  else
    .ok
      ({ s with pendingTxIds := some ⟨blocking, reqCount.toNat, s.ackCount⟩ },
        .requestTxIds blocking (.ofNat s.ackCount) (.ofNat reqCount.toNat))

def requestTxs (s : Server) (txIds : List TxId) : Except Error (Server × ServerMessage) :=
  if maxUnackedTxIds < txIds.length then .error .requestExceeded
  else if s.stopping then .error .shuttingDown
  else if s.pendingTxIds.isSome ∨ s.pendingTxs.isSome then .error .requestAlreadyPending
  else do
    requestedTxIdsAreOutstanding s.outstandingTxIds txIds
    pure ({ s with pendingTxs := some ⟨txIds, sizesById s.outstandingTxIds⟩ }, .requestTxs txIds)

def handleReplyTxIds (s : Server) (txIds : List TxIdAndSize) : Except Error Server :=
  match s.pendingTxIds with
  | none => .error .replyWithoutRequest
  | some pending => do
      let nextOutstanding ← reconcileTxIds s.outstandingTxIds pending.ack pending.requested
        pending.blocking txIds
      pure { s with
        pendingTxIds := none
        outstandingTxIds := nextOutstanding
        ackCount := txIds.length }

/-- The server after the reply, and what `RequestTxs` returns. -/
def handleReplyTxs (decode : UInt16 → List UInt8 → Option DecodedTx) (s : Server)
    (txs : List TxBody) : Except Error (Server × List TxBody) :=
  match s.pendingTxs with
  | none => .error .replyWithoutRequest
  | some pending => do
      let orderedTxs ← validateAndOrderTxBodies decode pending.requested txs pending.advertisedSizes
      pure ({ s with pendingTxs := none }, orderedTxs)

/-- `handleDone`, with the restart of the protocol. -/
def handleDone (s : Server) : Except Error Server :=
  match s.pendingTxIds with
  | none => .error .doneWithoutBlockingRequest
  | some pending => if pending.blocking then .ok {} else .error .doneWithoutBlockingRequest

def giveUp (s : Server) : Server :=
  if s.pendingTxIds.isSome ∨ s.pendingTxs.isSome then
    { s with pendingTxIds := none, pendingTxs := none, stopping := true }
  else s

end Server

/-! ## The client -/

structure Client where
  unackedTxIds : List TxIdAndSize := []
  /-- The window that the handler has sent and not recorded. -/
  recording : Option (List TxIdAndSize) := none
  /-- Init has been sent, and not Done. -/
  running : Bool := false

inductive ClientMessage where
  | init
  | replyTxIds (txIds : List TxIdAndSize)
  | replyTxs (txs : List TxBody)
  | done
deriving DecidableEq

/-- What `RequestTxIdsFunc` returns; `stop` is `ErrStopServerProcess`. -/
inductive TxIdsResult where
  | txIds (txIds : List TxIdAndSize)
  | stop
  | error
deriving DecidableEq

inductive TxsResult where
  | txs (txs : List TxBody)
  | error
deriving DecidableEq

namespace Client

def checkWindow (unacked : List TxIdAndSize) (ack req : Nat) : Except Error Unit :=
  if unacked.length < ack then .error .requestExceeded
  else if maxUnackedTxIds < unacked.length - ack + req then .error .requestExceeded
  else .ok ()

def checkRequestTxs (unacked : List TxIdAndSize) (txIds : List TxId) : Except Error Unit :=
  if maxUnackedTxIds < txIds.length then .error .requestExceeded
  else requestedTxIdsAreOutstanding unacked txIds

/-- The reply with the window that it leaves, or `none` when Done is sent. A client
without the callback has `func = none`. -/
def handleRequestTxIds (c : Client) (blocking : Bool) (ack req : UInt16)
    (func : Option TxIdsResult) : Except Error (Option (List TxIdAndSize × List TxIdAndSize)) :=
  match func with
  | none => .error .noCallback
  | some result => do
      checkWindow c.unackedTxIds ack.toNat req.toNat
      match result with
      | .error => .error .callback
      | .stop => if blocking then pure none else .error .cannotStopNonBlocking
      | .txIds txIds =>
        if req.toNat < txIds.length then .error .requestExceeded
        else do
          let nextUnacked ← reconcileTxIds c.unackedTxIds ack.toNat req.toNat blocking txIds
          pure (some (txIds, nextUnacked))

def handleRequestTxs (decode : UInt16 → List UInt8 → Option DecodedTx) (c : Client)
    (txIds : List TxId) (func : Option TxsResult) : Except Error (List TxBody) :=
  match func with
  | none => .error .noCallback
  | some result => do
      checkRequestTxs c.unackedTxIds txIds
      match result with
      | .error => .error .callback
      | .txs txs =>
        if txIds.length < txs.length then .error .requestExceeded
        else validateAndOrderTxBodies decode txIds txs (sizesById c.unackedTxIds)

end Client

/-! ## The session -/

structure Session where
  server : Server := {}
  client : Client := {}
  toClient : List ServerMessage := []
  toServer : List ClientMessage := []
  initialized : Bool := false
  failed : Bool := false

inductive Action where
  | requestTxIds (blocking : Bool) (reqCount : Int)
  | requestTxs (txIds : List TxId)
  | clientStart
  /-- The client's handler of the next request, up to its `SendMessage`. -/
  | clientTxIds (func : Option TxIdsResult)
  | clientTxs (func : Option TxsResult)
  | clientRecord
  | serverReceive
  | connectionLost
deriving DecidableEq

namespace Session

def fail (s : Session) : Session := { s with server := s.server.giveUp, failed := true }

/-- A call that is refused changes nothing. -/
def call (s : Session) (result : Except Error (Server × ServerMessage)) : Session :=
  match result with
  | .error _ => s
  | .ok (server, message) => { s with server := server, toClient := s.toClient ++ [message] }

/-- The client can take the next request. -/
def clientReady (s : Session) : Bool :=
  s.client.running && s.client.recording.isNone && s.initialized

def clientTxIds (s : Session) (func : Option TxIdsResult) : Option Session :=
  match s.toClient with
  | .requestTxIds blocking ack req :: rest =>
    match s.client.handleRequestTxIds blocking ack req func with
    | .error _ => some s.fail
    | .ok none =>
      some { s with
        client := { s.client with running := false }
        toClient := rest
        toServer := s.toServer ++ [.done] }
    | .ok (some (txIds, nextUnacked)) =>
      some { s with
        client := { s.client with recording := some nextUnacked }
        toClient := rest
        toServer := s.toServer ++ [.replyTxIds txIds] }
  | _ => none

def clientTxs (decode : UInt16 → List UInt8 → Option DecodedTx) (s : Session)
    (func : Option TxsResult) : Option Session :=
  match s.toClient with
  | .requestTxs txIds :: rest =>
    match s.client.handleRequestTxs decode txIds func with
    | .error _ => some s.fail
    | .ok txs => some { s with toClient := rest, toServer := s.toServer ++ [.replyTxs txs] }
  | _ => none

def serverReceive (decode : UInt16 → List UInt8 → Option DecodedTx) (s : Session) :
    Option Session :=
  match s.toServer with
  | [] => none
  | .init :: rest =>
    some (if s.initialized then s.fail else { s with initialized := true, toServer := rest })
  | .replyTxIds txIds :: rest =>
    match s.server.handleReplyTxIds txIds with
    | .error _ => some s.fail
    | .ok server => some { s with server := server, toServer := rest }
  | .replyTxs txs :: rest =>
    match s.server.handleReplyTxs decode txs with
    | .error _ => some s.fail
    | .ok (server, _) => some { s with server := server, toServer := rest }
  | .done :: rest =>
    match s.server.handleDone with
    | .error _ => some s.fail
    | .ok server => some { s with server := server, initialized := false, toServer := rest }

def step (decode : UInt16 → List UInt8 → Option DecodedTx) (s : Session) (action : Action) :
    Option Session :=
  if s.failed then none
  else
    match action with
    | .requestTxIds blocking reqCount => some (s.call (s.server.requestTxIds blocking reqCount))
    | .requestTxs txIds => some (s.call (s.server.requestTxs txIds))
    | .clientStart =>
      if s.client.running then none
      else some { s with client := { running := true }, toServer := s.toServer ++ [.init] }
    | .clientTxIds func => if s.clientReady then s.clientTxIds func else none
    | .clientTxs func => if s.clientReady then s.clientTxs decode func else none
    | .clientRecord =>
      s.client.recording.map fun nextUnacked =>
        { s with client := { s.client with unackedTxIds := nextUnacked, recording := none } }
    | .serverReceive => s.serverReceive decode
    | .connectionLost => some s.fail

end Session

end Gouroboros.Protocol.TxSubmission

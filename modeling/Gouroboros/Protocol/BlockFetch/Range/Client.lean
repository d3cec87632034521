import Gouroboros.Lib.Transition
import Gouroboros.Protocol.BlockFetch.Range.Request

/-!
# The range queue of the block-fetch client

The client (`protocol/blockfetch/client.go`) as a transition system. An action is
a critical section of `queueMutex`, a call of `resolve` or of a callback, or the hand-over of a
message to the send queue. Between two actions of a thread every other thread may act.

* The callers `GetBlockRange`, `GetBlock` and `RequestRange` share `sendRequestRange`. The holder of
  `rangeSendToken` is in `sending`, and a caller that waits for the token or for capacity has no
  effect on the state.
* The message handlers run one after the other in the receive loop (`handler`); `Start` waits for
  the loop of the last protocol instance before it makes a new one. A handler that returns an error
  ends the loop.
* The deadline watchers and the two shutdown paths take requests off the queue and resolve them
  afterwards (`retiring`), in any order.

A request is a number, the position in which it was made. The busy lock, the wake-up channel
`bytesFreed`, and the channels from which a synchronous caller reads are not part of the state.
-/

namespace Gouroboros.Protocol.BlockFetch.Range

/-! ## State -/

/-- The limits the muxer holds for a protocol instance. -/
structure Ingress where
  backpressure : Bool
  allowance : Nat
deriving DecidableEq

/-- Where the message handler is. -/
inductive Handler where
  | idle
  /-- The last handler returned an error. -/
  | stopped (err : ClientError)
  /-- `handleBlock` before its second critical section. -/
  | claimed (r : Nat) (msg : MsgBlock)
  /-- `handleBlock` before the delivery. -/
  | recorded (r : Nat) (block : Delivered)
  /-- `handleBatchDone` between its two critical sections. -/
  | fencing (r : Nat)
  /-- `handleBatchDone` before the call of `BatchDoneFunc`. -/
  | reporting (r : Nat)
  /-- Before the critical section of `failRequest`. -/
  | failing (r : Nat) (err : ClientError)
  /-- Before `resolve`; `ret` is what the handler returns besides the error of the callback. -/
  | resolving (r : Nat) (outcome ret : Option ClientError)
deriving DecidableEq

/-- A call of `resolve` that a deadline watcher or a shutdown path still has to make. The watcher
takes the request's `deliveryMu` for it. -/
structure Retirement where
  request : Nat
  err : ClientError
  behindDelivery : Bool
deriving DecidableEq

structure Client where
  request : Nat → RangeRequest
  /-- How many requests there are. -/
  count : Nat
  queue : List Nat
  nextRequestId : UInt64
  inFlightBytes : UInt64
  /-- By protocol instance. -/
  ingress : Nat → Ingress
  /-- The request of the holder of `rangeSendToken`, from the append to the send. -/
  sending : Option Nat
  /-- History: the requests whose message was handed to the send queue. -/
  sent : List Nat
  handler : Handler
  /-- The request whose `deliveryMu` the handler holds. -/
  deliveryMu : Option Nat
  retiring : List Retirement

instance : Inhabited RangeTerms :=
  ⟨⟨0, ⟨0, none⟩, ⟨0, none⟩, 0, .deliveryCallback, false, 0, 0, false, none, false⟩⟩

def Client.start : Client where
  request := fun _ => { toRangeTerms := default }
  count := 0
  queue := []
  nextRequestId := 0
  inFlightBytes := 0
  ingress := fun _ => ⟨false, 0⟩
  sending := none
  sent := []
  handler := .idle
  deliveryMu := none
  retiring := []

def maxUint64 : UInt64 := 0xffffffffffffffff

def saturatingAdd (a b : UInt64) : UInt64 := if a > maxUint64 - b then maxUint64 else a + b

def streamingMaxPendingMessageBytes : UInt64 := 2500000

/-- The client reports the completion of the request through `BatchDoneFunc`. -/
def RangeRequest.reportsBatchDone (cfg : Config) (req : RangeRequest) : Bool :=
  !req.pipelined && req.delivery == .deliveryCallback && cfg.batchDoneFunc

namespace Client

variable (c : Client)

def modify (r : Nat) (f : RangeRequest → RangeRequest) : Client :=
  { c with request := Function.update c.request r (f (c.request r)) }

/-! ## The queue -/

/-- What the queued requests of an instance may still draw, and whether one has no estimate. -/
def outstanding (proto : Nat) : UInt64 × Bool :=
  (c.queue.filter fun r => (c.request r).protocol = proto).foldl
    (fun acc r =>
      (saturatingAdd acc.1 (c.request r).ingressBytes, acc.2 || !(c.request r).estimated))
    (0, false)

def updateIngressAllowanceLocked (proto : Nat) : Client :=
  let (outstanding, unestimated) := c.outstanding proto
  let allowance :=
    if outstanding > 0 then
      min (saturatingAdd outstanding streamingMaxPendingMessageBytes).toNat (2 ^ 63 - 1)
    else 0
  { c with ingress := Function.update c.ingress proto ⟨unestimated, allowance⟩ }

def releaseBytesLocked (reserved : UInt64) : Client :=
  { c with inFlightBytes := if reserved > c.inFlightBytes then 0 else c.inFlightBytes - reserved }

def removeLocked (r : Nat) : Client :=
  if r ∈ c.queue then
    ({ c with queue := c.queue.erase r }.releaseBytesLocked
      (c.request r).reservedBytes).updateIngressAllowanceLocked (c.request r).protocol
  else c

/-- The drained requests are those of `c.queue`. -/
def drainLocked : Client :=
  if c.queue = [] then c
  else
    c.queue.foldl (fun c r => c.updateIngressAllowanceLocked (c.request r).protocol)
      { c with queue := [], inFlightBytes := 0 }

def hasInFlightCapacityLocked (cfg : Config) (expectedBytes : UInt64) : Bool :=
  c.queue.isEmpty ||
    (c.inFlightBytes ≤ maxInFlightBytes cfg &&
      expectedBytes ≤ maxInFlightBytes cfg - c.inFlightBytes)

def headForResponse (msgName : String) (wantStarted : Bool) : Except ClientError Nat :=
  match c.queue with
  | [] => .error (.noRequest msgName)
  | r :: _ =>
    if (c.request r).started ≠ wantStarted then .error (.wrongOrder msgName (c.request r).id)
    else .ok r

/-! ## Sending -/

/-- The append under the token. Not enabled while another caller has the token, or a pipelined
request has no capacity. -/
def sendRequestRange (cfg : Config) (start endPoint : Point) (delivery : RequestDelivery)
    (pipelined : Bool) (expectedBytes : UInt64) (estimated : Bool) (protocol deadline : Nat) :
    Option Client :=
  if c.sending.isSome then none
  else if pipelined && !c.hasInFlightCapacityLocked cfg expectedBytes then none
  else
    let terms : RangeTerms :=
      { id := c.nextRequestId + 1, start, endPoint, protocol, delivery, pipelined
        reservedBytes := expectedBytes
        ingressBytes := if estimated then saturatingAdd expectedBytes (expectedBytes / 10) else 0
        estimated, deadline := some deadline, admittedEmpty := c.queue.isEmpty }
    some ({ c with
      request := Function.update c.request c.count { toRangeTerms := terms }
      count := c.count + 1
      nextRequestId := c.nextRequestId + 1
      queue := c.queue ++ [c.count]
      inFlightBytes := saturatingAdd c.inFlightBytes expectedBytes
      sending := some c.count }.updateIngressAllowanceLocked protocol)

def requestRange (cfg : Config) (start endPoint : Point) (expectedBytes : UInt64)
    (protocol deadline : Nat) : Option Client :=
  if !cfg.requestPipelining || !cfg.rangeDoneFunc then none
  else
    c.sendRequestRange cfg start endPoint .deliveryCallback true
      (if expectedBytes = 0 then defaultRequestExpectedBytes else expectedBytes)
      (expectedBytes != 0) protocol deadline

def getBlockRange (cfg : Config) (start endPoint : Point) (protocol deadline : Nat) :
    Option Client :=
  c.sendRequestRange cfg start endPoint .deliveryCallback false 0 false protocol deadline

def getBlock (cfg : Config) (point : Point) (protocol deadline : Nat) : Option Client :=
  c.sendRequestRange cfg point point .deliveryChannel false 0 false protocol deadline

/-- `SendMessageContext` put the message into the send queue. -/
def messageSent : Option Client :=
  match c.sending with
  | none => none
  | some r => some { c with sent := c.sent ++ [r], sending := none }

/-- `SendMessageContext` returned an error. -/
def sendFailed : Option Client :=
  match c.sending with
  | none => none
  | some r => some { c.removeLocked r with sending := none }

/-! ## Terminal outcomes -/

/-- The completion callback that the effective call of `resolve` makes, if any. -/
def resolveReport (cfg : Config) (req : RangeRequest) (outcome : Option ClientError) :
    Option Report :=
  if req.pipelined && cfg.rangeDoneFunc then some (.rangeDone outcome)
  else if !req.pipelined && outcome.isSome && req.started && req.delivery == .deliveryCallback &&
      cfg.batchDoneFunc && !req.batchDoneReported then
    some (.batchDone outcome)
  else none

/-- With the error that the callback returned, if it was called; `callbackErr` is its answer. -/
def resolve (cfg : Config) (r : Nat) (outcome : Option ClientError)
    (callbackErr : Option String) : Client × Option ClientError :=
  if (c.request r).resolved.isSome then (c, none)
  else
    match resolveReport cfg (c.request r) outcome with
    | none => (c.modify r fun req => { req with resolved := some outcome }, none)
    | some report =>
      (c.modify r fun req =>
        { req with resolved := some outcome, reports := req.reports ++ [report] },
        callbackErr.map .callback)

def ofProtocol (proto : Nat) : List Nat := c.queue.filter fun r => (c.request r).protocol = proto

def watchRangeDeadline (cfg : Config) (r : Nat) : Client :=
  let pending := c.ofProtocol (c.request r).protocol
  if r ∈ c.queue then
    let removed := pending.foldl removeLocked c
    let err : ClientError := .rangeTimeoutAfter (c.request r).id cfg.rangeTimeout
    { removed with retiring := c.retiring ++ pending.map fun q => ⟨q, err, true⟩ }
  else c

def failOutstanding (err : ClientError) : Client :=
  { c.drainLocked with retiring := c.retiring ++ c.queue.map fun q => ⟨q, err, false⟩ }

/-- The critical section of `failOutstandingForProtocol`. -/
def dropProtocol (proto : Nat) : Client :=
  let pending := c.ofProtocol proto
  let released := pending.foldl (fun c q => c.releaseBytesLocked (c.request q).reservedBytes) c
  let remaining := c.queue.filter fun q => !decide ((c.request q).protocol = proto)
  { released with queue := remaining }.updateIngressAllowanceLocked proto

def failOutstandingForProtocol (proto : Nat) (err : ClientError) : Client :=
  { c.dropProtocol proto with
    retiring := c.retiring ++ (c.ofProtocol proto).map fun q => ⟨q, err, false⟩ }

/-- One of the outstanding calls of `resolve`; the error of the callback is only logged. -/
def retire (cfg : Config) (i : Nat) (callbackErr : Option String) : Option Client :=
  match c.retiring[i]? with
  | none => none
  | some t =>
    if t.behindDelivery && c.deliveryMu == some t.request then none
    else
      some { (c.resolve cfg t.request (some t.err) callbackErr).1 with
        retiring := c.retiring.eraseIdx i }

/-! ## The message handlers -/

def finish (ret : Option ClientError) : Client :=
  { c with handler := ret.elim .idle .stopped, deliveryMu := none }

/-- `errors.Join`, of errors that may be nil. -/
def joinErrors : Option ClientError → Option ClientError → Option ClientError
  | some first, some second => some (.join first second)
  | first, none => first
  | none, second => second

def handleStartBatch : Client :=
  match c.headForResponse "StartBatch" false with
  | .error err => c.finish (some err)
  | .ok r => c.modify r fun req => { req with started := true }

def handleNoBlocks (now : Nat) : Client :=
  match c.headForResponse "NoBlocks" false with
  | .error err => c.finish (some err)
  | .ok r =>
    match (c.request r).deadlineError now with
    | some err => { c with handler := .failing r err }
    | none => { c.removeLocked r with handler := .resolving r (some .noBlocks) none }

/-- `handleBlock` up to the end of its first critical section. -/
def handleBlock (cfg : Config) (msg : MsgBlock) (now : Nat) : Client :=
  if cfg.pipeline = some false then c.finish (some .pipelineValidationRequired)
  else
    match c.headForResponse "Block" true with
    | .error err => c.finish (some err)
    | .ok r =>
      match (c.request r).chargeBlock now msg.encodedBytes (maxBlocksPerRange cfg)
          (maxRangeBytes cfg) with
      | .error err => { c with handler := .failing r err }
      | .ok req =>
        if req.delivery = .deliveryChannel ∧ req.blockDelivered = true then
          (c.modify r fun _ => req).finish (some (.secondBlock req.id))
        else
          { c.modify r fun _ =>
              { req with
                blockDelivered := req.blockDelivered || req.delivery == .deliveryChannel } with
            handler := .claimed r msg, deliveryMu := some r }

/-- `handleBlock` up to the end of its second critical section. -/
def recordClaimed (cfg : Config) (codec : Codec) (r : Nat) (msg : MsgBlock) : Client :=
  match cfg.headerInfo codec (c.request r).delivery msg with
  | .error err => { c with handler := .failing r err }
  | .ok info =>
    match (c.request r).recordBlock info.point info.prevHash with
    | .error err => { c with handler := .failing r err }
    | .ok req =>
      { c.modify r fun _ => req with handler := .recorded r ⟨info, msg.encodedBytes⟩ }

/-- What the environment answers when a block is delivered: whether the protocol has been stopped,
and the error of `Submit` or of the callback. -/
structure DeliveryAnswer where
  stopped : Bool
  err : Option String
deriving DecidableEq

def deliverTo (r : Nat) (block : Delivered) : Client :=
  c.modify r fun req => { req with delivered := req.delivered ++ [block] }

/-- `handleBlock` after its second critical section. -/
def deliverRecorded (cfg : Config) (r : Nat) (block : Delivered) (answer : DeliveryAnswer) :
    Client :=
  if cfg.pipelineDelivery (c.request r).delivery then
    match answer.err with
    | some err => { c with handler := .failing r (.pipeline err) }
    | none => (c.deliverTo r block).finish none
  else if answer.stopped then { c with handler := .failing r .shuttingDown }
  else
    match (c.request r).delivery with
    | .deliveryChannel => (c.deliverTo r block).finish none
    | .deliveryCallback =>
      if cfg.blockRawFunc || cfg.blockFunc then
        match answer.err with
        | some err => { c.deliverTo r block with handler := .failing r (.callback err) }
        | none => (c.deliverTo r block).finish none
      else { c with handler := .failing r .noCallback }

/-- `handleBatchDone` up to the end of its first critical section. -/
def handleBatchDone (now : Nat) : Client :=
  match c.headForResponse "BatchDone" true with
  | .error err => c.finish (some err)
  | .ok r =>
    let req := c.request r
    match req.deadlineError now with
    | some err => { c with handler := .failing r err }
    | none =>
      if !req.hasLastPoint || !pointsEqual req.lastPoint req.endPoint then
        { c with handler := .failing r (.beforeEnd req.endPoint) }
      else { c with handler := .fencing r }

/-- The second critical section of `handleBatchDone`. It does not look whether the request is still
queued. -/
def completeBatch (cfg : Config) (r : Nat) : Client :=
  if (c.request r).reportsBatchDone cfg then
    { (c.modify r fun req => { req with batchDoneReported := true }).removeLocked r with
      handler := .reporting r }
  else { c.removeLocked r with handler := .resolving r none none }

/-- The rest of `handleBatchDone` after its first critical section; `fenceErr` is the answer of the
pipeline's fence. -/
def fenceBatch (cfg : Config) (r : Nat) (fenceErr : Option String) : Client :=
  match cfg.pipelineDelivery (c.request r).delivery, fenceErr with
  | true, some err => { c with handler := .failing r (.pipeline err) }
  | _, _ => c.completeBatch cfg r

/-- The call of `BatchDoneFunc` in `handleBatchDone`. -/
def reportBatch (r : Nat) (callbackErr : Option String) : Client :=
  { c.modify r fun req => { req with reports := req.reports ++ [.batchDone none] } with
    handler := .resolving r (callbackErr.map .callback) (callbackErr.map .callback) }

def failRequest (r : Nat) (err : ClientError) : Client :=
  if c.queue.head? = some r then
    { c.removeLocked r with handler := .resolving r (some err) (some err) }
  else c.finish (some err)

/-- The handler's own call of `resolve`, and its return. -/
def resolveAndReturn (cfg : Config) (r : Nat) (outcome ret : Option ClientError)
    (callbackErr : Option String) : Client :=
  let (resolved, err) := c.resolve cfg r outcome callbackErr
  resolved.finish (joinErrors ret err)

/-! ## What the operations leave alone -/

@[simp] theorem modify_request_self (r : Nat) (f : RangeRequest → RangeRequest) :
    (c.modify r f).request r = f (c.request r) := Function.update_self ..

theorem modify_request_of_ne {r x : Nat} (h : x ≠ r) (f : RangeRequest → RangeRequest) :
    (c.modify r f).request x = c.request x := Function.update_of_ne h ..

theorem request_reportBatch_self (r : Nat) (callbackErr : Option String) :
    (c.reportBatch r callbackErr).request r =
      { c.request r with reports := (c.request r).reports ++ [.batchDone none] } :=
  Function.update_self ..

theorem request_reportBatch_of_ne {r x : Nat} (h : x ≠ r) (callbackErr : Option String) :
    (c.reportBatch r callbackErr).request x = c.request x := Function.update_of_ne h ..

/-- The request after a call of `resolve`: only the first one has an effect. -/
def afterResolve (cfg : Config) (outcome : Option ClientError) (req : RangeRequest) :
    RangeRequest :=
  if req.resolved.isSome then req
  else
    { req with
      resolved := some outcome
      reports := req.reports ++ (resolveReport cfg req outcome).toList }

theorem resolve_eq_modify (cfg : Config) (r : Nat) (outcome : Option ClientError)
    (callbackErr : Option String) :
    (c.resolve cfg r outcome callbackErr).1 = c.modify r (afterResolve cfg outcome) := by
  unfold resolve modify afterResolve
  split
  · rw [Function.update_eq_self]
  · cases resolveReport cfg (c.request r) outcome with
    | none => simp only [Option.toList_none, List.append_nil]
    | some report => rfl

theorem resolveAndReturn_eq (cfg : Config) (r : Nat) (outcome ret : Option ClientError)
    (callbackErr : Option String) :
    ∃ last, c.resolveAndReturn cfg r outcome ret callbackErr =
      (c.modify r (afterResolve cfg outcome)).finish last := by
  refine ⟨joinErrors ret (c.resolve cfg r outcome callbackErr).2, ?_⟩
  rw [← c.resolve_eq_modify cfg r outcome callbackErr]
  rfl

theorem retire_eq {cfg : Config} {i : Nat} {callbackErr : Option String} {c' : Client}
    (h : c.retire cfg i callbackErr = some c') :
    ∃ t, c.retiring[i]? = some t ∧
      c' = { c.modify t.request (afterResolve cfg (some t.err)) with
        retiring := c.retiring.eraseIdx i } := by
  unfold retire at h
  split at h
  · cases h
  split at h
  · cases h
  rename_i t hi _
  cases h
  exact ⟨t, hi, by rw [c.resolve_eq_modify]⟩

/-- `c'` is `c` with fewer requests in the queue, and the accounting that goes with them. -/
structure Retains (c c' : Client) : Prop where
  queue : c'.queue.Sublist c.queue
  request : c'.request = c.request
  count : c'.count = c.count
  nextRequestId : c'.nextRequestId = c.nextRequestId
  sending : c'.sending = c.sending
  sent : c'.sent = c.sent
  handler : c'.handler = c.handler
  deliveryMu : c'.deliveryMu = c.deliveryMu
  retiring : c'.retiring = c.retiring

variable {c}

theorem Retains.refl (c : Client) : Retains c c :=
  ⟨List.Sublist.refl _, rfl, rfl, rfl, rfl, rfl, rfl, rfl, rfl⟩

theorem Retains.trans {c₁ c₂ : Client} (h₁ : Retains c c₁) (h₂ : Retains c₁ c₂) : Retains c c₂ where
  queue := h₂.queue.trans h₁.queue
  request := h₂.request.trans h₁.request
  count := h₂.count.trans h₁.count
  nextRequestId := h₂.nextRequestId.trans h₁.nextRequestId
  sending := h₂.sending.trans h₁.sending
  sent := h₂.sent.trans h₁.sent
  handler := h₂.handler.trans h₁.handler
  deliveryMu := h₂.deliveryMu.trans h₁.deliveryMu
  retiring := h₂.retiring.trans h₁.retiring

theorem Retains.foldl {α : Type} {f : Client → α → Client} (h : ∀ c a, Retains c (f c a))
    (entries : List α) (c : Client) : Retains c (entries.foldl f c) := by
  exact List.foldlRecOn entries f (.refl c) fun d hd a _ => hd.trans (h d a)

theorem retains_updateIngressAllowanceLocked (c : Client) (proto : Nat) :
    Retains c (c.updateIngressAllowanceLocked proto) :=
  ⟨List.Sublist.refl _, rfl, rfl, rfl, rfl, rfl, rfl, rfl, rfl⟩

theorem retains_removeLocked (c : Client) (r : Nat) : Retains c (c.removeLocked r) := by
  unfold removeLocked
  split
  · exact ⟨List.erase_sublist, rfl, rfl, rfl, rfl, rfl, rfl, rfl, rfl⟩
  · exact .refl c

theorem retains_drainLocked (c : Client) : Retains c c.drainLocked := by
  unfold drainLocked
  split
  · exact .refl c
  · have hempty : Retains c { c with queue := [], inFlightBytes := 0 } :=
      ⟨List.nil_sublist _, rfl, rfl, rfl, rfl, rfl, rfl, rfl, rfl⟩
    exact hempty.trans (.foldl (fun c r => retains_updateIngressAllowanceLocked c _) _ _)

theorem retains_releaseBytesLocked (c : Client) (reserved : UInt64) :
    Retains c (c.releaseBytesLocked reserved) :=
  ⟨List.Sublist.refl _, rfl, rfl, rfl, rfl, rfl, rfl, rfl, rfl⟩

theorem retains_dropProtocol (c : Client) (proto : Nat) : Retains c (c.dropProtocol proto) := by
  have h := Retains.foldl
    (fun c q => c.retains_releaseBytesLocked (c.request q).reservedBytes) (c.ofProtocol proto) c
  exact { h with queue := List.filter_sublist }

@[simp] theorem queue_removeLocked (c : Client) (r : Nat) :
    (c.removeLocked r).queue = c.queue.erase r := by
  unfold removeLocked
  split
  · rfl
  · rename_i hout
    rw [List.erase_of_not_mem hout]

@[simp] theorem queue_drainLocked (c : Client) : c.drainLocked.queue = [] := by
  unfold drainLocked
  split
  · assumption
  · have h := Retains.foldl
      (fun c r => retains_updateIngressAllowanceLocked c (c.request r).protocol) c.queue
      { c with queue := [], inFlightBytes := 0 }
    exact List.sublist_nil.mp h.queue

theorem mem_queue_foldl_removeLocked {entries : List Nat} {c : Client} {x : Nat}
    (hnodup : c.queue.Nodup) :
    x ∈ (entries.foldl removeLocked c).queue ↔ x ∈ c.queue ∧ x ∉ entries := by
  induction entries generalizing c with
  | nil => simp
  | cons a entries ih =>
    have hnodup' : (c.removeLocked a).queue.Nodup := by
      rw [queue_removeLocked]
      exact hnodup.erase a
    rw [List.foldl_cons, ih hnodup', queue_removeLocked, hnodup.mem_erase_iff, List.mem_cons]
    grind

end Client

/-! ## The system -/

inductive Action where
  | requestRange (start endPoint : Point) (expectedBytes : UInt64) (protocol deadline : Nat)
  | getBlockRange (start endPoint : Point) (protocol deadline : Nat)
  | getBlock (point : Point) (protocol deadline : Nat)
  | messageSent
  | sendFailed
  | startBatch
  | noBlocks (now : Nat)
  | block (msg : MsgBlock) (now : Nat)
  | batchDone (now : Nat)
  | record
  | deliver (answer : Client.DeliveryAnswer)
  | fence (fenceErr : Option String)
  | report (callbackErr : Option String)
  | fail
  | resolve (callbackErr : Option String)
  | deadline (r now : Nat)
  | failOutstanding
  | failOutstandingForProtocol (proto : Nat)
  | retire (i : Nat) (callbackErr : Option String)
  | restart
deriving DecidableEq

variable (cfg : Config) (codec : Codec)

/-- The step that the handler takes next, when it is at work. -/
def handlerStep (c : Client) : Action → Option Client
  | .record =>
    match c.handler with
    | .claimed r msg => some (c.recordClaimed cfg codec r msg)
    | _ => none
  | .deliver answer =>
    match c.handler with
    | .recorded r block => some (c.deliverRecorded cfg r block answer)
    | _ => none
  | .fence fenceErr =>
    match c.handler with
    | .fencing r => some (c.fenceBatch cfg r fenceErr)
    | _ => none
  | .report callbackErr =>
    match c.handler with
    | .reporting r => some (c.reportBatch r callbackErr)
    | _ => none
  | .fail =>
    match c.handler with
    | .failing r err => some (c.failRequest r err)
    | _ => none
  | .resolve callbackErr =>
    match c.handler with
    | .resolving r outcome ret => some (c.resolveAndReturn cfg r outcome ret callbackErr)
    | _ => none
  | .restart =>
    match c.handler with
    | .stopped _ => some (c.finish none)
    | _ => none
  | _ => none

def step (c : Client) : Action → Option Client
  | .requestRange start endPoint expectedBytes protocol deadline =>
    c.requestRange cfg start endPoint expectedBytes protocol deadline
  | .getBlockRange start endPoint protocol deadline =>
    c.getBlockRange cfg start endPoint protocol deadline
  | .getBlock point protocol deadline => c.getBlock cfg point protocol deadline
  | .messageSent => c.messageSent
  | .sendFailed => c.sendFailed
  | .startBatch => if c.handler = .idle then some c.handleStartBatch else none
  | .noBlocks now => if c.handler = .idle then some (c.handleNoBlocks now) else none
  | .block msg now => if c.handler = .idle then some (c.handleBlock cfg msg now) else none
  | .batchDone now => if c.handler = .idle then some (c.handleBatchDone now) else none
  -- A watcher is started when the message has been sent.
  | .deadline r now =>
    if r ∈ c.sent ∧ ((c.request r).deadlineError now).isSome then
      some (c.watchRangeDeadline cfg r)
    else none
  | .failOutstanding => some (c.failOutstanding .shuttingDown)
  | .failOutstandingForProtocol proto => some (c.failOutstandingForProtocol proto .shuttingDown)
  | .retire i callbackErr => c.retire cfg i callbackErr
  | action => handlerStep cfg codec c action

/-! ## A client to run -/

/-- Ten bytes in flight, typed callbacks, no pipeline. -/
def sampleConfig : Config where
  maxInFlightBytes := 10
  maxBlocksPerRange := 0
  maxRangeBytes := 0
  rangeTimeout := "1m0s"
  requestPipelining := true
  pipeline := none
  blockRawFunc := false
  blockFunc := true
  batchDoneFunc := true
  rangeDoneFunc := true

/-- A block is its slot, its hash and the hash before it, one byte each. -/
def sampleCodec : Codec where
  decodeWrapped := fun bytes => .ok ⟨0, bytes⟩
  newBlockFromCbor := fun _ rawBlock =>
    match rawBlock with
    | [slot, hash, prevHash] => .ok (some ⟨.ok slot.toUInt64, [hash], [prevHash]⟩)
    | _ => .error "not a block"
  blockLayoutRepresentable := fun _ _ => true
  rawBlockHeaderInfoFromCbor := fun _ => .error "not a header"

def samplePoint (slot : UInt64) (hash : UInt8) : Point := ⟨slot, some [hash]⟩

end Gouroboros.Protocol.BlockFetch.Range

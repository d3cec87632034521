import Gouroboros.Ledger.Common.Types

/-!
# A range request of the block-fetch client

The record the client keeps for a `MsgRequestRange` until it is resolved, and the checks that a
block of the answer passes before it is delivered (`protocol/blockfetch/client.go`).

Time is a number, given to each check by the clock. Decoding a block is code of the ledger; it is
the parameter `Codec` here, and no result assumes anything about it. What goes to the consumer and
comes back through its callbacks is kept as history in the record.
-/

namespace Gouroboros.Protocol.BlockFetch.Range

open Ledger (ByteString)

/-! ## Points and errors -/

/-- A chain point; `none` is a nil hash. -/
structure Point where
  slot : UInt64
  hash : Option ByteString
deriving DecidableEq

/-- The hash as `bytes.Equal` and `%x` read it: a nil slice and an empty one are the same. -/
def Point.bytes (p : Point) : ByteString := p.hash.getD []

def pointsEqual (a b : Point) : Bool := a.slot == b.slot && a.bytes == b.bytes

/-- The slot bounds only. Byron puts a boundary block and the first block of the epoch in one slot,
so a block in an endpoint's slot need not be that endpoint. -/
def pointInRange (block start endPoint : Point) : Bool :=
  !(start.hash.isSome && block.slot < start.slot) &&
    !(endPoint.hash.isSome && block.slot > endPoint.slot)

/-- The errors of the client. A `String` is the text of an error that other code returned. -/
inductive ClientError where
  | noRequest (msgName : String)
  | wrongOrder (msgName : String) (id : UInt64)
  | pipelineValidationRequired
  | rangeBlockLimit (id limit : UInt64)
  | rangeByteLimit (id limit : UInt64)
  | rangeTimeout (id : UInt64)
  | rangeTimeoutAfter (id : UInt64) (duration : String)
  | secondBlock (id : UInt64)
  | wrapperDecode (err : String)
  | blockDecode (err : String)
  | noBlock
  | convertSlot (err : String)
  | rawHeader (decodeErr : Option String) (err : String)
  | outsideRange (block : Point)
  | beyondEnd (block : Point)
  | notStart (block : Point)
  | duplicate (block : Point)
  | beforePrevious (slot previousSlot : UInt64)
  | notFollowing (block previous : Point)
  | pipeline (err : String)
  | shuttingDown
  | callback (err : String)
  | noCallback
  | beforeEnd (endPoint : Point)
  | noBlocks
  | join (first second : ClientError)
deriving DecidableEq

/-! ## The record -/

inductive RequestDelivery where
  /-- Through the block callbacks or the pipeline (`GetBlockRange`, `RequestRange`). -/
  | deliveryCallback
  /-- One decoded block through the request's channel (`GetBlock`). -/
  | deliveryChannel
deriving DecidableEq

/-- What the client reads of a block to place it in the range. -/
structure HeaderInfo where
  point : Point
  prevHash : ByteString
deriving DecidableEq

/-- A block handed to the consumer, with the size of the message that carried it. -/
structure Delivered where
  info : HeaderInfo
  encodedBytes : UInt64
deriving DecidableEq

/-- A call of a completion callback. `RangeDoneFunc` is given the outcome; `BatchDoneFunc` is not,
and `outcome` is the one it was called for. -/
inductive Report where
  | rangeDone (outcome : Option ClientError)
  | batchDone (outcome : Option ClientError)
deriving DecidableEq

/-- The fields of a request that never change once it is queued. -/
structure RangeTerms where
  id : UInt64
  start : Point
  endPoint : Point
  protocol : Nat
  delivery : RequestDelivery
  pipelined : Bool
  reservedBytes : UInt64
  ingressBytes : UInt64
  estimated : Bool
  deadline : Option Nat
  /-- History: the queue was empty when the request was appended. -/
  admittedEmpty : Bool
deriving DecidableEq

structure RangeRequest extends RangeTerms where
  lastPoint : Point := ⟨0, none⟩
  hasLastPoint : Bool := false
  started : Bool := false
  blockDelivered : Bool := false
  blocksReceived : UInt64 := 0
  bytesReceived : UInt64 := 0
  batchDoneReported : Bool := false
  /-- `resolveOnce` with the outcome it was passed by its one effective call. -/
  resolved : Option (Option ClientError) := none
  /-- History: the blocks handed to the consumer. -/
  delivered : List Delivered := []
  /-- History: the calls of the completion callbacks. -/
  reports : List Report := []
deriving DecidableEq

namespace RangeRequest

variable (req : RangeRequest)

def deadlineError (now : Nat) : Option ClientError :=
  match req.deadline with
  | none => none
  | some deadline => if now < deadline then none else some (.rangeTimeout req.id)

def chargeBlock (now : Nat) (encodedBytes maxBlocks maxBytes : UInt64) :
    Except ClientError RangeRequest :=
  match req.deadlineError now with
  | some err => .error err
  | none =>
    if req.blocksReceived ≥ maxBlocks then .error (.rangeBlockLimit req.id maxBlocks)
    else if req.bytesReceived > maxBytes ∨ encodedBytes > maxBytes - req.bytesReceived then
      .error (.rangeByteLimit req.id maxBytes)
    else
      .ok { req with
        blocksReceived := req.blocksReceived + 1
        bytesReceived := req.bytesReceived + encodedBytes }

def recordBlock (blockPoint : Point) (prevHash : ByteString) : Except ClientError RangeRequest :=
  if !pointInRange blockPoint req.start req.endPoint then .error (.outsideRange blockPoint)
  else if req.hasLastPoint && req.endPoint.hash.isSome &&
      pointsEqual req.lastPoint req.endPoint then
    .error (.beyondEnd blockPoint)
  else if !req.hasLastPoint then
    if req.start.hash.isSome && !pointsEqual blockPoint req.start then .error (.notStart blockPoint)
    else .ok { req with lastPoint := blockPoint, hasLastPoint := true }
  else if pointsEqual blockPoint req.lastPoint then .error (.duplicate blockPoint)
  else if blockPoint.slot < req.lastPoint.slot then
    .error (.beforePrevious blockPoint.slot req.lastPoint.slot)
  else if prevHash ≠ req.lastPoint.bytes then .error (.notFollowing blockPoint req.lastPoint)
  else .ok { req with lastPoint := blockPoint, hasLastPoint := true }

end RangeRequest

/-! ## Reading a block -/

structure MsgBlock where
  /-- `len(msg.Cbor())`. -/
  encodedBytes : UInt64
  wrappedBlock : ByteString
deriving DecidableEq

structure WrappedBlock where
  type : Nat
  rawBlock : ByteString

/-- A decoded block, as far as the client reads it; the slot of a Byron header is computed, which
can fail. -/
structure LedgerBlock where
  slot : Except String UInt64
  hash : ByteString
  prevHash : ByteString

/-- The decoders, with the client's settings for them applied. -/
structure Codec where
  decodeWrapped : ByteString → Except String WrappedBlock
  newBlockFromCbor : Nat → ByteString → Except String (Option LedgerBlock)
  blockLayoutRepresentable : Nat → ByteString → Bool
  rawBlockHeaderInfoFromCbor : ByteString → Except String HeaderInfo

structure Config where
  maxInFlightBytes : UInt64
  maxBlocksPerRange : UInt64
  maxRangeBytes : UInt64
  /-- The range timeout, as printed. -/
  rangeTimeout : String
  requestPipelining : Bool
  /-- The block pipeline, if there is one, and whether it validates peer blocks. -/
  pipeline : Option Bool
  /-- Which of the callbacks are set. -/
  blockRawFunc : Bool
  blockFunc : Bool
  batchDoneFunc : Bool
  rangeDoneFunc : Bool

def defaultRequestExpectedBytes : UInt64 := 88 * 1024

def defaultMaxInFlightBytes : UInt64 := 100 * defaultRequestExpectedBytes

/-- The security window of the pipeline and the starting block. -/
def defaultMaxBlocksPerRange : UInt64 := 2160 + 1

def defaultMaxRangeBytes : UInt64 :=
  defaultMaxBlocksPerRange * defaultRequestExpectedBytes * 11 / 10

def maxInFlightBytes (cfg : Config) : UInt64 :=
  if cfg.maxInFlightBytes = 0 then defaultMaxInFlightBytes else cfg.maxInFlightBytes

def maxBlocksPerRange (cfg : Config) : UInt64 :=
  if cfg.maxBlocksPerRange = 0 then defaultMaxBlocksPerRange else cfg.maxBlocksPerRange

def maxRangeBytes (cfg : Config) : UInt64 :=
  if cfg.maxRangeBytes = 0 then defaultMaxRangeBytes else cfg.maxRangeBytes

namespace Config

variable (cfg : Config)

def pipelineDelivery (delivery : RequestDelivery) : Bool :=
  cfg.pipeline.isSome && delivery == .deliveryCallback

/-- The raw callback is the consumer, and the decoder could not read the block's layout. -/
def rawFallback (codec : Codec) (delivery : RequestDelivery) (block : WrappedBlock) : Bool :=
  delivery == .deliveryCallback && cfg.pipeline.isNone && cfg.blockRawFunc &&
    !codec.blockLayoutRepresentable block.type block.rawBlock

/-- The point and previous hash of the block in a message: from the decoded block, or from its
header's CBOR where the pipeline or the raw callback decodes it. -/
def headerInfo (codec : Codec) (delivery : RequestDelivery) (msg : MsgBlock) :
    Except ClientError HeaderInfo :=
  match codec.decodeWrapped msg.wrappedBlock with
  | .error err => .error (.wrapperDecode err)
  | .ok block =>
    if cfg.pipelineDelivery delivery then
      (codec.rawBlockHeaderInfoFromCbor block.rawBlock).mapError (.rawHeader none)
    else
      match codec.newBlockFromCbor block.type block.rawBlock with
      | .error err =>
        if cfg.rawFallback codec delivery block then
          (codec.rawBlockHeaderInfoFromCbor block.rawBlock).mapError (.rawHeader (some err))
        else .error (.blockDecode err)
      | .ok none => .error .noBlock
      | .ok (some decoded) =>
        match decoded.slot with
        | .error err => .error (.convertSlot err)
        | .ok slot => .ok ⟨⟨slot, some decoded.hash⟩, decoded.prevHash⟩

end Config

end Gouroboros.Protocol.BlockFetch.Range

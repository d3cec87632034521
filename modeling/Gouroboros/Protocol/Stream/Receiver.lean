import Gouroboros.Lib.GoBuffer
import Gouroboros.Lib.Transition
import Gouroboros.Protocol.MessageScanner

/-!
# The receiving side of the byte stream

`readLoop` of `protocol/protocol.go`: segments are appended to a buffer, the scanner
looks for the end of the first message in it, and a complete message is cut off,
decoded and queued for `recvLoop`.

What the state map and the other loops decide is a choice: the current state, the
state at which the message starts (`waitForInboundSnapshot`), the state and the
answer of `waitForInboundAdmission`, and whether the connection has room for a
buffer (`reserveReadBuffer`). A loop that waits for one of them and is shut down is
the choice `shutDown`, as is one that waits for its budget of pending bytes.

`extracted` records every message cut off, with its decoded form unless it was drained after the end
of the protocol, and `limitReached` whether a message was ever found to exceed a byte limit.
-/

namespace Gouroboros.Protocol.Stream

open Ledger (ByteString)

/-! ## The read buffer -/

def maxSegmentsPerBatch : Nat := 10

/-- States `S` and messages `M` of a protocol. -/
structure ReadConfig (S M : Type) where
  name : String
  stateName : S → String
  isServer : Bool
  /-- The depth of nesting that the decoder accepts. -/
  maxNestedLevels : Nat
  /-- `MaxReadBufferSize`; zero stands for the default. -/
  readBufferSize : Nat
  /-- Zero for a state without a limit. -/
  pendingMessageByteLimit : S → Int
  stateHasNoAgency : S → Bool
  messageEndsProtocol : S → Nat → Bool
  messageFromCbor : Nat → ByteString → Except String (Option M)
  messageType : M → Nat

inductive ReadStop (S : Type) where
  /-- A channel is closed: the protocol or the connection ends. -/
  | shutDown
  | bufferExceeded (pendingLen : Nat)
  | bufferBudget (size : Nat)
  | zeroByteRead
  | decodeError (err : ScanError)
  | notAdmitted (messageType : Nat) (state : S)
  | oversized (size limit : Int)
  | oversizedMessage (size : Nat) (limit : Int)
  | emptyMessage
  /-- The server leaves the rest to the next instance. -/
  | carryOnExit
  | messageError (err : String)
  | unknownMessageType (messageType : Nat)
deriving DecidableEq

section
variable {S M : Type} (cfg : ReadConfig S M)

def ReadConfig.maxReadBufferSize : Nat :=
  if cfg.readBufferSize > 0 then cfg.readBufferSize else 16 * 1024 * 1024

/-- The capacity after appending: the old one if the data fits, or twice as much, but enough, and at
most the largest. -/
def targetCapacity (maxReadBufferSize : Nat) (readBuffer : GoBuffer UInt8) (payload : ByteString) :
    Nat :=
  if payload.length > readBuffer.available then
    min (max (readBuffer.cap * 2) (readBuffer.len + payload.length)) maxReadBufferSize
  else readBuffer.cap

theorem length_le_targetCapacity {maxReadBufferSize : Nat} {readBuffer : GoBuffer UInt8}
    {payload : ByteString} (hsize : ¬ readBuffer.len + payload.length > maxReadBufferSize)
    (hgrow : payload.length > readBuffer.available) :
    (readBuffer.bytes ++ payload).length ≤ targetCapacity maxReadBufferSize readBuffer payload := by
  rw [targetCapacity, if_pos hgrow, List.length_append, GoBuffer.length_bytes]
  omega

/-- `granted` is the answer of `reserveReadBuffer`. -/
def appendSegment (readBuffer : GoBuffer UInt8) (payload : ByteString) (granted : Bool) :
    Except (ReadStop S) (GoBuffer UInt8) :=
  if hsize : readBuffer.len + payload.length > cfg.maxReadBufferSize then
    .error (.bufferExceeded (readBuffer.len + payload.length))
  else if !granted then
    .error (.bufferBudget (targetCapacity cfg.maxReadBufferSize readBuffer payload))
  else if hgrow : payload.length > readBuffer.available then
    .ok (.ofSlice (readBuffer.bytes ++ payload)
      (targetCapacity cfg.maxReadBufferSize readBuffer payload)
      (length_le_targetCapacity hsize hgrow))
  else .ok (readBuffer.write payload (Nat.not_lt.mp hgrow))

/-- The buffer without its first message, whether anything is left, and whether it was copied. -/
def consumeReadBuffer (readBuffer : GoBuffer UInt8) (messageLength : Nat) :
    GoBuffer UInt8 × Bool × Bool :=
  if messageLength ≥ readBuffer.len then (.empty, false, false)
  else
    let rest := readBuffer.next messageLength
    if rest.cap ≤ 2 * rest.len then (rest, true, false)
    else (.ofSlice rest.bytes rest.len (GoBuffer.length_bytes rest).le, true, true)

end

/-! ## The loop -/

inductive ReadPc (S : Type) where
  /-- At the select for a segment. -/
  | wait
  /-- In `drainQueued`, for so many more segments. -/
  | drainQueued (left : Nat)
  | scan
  /-- With a complete message. -/
  | complete (result : MessageScanResult)
  | returned (stop : ReadStop S)
deriving DecidableEq

structure ReadLoop (S M : Type) where
  pc : ReadPc S := .wait
  readBuffer : GoBuffer UInt8 := .empty
  scanner : MessageScanner := .new
  peerAgencyChecked : Bool := false
  messageState : S
  messageStateSet : Bool := false
  muxerRecvChan : List ByteString := []
  extracted : List (ByteString × Option M) := []
  limitReached : Bool := false

inductive ReadChoice (S : Type) where
  /-- The muxer delivers a payload. -/
  | deliver (payload : ByteString)
  /-- The loop takes a payload; `granted` is the answer of `reserveReadBuffer`. -/
  | receive (granted : Bool)
  /-- No segment is queued, or enough of them are taken. -/
  | drained
  /-- One round around the scanner, in the current state; the other values are what the snapshot and
  the admission answer where the round asks for them. -/
  | scan (current snapshot admitted : S) (granted : Bool)
  | dispatch
  | shutDown

namespace ReadLoop

variable {S M : Type} (cfg : ReadConfig S M)

def stop (s : ReadLoop S M) (reason : ReadStop S) : ReadLoop S M := { s with pc := .returned reason }

def enterScan (s : ReadLoop S M) : ReadLoop S M :=
  if s.readBuffer.len = 0 then s.stop .zeroByteRead else { s with pc := .scan }

def append (s : ReadLoop S M) (payload : ByteString) (granted : Bool) (next : ReadPc S) :
    ReadLoop S M :=
  match appendSegment cfg s.readBuffer payload granted with
  | .error reason => s.stop reason
  | .ok readBuffer => { s with readBuffer := readBuffer, pc := next }

def receive (s : ReadLoop S M) (granted : Bool) : Option (ReadLoop S M) :=
  match s.pc, s.muxerRecvChan with
  | .wait, payload :: rest =>
    some ({ s with muxerRecvChan := rest }.append cfg payload granted
      (.drainQueued maxSegmentsPerBatch))
  | .drainQueued (left + 1), payload :: rest =>
    some ({ s with muxerRecvChan := rest }.append cfg payload granted (.drainQueued left))
  | _, _ => none

/-- The state is noted when a message starts. -/
def takeSnapshot (s : ReadLoop S M) (started : Bool) (snapshot : S) : ReadLoop S M :=
  if started && !s.messageStateSet then
    { s with messageState := snapshot, messageStateSet := true }
  else s

/-- What follows a scan without an error. The first time that the message type is known, the loop
asks for admission and scans again. -/
def afterScan (s : ReadLoop S M) (result : MessageScanResult) (limit : Int) (admitted : S)
    (granted : Bool) : ReadLoop S M :=
  if result.hasMessageType && !s.peerAgencyChecked then
    let s := { s with messageState := admitted }
    if !granted && !cfg.stateHasNoAgency admitted then
      s.stop (.notAdmitted result.messageType admitted)
    else { s with peerAgencyChecked := true }
  else if result.oversized then
    s.stop (.oversized (if (result.messageLength : Int) ≤ limit then limit + 1
      else result.messageLength) limit)
  else if !result.complete then { s with pc := .wait }
  else { s with pc := .complete result }

def scanBuffer (s : ReadLoop S M) (current snapshot admitted : S) (granted : Bool) : ReadLoop S M :=
  let limit := cfg.pendingMessageByteLimit (if s.messageStateSet then s.messageState else current)
  let scanned := scan cfg.maxNestedLevels s.readBuffer.bytes limit s.scanner
  let result := scanned.scanner.result limit
  let s := { s with scanner := scanned.scanner }
  match scanned.err with
  | some err => s.stop (.decodeError err)
  | none =>
    let s := { s with limitReached := s.limitReached || result.oversized }
    (s.takeSnapshot result.started snapshot).afterScan cfg result limit admitted granted

/-- `consumeMessage`, and the way back to the top of the loop. -/
def consumeMessage (s : ReadLoop S M) (messageLength : Nat) (msg : Option M) : ReadLoop S M :=
  let (readBuffer, leftoverData, _) := consumeReadBuffer s.readBuffer messageLength
  let s := { s with
    readBuffer := readBuffer
    scanner := .new
    peerAgencyChecked := false
    messageStateSet := false
    extracted := s.extracted ++ [(s.readBuffer.bytes.take messageLength, msg)] }
  if leftoverData then s.enterScan else { s with pc := .wait }

/-- A server stops at the message that ends the protocol. -/
def queueMessage (s : ReadLoop S M) (messageLength : Nat) (msg : M) : ReadLoop S M :=
  let consumed := s.consumeMessage messageLength (some msg)
  if cfg.isServer && cfg.messageEndsProtocol s.messageState (cfg.messageType msg) then
    consumed.stop .carryOnExit
  else consumed

/-- The complete message at the start of the buffer. -/
def dispatch (s : ReadLoop S M) (result : MessageScanResult) : ReadLoop S M :=
  if result.messageLength = 0 ∨ result.hasMessageType = false then s.stop .emptyMessage
  else
    let msgData := s.readBuffer.bytes.take result.messageLength
    let limit := cfg.pendingMessageByteLimit s.messageState
    if limit > 0 ∧ msgData.length > limit then
      { s.stop (.oversizedMessage msgData.length limit) with limitReached := true }
    else if cfg.stateHasNoAgency s.messageState then
      if cfg.isServer then s.stop .carryOnExit
      else s.consumeMessage result.messageLength none
    else
      match cfg.messageFromCbor result.messageType msgData with
      | .error err => s.stop (.messageError err)
      | .ok none => s.stop (.unknownMessageType result.messageType)
      | .ok (some msg) => s.queueMessage cfg result.messageLength msg

def step (s : ReadLoop S M) : ReadChoice S → Option (ReadLoop S M)
  | .deliver payload => some { s with muxerRecvChan := s.muxerRecvChan ++ [payload] }
  | .receive granted => s.receive cfg granted
  | .drained =>
    match s.pc with
    | .drainQueued _ => some s.enterScan
    | _ => none
  | .scan current snapshot admitted granted =>
    match s.pc with
    | .scan => some (s.scanBuffer cfg current snapshot admitted granted)
    | _ => none
  | .dispatch =>
    match s.pc with
    | .complete result => some (s.dispatch cfg result)
    | _ => none
  | .shutDown =>
    match s.pc with
    | .returned _ => none
    | _ => some (s.stop .shutDown)

/-- A new loop, with the bytes that an earlier instance has left. -/
def start (messageState : S) (handoverIngress : ByteString) (granted : Bool) : ReadLoop S M :=
  let s : ReadLoop S M := { messageState := messageState }
  if handoverIngress = [] then s
  else
    match appendSegment cfg s.readBuffer handoverIngress granted with
    | .error reason => s.stop reason
    | .ok readBuffer => { s with readBuffer := readBuffer }.enterScan

end ReadLoop

end Gouroboros.Protocol.Stream

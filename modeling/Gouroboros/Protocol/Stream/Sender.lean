import Gouroboros.Lib.Transition
import Gouroboros.Ledger.Common.Types

/-!
# The sending side of the byte stream

`sendLoop` of `protocol/protocol.go` at the level of bytes: the batches it reads
from the send queue, and the segments (`muxer/segment.go`) it cuts them into. What
the state map decides about a message (`Protocol.Loops`) is a choice here: whether a
token grants agency, whether a dequeued message may be pipelined, must wait or is
refused, and whether a transition is accepted. So every batching that the state map
can cause is a run.

A message of the queue is the bytes that `enqueueMessage` made of it, and the channel on which its
delivery is reported. `enqueued` and `written` record what was queued and what was written into a
batch; `muxerSendChan` keeps every segment that was put on it. The counter of pending bytes is left
out.
-/

namespace Gouroboros.Protocol.Stream

open Ledger (ByteString)

/-! ## Segments -/

def segmentMaxPayloadLength : Nat := 65535

def segmentProtocolIdResponseFlag : UInt16 := 0x8000

structure SegmentHeader where
  timestamp : UInt32
  protocolId : UInt16
  payloadLength : UInt16
deriving DecidableEq

structure Segment where
  header : SegmentHeader
  payload : ByteString
  deliveryChan : Option Nat := none
deriving DecidableEq

/-- Nothing for a payload whose length does not fit its field. -/
def newSegment (timestamp : UInt32) (protocolId : UInt16) (payload : ByteString)
    (isResponse : Bool) : Option Segment :=
  let protocolId := if isResponse then protocolId + segmentProtocolIdResponseFlag else protocolId
  let size := payload.length
  if size > segmentMaxPayloadLength ∨ size > 2 ^ 16 - 1 then none
  else some { header := ⟨timestamp, protocolId, UInt16.ofNat size⟩, payload := payload }

/-- A segment's header tells the length of its payload, which has at least one byte. -/
structure Segment.Valid (segment : Segment) : Prop where
  nonempty : 1 ≤ segment.payload.length
  length_le : segment.payload.length ≤ segmentMaxPayloadLength
  payloadLength_eq : segment.header.payloadLength.toNat = segment.payload.length

theorem newSegment_of_le (timestamp : UInt32) (protocolId : UInt16) (isResponse : Bool)
    {payload : ByteString} (hlength : payload.length ≤ segmentMaxPayloadLength) :
    ∃ segment, newSegment timestamp protocolId payload isResponse = some segment ∧
      segment.payload = payload ∧ segment.header.payloadLength.toNat = payload.length := by
  have hsmall : payload.length ≤ 65535 := hlength
  have hfits : ¬ (payload.length > segmentMaxPayloadLength ∨ payload.length > 2 ^ 16 - 1) := by
    omega
  refine ⟨_, if_neg hfits, rfl, ?_⟩
  exact Nat.mod_eq_of_lt (by omega)

/-! ## The send loop -/

def maxMessagesPerSegment : Nat := 20

structure OutboundMessage where
  data : ByteString
  deliveryChan : Option Nat := none
deriving DecidableEq

inductive SendPc where
  /-- At the selects for agency, or for a message to pipeline. -/
  | waitSendReady
  /-- In the loop that reads messages into the batch. -/
  | readSendQueue (queueTransition : Bool) (msgCount : Nat)
  /-- In the loop that sends the batch. -/
  | sendSegments (deliveryChan : Option Nat)
  /-- Returned, maybe with a message in hand. -/
  | returned (outbound : Option OutboundMessage)
deriving DecidableEq

structure SendLoop where
  pc : SendPc := .waitSendReady
  queuedStateTransitions : List OutboundMessage := []
  pipelinedOutbound : Option OutboundMessage := none
  payloadBuf : ByteString := []
  sendQueue : List OutboundMessage := []
  enqueued : List OutboundMessage := []
  written : List OutboundMessage := []
  muxerSendChan : List Segment := []
deriving DecidableEq

/-- What `resolvePipelinedDequeue` decides about a message. -/
inductive Resolved where
  | pipelined
  /-- An ordinary transition, with agency. -/
  | promoted
  | waitForAgency
  | refused
deriving DecidableEq

/-- What the recheck of a batched message decides. -/
inductive Rechecked where
  /-- `takeAgencyToken` took the token: an ordinary transition. -/
  | bypassDeferral
  | pipelined
  | waitForAgency
  | refused
deriving DecidableEq

inductive SendChoice where
  | enqueue (outbound : OutboundMessage)
  /-- The token of `sendReadyChan`; `applied` is whether a deferred transition is accepted. -/
  | token (applied : Bool)
  /-- A message to pipeline, for which `flushed` deferred transitions are applied first. -/
  | dequeue (flushed : Nat) (resolved : Resolved)
  /-- The next message of the batch. -/
  | read (rechecked : Rechecked) (applied : Bool)
  | segment (timestamp : UInt32)
  | shutDown
deriving DecidableEq

namespace SendLoop

def startBatch (s : SendLoop) (haveAgency : Bool) : SendLoop :=
  { s with pc := .readSendQueue (!haveAgency) 0, payloadBuf := [] }

/-- With agency the deferred transitions go first, one for each token. -/
def token (s : SendLoop) (applied : Bool) : Option SendLoop :=
  match s.pc, s.queuedStateTransitions with
  | .waitSendReady, [] => some (s.startBatch true)
  | .waitSendReady, _ :: rest =>
    if applied then some { s with queuedStateTransitions := rest }
    else some { s with pc := .returned none }
  | _, _ => none

/-- `pipelinedSendAllowed`, and a message is there. -/
def dequeue (s : SendLoop) (flushed : Nat) (resolved : Resolved) : Option SendLoop :=
  match s.pc, s.pipelinedOutbound, s.sendQueue with
  | .waitSendReady, none, outbound :: rest =>
    let s := { s with
      sendQueue := rest
      queuedStateTransitions := s.queuedStateTransitions.drop flushed }
    let held := { s with pipelinedOutbound := some outbound }
    match resolved with
    | .pipelined => some (held.startBatch false)
    | .promoted => if s.queuedStateTransitions = [] then some (held.startBatch true) else none
    | .waitForAgency => some held
    | .refused => some { s with pc := .returned (some outbound) }
  | _, _, _ => none

/-- After a message: the batch ends, or the loop reads another one. -/
def nextMessage (s : SendLoop) (outbound : OutboundMessage) (msgCount : Nat) : SendLoop :=
  if outbound.deliveryChan.isSome then { s with pc := .sendSegments outbound.deliveryChan }
  else if msgCount ≥ maxMessagesPerSegment then { s with pc := .sendSegments none }
  else if s.payloadBuf.length > segmentMaxPayloadLength then { s with pc := .sendSegments none }
  else if s.sendQueue = [] then { s with pc := .sendSegments none }
  else { s with pc := .readSendQueue true msgCount }

/-- A message goes into the batch, and its transition is deferred or asked for. -/
def write (s : SendLoop) (outbound : OutboundMessage) (queueTransition : Bool) (msgCount : Nat)
    (applied : Bool) : SendLoop :=
  let s := { s with
    payloadBuf := s.payloadBuf ++ outbound.data
    written := s.written ++ [outbound] }
  if queueTransition then
    { s with queuedStateTransitions := s.queuedStateTransitions ++ [outbound] }.nextMessage outbound
      (msgCount + 1)
  else if applied then s.nextMessage outbound (msgCount + 1)
  else { s with pc := .returned none }

/-- A message that the state map must allow first, since an earlier one's transition is
deferred. -/
def recheck (s : SendLoop) (outbound : OutboundMessage) (msgCount : Nat) (rechecked : Rechecked)
    (applied : Bool) : Option SendLoop :=
  match rechecked with
  | .bypassDeferral =>
    if s.queuedStateTransitions = [] then some (s.write outbound false msgCount applied) else none
  | .pipelined => some (s.write outbound true msgCount applied)
  | .waitForAgency => some { s with pipelinedOutbound := some outbound, pc := .sendSegments none }
  | .refused => some { s with pc := .returned (some outbound) }

/-- The held message, or the next one of the queue. -/
def read (s : SendLoop) (rechecked : Rechecked) (applied : Bool) : Option SendLoop :=
  match s.pc, s.pipelinedOutbound, s.sendQueue with
  | .readSendQueue queueTransition msgCount, some outbound, _ =>
    some ({ s with pipelinedOutbound := none }.write outbound queueTransition msgCount applied)
  | .readSendQueue queueTransition msgCount, none, outbound :: rest =>
    let s := { s with sendQueue := rest }
    if queueTransition then s.recheck outbound msgCount rechecked applied
    else some (s.write outbound false msgCount applied)
  | _, _, _ => none

/-- The next segment of the batch. The last one reports the delivery. -/
def segment (protocolId : UInt16) (isResponse : Bool) (s : SendLoop) (timestamp : UInt32) :
    Option SendLoop :=
  match s.pc with
  | .sendSegments deliveryChan =>
    let length := min s.payloadBuf.length segmentMaxPayloadLength
    match newSegment timestamp protocolId (s.payloadBuf.take length) isResponse with
    | none => some { s with pc := .returned none }
    | some segment =>
      let segment :=
        if deliveryChan.isSome ∧ length = s.payloadBuf.length then
          { segment with deliveryChan := deliveryChan }
        else segment
      some { s with
        muxerSendChan := s.muxerSendChan ++ [segment]
        payloadBuf := s.payloadBuf.drop length
        pc := if s.payloadBuf.length > length then s.pc else .waitSendReady }
  | _ => none

def step (protocolId : UInt16) (isResponse : Bool) (s : SendLoop) : SendChoice → Option SendLoop
  | .enqueue outbound =>
    some { s with
      sendQueue := s.sendQueue ++ [outbound]
      enqueued := s.enqueued ++ [outbound] }
  | .token applied => s.token applied
  | .dequeue flushed resolved => s.dequeue flushed resolved
  | .read rechecked applied => s.read rechecked applied
  | .segment timestamp => s.segment protocolId isResponse timestamp
  | .shutDown => if s.pc matches .returned _ then none else some { s with pc := .returned none }

/-! ## What the segments carry -/

def payloads (s : SendLoop) : ByteString := (s.muxerSendChan.map (·.payload)).flatten

/-- The message that the loop had in hand when it returned. -/
def inHand (s : SendLoop) : List OutboundMessage :=
  match s.pc with
  | .returned outbound => outbound.toList
  | _ => []

/-- The messages that have not gone into a batch. -/
def unwritten (s : SendLoop) : List OutboundMessage :=
  s.inHand ++ (s.pipelinedOutbound.toList ++ s.sendQueue)

/-- The bytes that have not gone into a segment. -/
def unsent (s : SendLoop) : ByteString := s.payloadBuf ++ (s.unwritten.map (·.data)).flatten

/-- Every message is in a segment or in the batch, or it comes after all that are, in the order of
the queue; `inHand` is between the held message and those before it. -/
structure Accounted (s : SendLoop) (inHand : List OutboundMessage) : Prop where
  order_eq : s.written ++ (inHand ++ (s.pipelinedOutbound.toList ++ s.sendQueue)) = s.enqueued
  bytes_eq : s.payloads ++ s.payloadBuf = (s.written.map (·.data)).flatten
  valid : ∀ segment ∈ s.muxerSendChan, segment.Valid

/-- A batch that is sent is not empty. Only a message behind others is rechecked, so that the batch
that it waits for has one. -/
def Batch (s : SendLoop) : Prop :=
  match s.pc with
  | .waitSendReady => s.payloadBuf = []
  | .readSendQueue queueTransition _ =>
    s.pipelinedOutbound = none → queueTransition = true → s.payloadBuf ≠ []
  | .sendSegments _ => s.payloadBuf ≠ []
  | .returned _ => True

structure Inv (s : SendLoop) : Prop where
  accounted : s.Accounted s.inHand
  batch : s.Batch

theorem inv_start : Inv {} := ⟨⟨rfl, rfl, nofun⟩, rfl⟩

section
variable {s s' : SendLoop} {outbound : OutboundMessage} {queueTransition applied : Bool}
  {msgCount : Nat}

theorem inv_iff : s.Inv ↔ s.Accounted s.inHand ∧ s.Batch :=
  ⟨fun h => ⟨h.accounted, h.batch⟩, fun h => ⟨h.1, h.2⟩⟩

theorem inv_wait_iff (hpc : s.pc = .waitSendReady) :
    s.Inv ↔ s.Accounted [] ∧ s.payloadBuf = [] := by
  rw [inv_iff, inHand, Batch, hpc]

theorem inv_read_iff (hpc : s.pc = .readSendQueue queueTransition msgCount) :
    s.Inv ↔ s.Accounted [] ∧
      (s.pipelinedOutbound = none → queueTransition → s.payloadBuf ≠ []) := by
  rw [inv_iff, inHand, Batch, hpc]

theorem inv_send_iff {deliveryChan : Option Nat} (hpc : s.pc = .sendSegments deliveryChan) :
    s.Inv ↔ s.Accounted [] ∧ s.payloadBuf ≠ [] := by
  rw [inv_iff, inHand, Batch, hpc]

theorem Accounted.startBatch (h : s.Accounted []) (hempty : s.payloadBuf = []) {haveAgency : Bool}
    (hheld : s.pipelinedOutbound = none → haveAgency) : Inv (s.startBatch haveAgency) := by
  have hbytes := h.bytes_eq
  rw [hempty] at hbytes
  refine ⟨{ h with bytes_eq := hbytes }, ?_⟩
  intro hnone hdeferred
  rw [hheld hnone] at hdeferred
  cases hdeferred

theorem inv_returned (outbound : Option OutboundMessage) (h : s.Accounted outbound.toList) :
    Inv { s with pc := .returned outbound } :=
  ⟨{ h with }, trivial⟩

theorem Accounted.nextMessage (h : s.Accounted []) (hbatch : s.payloadBuf ≠ []) :
    Inv (s.nextMessage outbound msgCount) := by
  have hsend : ∀ deliveryChan, Inv { s with pc := .sendSegments deliveryChan } := fun _ =>
    ⟨{ h with }, hbatch⟩
  unfold SendLoop.nextMessage
  split
  · exact hsend _
  split
  · exact hsend _
  split
  · exact hsend _
  split
  · exact hsend _
  · exact ⟨{ h with }, fun _ _ => hbatch⟩

theorem Accounted.write (h : s.Accounted [outbound]) (hdata : outbound.data ≠ []) :
    Inv (s.write outbound queueTransition msgCount applied) := by
  -- the message in hand is now the last of the batch
  have horder : s.written ++ [outbound] ++ ([] ++ (s.pipelinedOutbound.toList ++ s.sendQueue)) =
      s.enqueued := by
    rw [← h.order_eq]
    simp
  have hbytes : s.payloads ++ (s.payloadBuf ++ outbound.data) =
      ((s.written ++ [outbound]).map (·.data)).flatten := by
    rw [← List.append_assoc, h.bytes_eq]
    simp
  have hbatch : s.payloadBuf ++ outbound.data ≠ [] := by
    intro hnil
    exact hdata (List.append_eq_nil_iff.mp hnil).2
  have hwritten : Accounted { s with
      payloadBuf := s.payloadBuf ++ outbound.data
      written := s.written ++ [outbound] } [] := ⟨horder, hbytes, h.valid⟩
  unfold SendLoop.write
  split
  · exact Accounted.nextMessage ⟨horder, hbytes, h.valid⟩ hbatch
  split
  · exact hwritten.nextMessage hbatch
  · exact inv_returned none hwritten

/-! ## The steps keep it -/

theorem Inv.token (h : s.Inv) (hstep : s.token applied = some s') : s'.Inv := by
  unfold SendLoop.token at hstep
  split at hstep
  next hpc hbacklog =>
    rcases (inv_wait_iff hpc).mp h with ⟨haccounted, hempty⟩
    injection hstep with hstep
    exact hstep ▸ haccounted.startBatch hempty fun _ => rfl
  next hpc hbacklog =>
    rcases (inv_wait_iff hpc).mp h with ⟨haccounted, hempty⟩
    split at hstep
    · cases hstep
      refine (inv_wait_iff ?_).mpr ⟨{ haccounted with }, hempty⟩
      exact hpc
    · injection hstep with hstep
      exact hstep ▸ inv_returned none haccounted
  next => cases hstep

theorem Inv.dequeue {flushed : Nat} {resolved : Resolved} (h : s.Inv)
    (hstep : s.dequeue flushed resolved = some s') : s'.Inv := by
  unfold SendLoop.dequeue at hstep
  split at hstep
  next outbound rest hpc hheld hqueue =>
    rcases (inv_wait_iff hpc).mp h with ⟨⟨horder, hbytes, hvalid⟩, hempty⟩
    rw [hheld, hqueue] at horder
    have htaken : Accounted { s with
        sendQueue := rest
        queuedStateTransitions := s.queuedStateTransitions.drop flushed } [outbound] := by
      refine ⟨?_, hbytes, hvalid⟩
      rw [← horder, hheld]
      rfl
    have hhold : Accounted { s with
        sendQueue := rest
        queuedStateTransitions := s.queuedStateTransitions.drop flushed
        pipelinedOutbound := some outbound } [] := ⟨horder, hbytes, hvalid⟩
    cases resolved with
    | pipelined =>
      injection hstep with hstep
      exact hstep ▸ hhold.startBatch hempty nofun
    | promoted =>
      dsimp only at hstep
      split at hstep
      · injection hstep with hstep
        exact hstep ▸ hhold.startBatch hempty nofun
      · cases hstep
    | waitForAgency =>
      cases hstep
      refine (inv_wait_iff ?_).mpr ⟨hhold, hempty⟩
      exact hpc
    | refused =>
      injection hstep with hstep
      exact hstep ▸ inv_returned (some outbound) htaken
  next => cases hstep

theorem Accounted.recheck {rechecked : Rechecked} (h : s.Accounted [outbound])
    (hheld : s.pipelinedOutbound = none) (hbatch : s.payloadBuf ≠ []) (hdata : outbound.data ≠ [])
    (hstep : s.recheck outbound msgCount rechecked applied = some s') : s'.Inv := by
  unfold SendLoop.recheck at hstep
  cases rechecked with
  | bypassDeferral =>
    dsimp only at hstep
    split at hstep
    · injection hstep with hstep
      exact hstep ▸ h.write hdata
    · cases hstep
  | pipelined =>
    injection hstep with hstep
    exact hstep ▸ h.write hdata
  | waitForAgency =>
    cases hstep
    have horder := h.order_eq
    rw [hheld] at horder
    exact ⟨⟨horder, h.bytes_eq, h.valid⟩, hbatch⟩
  | refused =>
    injection hstep with hstep
    exact hstep ▸ inv_returned (some outbound) h

theorem Inv.read {rechecked : Rechecked} (h : s.Inv)
    (hdata : ∀ outbound ∈ s.enqueued, outbound.data ≠ [])
    (hstep : s.read rechecked applied = some s') : s'.Inv := by
  unfold SendLoop.read at hstep
  split at hstep
  next queueTransition msgCount outbound hpc hheld =>
    rcases (inv_read_iff hpc).mp h with ⟨⟨horder, hbytes, hvalid⟩, -⟩
    rw [hheld] at horder
    have hmem : outbound ∈ s.enqueued := by
      rw [← horder]
      simp
    have htaken : Accounted { s with pipelinedOutbound := none } [outbound] :=
      ⟨horder, hbytes, hvalid⟩
    injection hstep with hstep
    exact hstep ▸ htaken.write (hdata outbound hmem)
  next queueTransition msgCount outbound rest hpc hheld hqueue =>
    rcases (inv_read_iff hpc).mp h with ⟨⟨horder, hbytes, hvalid⟩, hbatch⟩
    rw [hheld, hqueue] at horder
    have hmem : outbound ∈ s.enqueued := by
      rw [← horder]
      simp
    have haccounted : Accounted { s with sendQueue := rest } [outbound] := by
      refine ⟨?_, hbytes, hvalid⟩
      rw [← horder, hheld]
      rfl
    split at hstep
    next hdeferred =>
      exact haccounted.recheck hheld (hbatch hheld hdeferred) (hdata outbound hmem) hstep
    next =>
      injection hstep with hstep
      exact hstep ▸ haccounted.write (hdata outbound hmem)
  next => cases hstep

theorem Inv.segment {protocolId : UInt16} {isResponse : Bool} {timestamp : UInt32} (h : s.Inv)
    (hstep : s.segment protocolId isResponse timestamp = some s') : s'.Inv := by
  unfold SendLoop.segment at hstep
  split at hstep
  next deliveryChan hpc =>
    rcases (inv_send_iff hpc).mp h with ⟨⟨horder, hbytes, hvalid⟩, hbatch⟩
    have hpos : 0 < s.payloadBuf.length := List.length_pos_iff.mpr hbatch
    dsimp only at hstep
    generalize hlength : min s.payloadBuf.length segmentMaxPayloadLength = length at hstep
    have htake : (s.payloadBuf.take length).length = length := by
      rw [List.length_take]
      omega
    have hmax : length ≤ segmentMaxPayloadLength := by omega
    have hsome : 1 ≤ length := by
      unfold segmentMaxPayloadLength at hlength
      omega
    rcases newSegment_of_le timestamp protocolId isResponse (htake.le.trans hmax) with
      ⟨segment, hsegment, hpayload, hsize⟩
    rw [hsegment] at hstep
    dsimp only at hstep
    -- reporting the delivery changes neither the header nor the payload
    generalize hsent : (if deliveryChan.isSome ∧ length = s.payloadBuf.length then
      { segment with deliveryChan := deliveryChan } else segment) = sent at hstep
    have hsent : sent.payload = s.payloadBuf.take length ∧
        sent.header.payloadLength.toNat = length := by
      rw [← hsent, ← hpayload]
      split
      · exact ⟨rfl, hsize.trans htake⟩
      · exact ⟨rfl, hsize.trans htake⟩
    cases hstep
    have hvalid' : ∀ segment ∈ s.muxerSendChan ++ [sent], segment.Valid := by
      intro segment hmem
      rcases List.mem_append.mp hmem with hmem | hmem
      · exact hvalid segment hmem
      · rw [List.mem_singleton.mp hmem]
        refine ⟨?_, ?_, ?_⟩
        · rw [hsent.1, htake]
          exact hsome
        · rw [hsent.1, htake]
          exact hmax
        · rw [hsent.2, hsent.1, htake]
    have hbytes' : ((s.muxerSendChan ++ [sent]).map (·.payload)).flatten ++ s.payloadBuf.drop length =
        (s.written.map (·.data)).flatten := by
      rw [← hbytes, List.map_append, List.flatten_append, List.map_singleton, List.flatten_singleton,
        hsent.1, List.append_assoc, List.take_append_drop]
      rfl
    split
    next hmore =>
      refine (@inv_send_iff _ deliveryChan ?_).mpr ⟨⟨horder, hbytes', hvalid'⟩, ?_⟩
      · exact hpc
      · rw [ne_eq, List.drop_eq_nil_iff]
        omega
    next hdone =>
      refine (inv_wait_iff ?_).mpr ⟨⟨horder, hbytes', hvalid'⟩, ?_⟩
      · rfl
      · rw [List.drop_eq_nil_iff]
        omega
  next => cases hstep

theorem Inv.enqueue (h : s.Inv) (outbound : OutboundMessage) :
    Inv { s with sendQueue := s.sendQueue ++ [outbound], enqueued := s.enqueued ++ [outbound] } := by
  refine ⟨⟨?_, h.accounted.bytes_eq, h.accounted.valid⟩, h.batch⟩
  rw [← h.accounted.order_eq]
  simp only [List.append_assoc]
  rfl

variable {protocolId : UInt16} {isResponse : Bool}

theorem write_keeps (s : SendLoop) (outbound : OutboundMessage) (queueTransition : Bool)
    (msgCount : Nat) (applied : Bool) :
    (s.write outbound queueTransition msgCount applied).enqueued = s.enqueued ∧
      (s.write outbound queueTransition msgCount applied).muxerSendChan = s.muxerSendChan := by
  unfold write nextMessage
  grind

variable {choice : SendChoice}

theorem step_grows (hstep : s.step protocolId isResponse choice = some s') :
    s.enqueued <+: s'.enqueued ∧ s.muxerSendChan <+: s'.muxerSendChan := by
  cases choice with
  | enqueue outbound =>
    injection hstep with hstep
    exact hstep ▸ ⟨List.prefix_append _ _, List.prefix_refl _⟩
  | token applied =>
    simp only [step, token, startBatch] at hstep
    grind
  | dequeue flushed resolved =>
    simp only [step, dequeue, startBatch] at hstep
    grind
  | read rechecked applied =>
    simp only [step, read, recheck] at hstep
    grind [write_keeps]
  | segment timestamp =>
    simp only [step, segment] at hstep
    grind
  | shutDown =>
    simp only [step] at hstep
    grind

theorem Inv.step (h : s.Inv) (hdata : ∀ outbound ∈ s.enqueued, outbound.data ≠ [])
    (hstep : s.step protocolId isResponse choice = some s') : s'.Inv := by
  cases choice with
  | enqueue outbound =>
    injection hstep with hstep
    exact hstep ▸ h.enqueue outbound
  | token applied => exact h.token hstep
  | dequeue flushed resolved => exact h.dequeue hstep
  | read rechecked applied => exact h.read hdata hstep
  | segment timestamp => exact h.segment hstep
  | shutDown =>
    have hrunning : s.inHand = [] ∧ { s with pc := .returned none } = s' := by
      unfold step at hstep
      unfold inHand
      grind
    have haccounted := h.accounted
    rw [hrunning.1] at haccounted
    exact hrunning.2 ▸ inv_returned none haccounted

theorem Inv.stream (h : s.Inv) : s.payloads ++ s.unsent = (s.enqueued.map (·.data)).flatten := by
  rw [unsent, ← List.append_assoc, h.accounted.bytes_eq, ← h.accounted.order_eq, List.map_append,
    List.flatten_append]
  rfl

end

end SendLoop

end Gouroboros.Protocol.Stream

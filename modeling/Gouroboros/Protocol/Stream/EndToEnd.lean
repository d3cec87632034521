import Gouroboros.Protocol.Stream.Extraction
import Gouroboros.Protocol.Stream.Sender

/-!
# The byte stream between two peers

A send loop and the read loop of its peer. The muxers between them deliver the segments of a
mini-protocol in order, at any time; what they do in between is left out.
-/

namespace Gouroboros.Protocol.Stream

open Ledger (ByteString)

structure Link (S M : Type) where
  sender : SendLoop := {}
  /-- So many segments have reached the receiver. -/
  delivered : Nat := 0
  receiver : ReadLoop S M

inductive LinkChoice (S : Type) where
  | send (choice : SendChoice)
  | deliver
  /-- A step of the read loop itself. -/
  | read (choice : ReadChoice S)

namespace Link

variable {S M : Type} (cfg : ReadConfig S M) (protocolId : UInt16) (isResponse : Bool)

def start (messageState : S) : Link S M where
  receiver := ReadLoop.start cfg messageState [] true

def step (link : Link S M) : LinkChoice S → Option (Link S M)
  | .send choice =>
    (link.sender.step protocolId isResponse choice).map fun sender => { link with sender := sender }
  | .deliver =>
    (link.sender.muxerSendChan[link.delivered]?).bind fun segment =>
      (link.receiver.step cfg (.deliver segment.payload)).map fun receiver =>
        { link with receiver := receiver, delivered := link.delivered + 1 }
  | .read (.deliver _) => none
  | .read choice =>
    (link.receiver.step cfg choice).map fun receiver => { link with receiver := receiver }

/-! ## The invariant -/

section
variable {cfg : ReadConfig S M} {protocolId : UInt16} {isResponse : Bool} {link link' : Link S M}

def messages (link : Link S M) : List ByteString := link.sender.enqueued.map (·.data)

def arrived (link : Link S M) : ByteString :=
  ((link.sender.muxerSendChan.take link.delivered).map (·.payload)).flatten

structure Inv (cfg : ReadConfig S M) (link : Link S M) : Prop where
  sender : link.sender.Inv
  delivered_le : link.delivered ≤ link.sender.muxerSendChan.length
  received_eq : ¬ link.receiver.Returned → link.receiver.received = link.arrived
  receiver : (∀ m ∈ link.messages, Encoded cfg.maxNestedLevels m) →
    link.receiver.Holds cfg link.messages

theorem inv_start (messageState : S) : Inv cfg (start cfg messageState) :=
  ⟨SendLoop.inv_start, Nat.le_refl _, fun _ => rfl, fun _ =>
    @ReadLoop.holds_start S M cfg _ true messageState [] List.nil_prefix⟩

theorem Inv.segments_initial (h : link.Inv cfg) (count : Nat) :
    ((link.sender.muxerSendChan.take count).map (·.payload)).flatten <+: link.messages.flatten := by
  have hstream := h.sender.stream
  rw [SendLoop.payloads, ← List.take_append_drop count link.sender.muxerSendChan, List.map_append,
    List.flatten_append, List.append_assoc] at hstream
  exact ⟨_, hstream⟩

theorem Inv.send {choice : SendChoice} {sender : SendLoop} (h : link.Inv cfg)
    (hdata : ∀ outbound ∈ sender.enqueued, outbound.data ≠ [])
    (hstep : link.sender.step protocolId isResponse choice = some sender) :
    Inv cfg { link with sender := sender } := by
  rcases SendLoop.step_grows hstep with ⟨henqueued, new, hnew⟩
  have hle := h.delivered_le
  refine ⟨?_, ?_, ?_, ?_⟩
  · exact h.sender.step (fun outbound hmem => hdata outbound (henqueued.subset hmem)) hstep
  · dsimp only
    rw [← hnew, List.length_append]
    omega
  · intro hrunning
    rw [arrived]
    rw [← hnew, List.take_append_of_le_length hle]
    exact h.received_eq hrunning
  · intro hencoded
    have hmessages : link.messages <+: sender.enqueued.map (·.data) := henqueued.map _
    exact (h.receiver fun m hmem => hencoded m (hmessages.subset hmem)).mono hmessages

theorem Inv.deliver {segment : Segment} {receiver : ReadLoop S M} (h : link.Inv cfg)
    (hsegment : link.sender.muxerSendChan[link.delivered]? = some segment)
    (hstep : link.receiver.step cfg (.deliver segment.payload) = some receiver) :
    Inv cfg { link with receiver := receiver, delivered := link.delivered + 1 } := by
  rcases List.getElem?_eq_some_iff.mp hsegment with ⟨hlt, hget⟩
  have hnext : ((link.sender.muxerSendChan.take (link.delivered + 1)).map (·.payload)).flatten =
      link.arrived ++ segment.payload := by
    rw [arrived, List.take_add_one, hsegment]
    simp
  cases hstep
  refine ⟨h.sender, hlt, ?_, ?_⟩
  · intro hrunning
    have hreceived := h.received_eq hrunning
    rw [arrived]
    rw [hnext, ← hreceived, ReadLoop.received, ReadLoop.received, List.flatten_append,
      List.flatten_singleton, List.append_assoc, List.append_assoc]
    rfl
  · intro hencoded
    apply (h.receiver hencoded).deliver
    · have hvalid := h.sender.accounted.valid segment (hget ▸ List.getElem_mem hlt)
      exact List.ne_nil_of_length_pos hvalid.nonempty
    · intro hrunning
      rw [h.received_eq hrunning, ← hnext]
      exact h.segments_initial _

theorem Inv.read {choice : ReadChoice S} {receiver : ReadLoop S M} (h : link.Inv cfg)
    (hchoice : ∀ payload, choice ≠ .deliver payload)
    (hstep : link.receiver.step cfg choice = some receiver) :
    Inv cfg { link with receiver := receiver } := by
  refine ⟨h.sender, h.delivered_le, ?_, ?_⟩
  · intro hrunning
    have hbefore : ¬ link.receiver.Returned := fun hreturned => hrunning (hreturned.step hstep)
    exact (ReadLoop.received_step hchoice hstep hrunning).trans (h.received_eq hbefore)
  · intro hencoded
    exact (h.receiver hencoded).step hencoded hchoice hstep

variable {choice : LinkChoice S}

section

variable (hstep : link.step cfg protocolId isResponse choice = some link')
include hstep

theorem step_cases :
    (∃ choice sender, link.sender.step protocolId isResponse choice = some sender ∧
      link' = { link with sender := sender }) ∨
    (∃ segment receiver, link.sender.muxerSendChan[link.delivered]? = some segment ∧
      link.receiver.step cfg (.deliver segment.payload) = some receiver ∧
      link' = { link with receiver := receiver, delivered := link.delivered + 1 }) ∨
    ∃ choice receiver, (∀ payload, choice ≠ .deliver payload) ∧
      link.receiver.step cfg choice = some receiver ∧ link' = { link with receiver := receiver } := by
  unfold Link.step at hstep
  split at hstep
  next choice =>
    rcases Option.map_eq_some_iff.mp hstep with ⟨sender, hsender, rfl⟩
    exact .inl ⟨choice, sender, hsender, rfl⟩
  next =>
    rcases Option.bind_eq_some_iff.mp hstep with ⟨segment, hsegment, hstep⟩
    rcases Option.map_eq_some_iff.mp hstep with ⟨receiver, hreceiver, rfl⟩
    exact .inr (.inl ⟨segment, receiver, hsegment, hreceiver, rfl⟩)
  next => cases hstep
  next choice hchoice =>
    rcases Option.map_eq_some_iff.mp hstep with ⟨receiver, hreceiver, rfl⟩
    refine .inr (.inr ⟨choice, receiver, ?_, hreceiver, rfl⟩)
    rintro payload rfl
    exact hchoice payload rfl

theorem enqueued_step : link.sender.enqueued <+: link'.sender.enqueued := by
  rcases step_cases hstep with ⟨_, sender, hsender, rfl⟩ | ⟨_, _, _, _, rfl⟩ | ⟨_, _, _, _, rfl⟩
  · exact (SendLoop.step_grows hsender).1
  · exact List.prefix_refl _
  · exact List.prefix_refl _

theorem Inv.step (h : link.Inv cfg) (hdata : ∀ outbound ∈ link'.sender.enqueued, outbound.data ≠ []) :
    link'.Inv cfg := by
  rcases step_cases hstep with ⟨_, sender, hsender, rfl⟩ | ⟨_, _, hsegment, hreceiver, rfl⟩ |
    ⟨_, _, hchoice, hreceiver, rfl⟩
  · exact h.send hdata hsender
  · exact h.deliver hsegment hreceiver
  · exact h.read hchoice hreceiver

end

theorem inv_run {messageState : S} {choices : List (LinkChoice S)}
    (hrun : Transition.run (step cfg protocolId isResponse) (start cfg messageState) choices =
      some link)
    (hdata : ∀ outbound ∈ link.sender.enqueued, outbound.data ≠ []) : link.Inv cfg := by
  revert hdata
  refine Transition.run_invariant (P := fun link : Link S M =>
    (∀ outbound ∈ link.sender.enqueued, outbound.data ≠ []) → link.Inv cfg) ?_ ?_ hrun
  · intro link choice link' h hstep hdata
    have henqueued := enqueued_step hstep
    exact (h fun outbound hmem => hdata outbound (henqueued.subset hmem)).step hstep hdata
  · exact fun _ => inv_start messageState

theorem Inv.complete (h : link.Inv cfg)
    (hencoded : ∀ m ∈ link.messages, Encoded cfg.maxNestedLevels m)
    (hlimit : link.receiver.limitReached = false) (hwait : link.receiver.pc = .wait)
    (htaken : link.receiver.muxerRecvChan = [])
    (hdelivered : link.delivered = link.sender.muxerSendChan.length)
    (hsent : link.sender.unsent = []) : link.receiver.messages = link.messages := by
  rcases (ReadLoop.holds_wait_iff hwait).mp (h.receiver hencoded) with ⟨hrunning, -, hnone⟩
  have hreceived := h.received_eq (ReadLoop.not_returned hwait nofun)
  have hstream := h.sender.stream
  rw [hsent, List.append_nil] at hstream
  rw [arrived, hdelivered, List.take_length, ← SendLoop.payloads, hstream, ReadLoop.received, htaken,
    List.flatten_nil, List.append_nil] at hreceived
  rcases hrunning.messages_initial with ⟨rest, hrest⟩
  have hrest' : link.messages.flatten = link.receiver.messages.flatten ++ rest.flatten := by
    rw [← hrest, List.flatten_append]
  have hbuffer : link.receiver.readBuffer.bytes = rest.flatten :=
    List.append_cancel_left (hreceived.trans hrest')
  cases rest with
  | nil => simpa using hrest
  | cons m rest =>
    -- the buffer would start with a whole message
    have hmem : m ∈ link.messages := by
      rw [← hrest]
      simp
    refine absurd ?_ (hnone hlimit m (hencoded m hmem))
    rw [hbuffer, List.flatten_cons]
    exact List.prefix_append _ _

end

end Link

/-- The byte stream of a mini-protocol is preserved. In every run, every segment has between 1 and
65535 bytes, and the segments, with what is not in one yet, are the queued messages in order. If these
are messages, then the receiver has cut off exactly the first of them and does not return because of
their framing; and it has cut off all of them when everything has arrived, it waits for more and none
exceeded a limit. -/
theorem byte_stream_preserved {S M : Type} (cfg : ReadConfig S M) (protocolId : UInt16)
    (isResponse : Bool) (messageState : S) {choices : List (LinkChoice S)} {link : Link S M}
    (hrun : Transition.run (Link.step cfg protocolId isResponse) (Link.start cfg messageState) choices =
      some link)
    (hdata : ∀ outbound ∈ link.sender.enqueued, outbound.data ≠ []) :
    (∀ segment ∈ link.sender.muxerSendChan,
      1 ≤ segment.payload.length ∧ segment.payload.length ≤ 65535) ∧
    link.sender.payloads ++ link.sender.unsent = (link.sender.enqueued.map (·.data)).flatten ∧
    ((∀ outbound ∈ link.sender.enqueued, Encoded cfg.maxNestedLevels outbound.data) →
      link.receiver.messages <+: link.sender.enqueued.map (·.data) ∧
      (∀ reason, link.receiver.pc = .returned reason → ¬ reason.Misframed) ∧
      (link.sender.unsent = [] → link.delivered = link.sender.muxerSendChan.length →
        link.receiver.muxerRecvChan = [] → link.receiver.pc = .wait →
        link.receiver.limitReached = false →
        link.receiver.messages = link.sender.enqueued.map (·.data))) := by
  have hinv := Link.inv_run hrun hdata
  refine ⟨?_, hinv.sender.stream, ?_⟩
  · intro segment hmem
    have hvalid := hinv.sender.accounted.valid segment hmem
    exact ⟨hvalid.nonempty, hvalid.length_le⟩
  · intro hencoded
    have hencoded : ∀ m ∈ link.messages, Encoded cfg.maxNestedLevels m := by
      intro m hmem
      rcases List.mem_map.mp hmem with ⟨outbound, houtbound, rfl⟩
      exact hencoded outbound houtbound
    have hholds := hinv.receiver hencoded
    refine ⟨hholds.messages_initial, ?_, ?_⟩
    · intro reason hpc
      have hready := hholds.ready
      rw [ReadLoop.Ready, hpc] at hready
      exact hready
    · intro hsent hdelivered htaken hwait hlimit
      exact hinv.complete hencoded hlimit hwait htaken hdelivered hsent

/-! ## Two messages in one segment -/

/-- A protocol with one state, whose messages are their types. -/
def plainConfig : ReadConfig Unit Nat where
  name := "plain"
  stateName _ := "Idle"
  isServer := false
  maxNestedLevels := 16384
  readBufferSize := 0
  pendingMessageByteLimit _ := 0
  stateHasNoAgency _ := false
  messageEndsProtocol _ _ := false
  messageFromCbor messageType _ := .ok (some messageType)
  messageType := id

def twoMessages : List (LinkChoice Unit) :=
  [.send (.enqueue ⟨longMessage, none⟩), .send (.enqueue ⟨longMessage, none⟩), .send (.token true),
    .send (.read .pipelined true), .send (.read .pipelined true), .send (.segment 0), .deliver,
    .read (.receive true), .read .drained, .read (.scan () () () true), .read (.scan () () () true),
    .read .dispatch, .read (.scan () () () true), .read (.scan () () () true), .read .dispatch]

theorem byte_stream_preserved_two_messages :
    ∃ link, Transition.run (Link.step plainConfig 3 false) (Link.start plainConfig ()) twoMessages =
      some link ∧ link.receiver.messages = [longMessage, longMessage] := by
  have hrun : Transition.run (Link.step plainConfig 3 false) (Link.start plainConfig ())
      twoMessages = some _ := rfl
  have hencoded : ∀ outbound ∈ [(⟨longMessage, none⟩ : OutboundMessage), ⟨longMessage, none⟩],
      Encoded plainConfig.maxNestedLevels outbound.data := by
    simpa using ⟨⟨0, longMessage_isMessage⟩, by decide⟩
  have hpreserved := byte_stream_preserved plainConfig 3 false () hrun
    fun outbound hmem => (hencoded outbound hmem).ne_nil
  exact ⟨_, hrun, (hpreserved.2.2 hencoded).2.2 rfl rfl rfl rfl rfl⟩

/-- Whatever the peer sends, in segments of any size, the buffer never grows past the largest size. -/
theorem read_buffer_bounded {S M : Type} (cfg : ReadConfig S M) (messageState : S)
    (handoverIngress : ByteString) (granted : Bool) (choices : List (ReadChoice S)) (s : ReadLoop S M)
    (hrun : Transition.run (ReadLoop.step cfg) (.start cfg messageState handoverIngress granted)
      choices = some s) : s.readBuffer.cap ≤ cfg.maxReadBufferSize := by
  refine Transition.run_invariant (fun _ _ _ h hstep => ReadLoop.cap_step h hstep) ?_ hrun
  have hgrown (grown) := @ReadLoop.cap_appendSegment S M cfg handoverIngress granted .empty grown
    (Nat.zero_le _)
  unfold ReadLoop.start ReadLoop.enterScan ReadLoop.stop
  grind [GoBuffer.empty]

/-- A segment that ends in the middle of a message. -/
theorem read_buffer_bounded_partial :
    ∃ s, Transition.run (ReadLoop.step plainConfig) (.start plainConfig () [] true)
      [.deliver [0x82, 0x01], .receive true] = some s ∧ s.readBuffer.bytes = [0x82, 0x01] ∧
        s.readBuffer.cap ≤ plainConfig.maxReadBufferSize :=
  ⟨_, rfl, rfl, read_buffer_bounded _ () [] true [.deliver [0x82, 0x01], .receive true] _ rfl⟩

end Gouroboros.Protocol.Stream

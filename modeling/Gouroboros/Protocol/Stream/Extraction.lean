import Gouroboros.Protocol.MessageFraming
import Gouroboros.Protocol.Stream.Receiver

/-!
# The read loop cuts off the messages of its stream

While the loop runs, the messages it has cut off, the buffer and the payloads that it has not taken
are a part of the stream from its start, and the scanner has looked at the buffer from its start
(`Holds`). So what it finds complete is the next message of the stream, and nothing else.
-/

namespace Gouroboros.Protocol.Stream

open Ledger (ByteString)

/-- A well-formed message whose length is an `int`. -/
def Encoded (maxNestedLevels : Nat) (m : ByteString) : Prop :=
  (∃ messageType, IsMessage maxNestedLevels messageType m) ∧ m.length < 2 ^ 63

variable {levels : Nat} {m bytes : ByteString}

theorem Encoded.ne_nil (h : Encoded levels m) : m ≠ [] := by
  rcases h with ⟨⟨messageType, hmessage⟩, -⟩
  exact List.ne_nil_of_length_pos hmessage.length_pos

def NoMessage (maxNestedLevels : Nat) (bytes : ByteString) : Prop :=
  ∀ m, Encoded maxNestedLevels m → ¬ m <+: bytes

theorem noMessage_nil (levels : Nat) : NoMessage levels [] := by
  intro m hencoded hinitial
  exact hencoded.ne_nil (List.prefix_nil.mp hinitial)

/-- The scanner has found the end of a message at the start of these bytes. -/
structure Finds (maxNestedLevels : Nat) (bytes : ByteString) (result : MessageScanResult) : Prop where
  runs : ∃ found, Runs maxNestedLevels bytes 0 .new (.final found none) ∧ found.complete = true ∧
    result.messageLength = found.offset ∧ result.hasMessageType = found.hasMessageType

theorem Finds.message {rest : ByteString} {result : MessageScanResult}
    (h : Finds levels bytes result) (hencoded : Encoded levels m) (hbytes : bytes <+: m ++ rest) :
    result.messageLength = m.length ∧ result.hasMessageType ∧
      bytes.take result.messageLength = m := by
  rcases h.runs with ⟨found, hruns, hcomplete, hlength, htype⟩
  rcases hencoded with ⟨⟨messageType, hmessage⟩, hsize⟩
  have hfound := hmessage.found hsize hbytes hruns
  have hm : result.messageLength = m.length := hlength.trans (hfound.offset_eq hcomplete)
  refine ⟨hm, htype.trans (hfound.hasMessageType_eq hcomplete), ?_⟩
  have hinitial : m <+: bytes := by
    apply List.prefix_of_prefix_length_le (List.prefix_append m rest) hbytes
    exact hfound.complete_iff.mp hcomplete
  rw [hm]
  exact (List.prefix_iff_eq_take.mp hinitial).symm

theorem Finds.ne_nil {result : MessageScanResult} (h : Finds levels bytes result) : bytes ≠ [] := by
  rintro rfl
  rcases h.runs with ⟨found, hruns, -⟩
  have hstarved : Runs levels [] 0 .new (.starved .new) := .starved rfl
  cases hruns.unique hstarved

theorem noMessage_of_starved {s : MessageScanner}
    (h : Runs levels bytes 0 .new (.starved s)) : NoMessage levels bytes := by
  rintro m ⟨⟨messageType, hmessage⟩, hsize⟩ ⟨rest, hbytes⟩
  have hfound := @IsMessage.found _ _ _ _ _ rest hmessage hsize (hbytes ▸ List.prefix_refl _) h
  have hopen := h.starved_open (Nat.zero_le _)
  have hcomplete : s.complete := hfound.complete_iff.mpr (by rw [← hbytes]; simp)
  exact absurd hcomplete (Bool.eq_false_iff.mp hopen)

/-! ## The invariant -/

/-- Returns that only a stream of something else than messages causes. -/
def ReadStop.Misframed {S : Type} : ReadStop S → Prop
  | .zeroByteRead => True
  | .decodeError _ => True
  | .emptyMessage => True
  | _ => False

namespace ReadLoop

variable {S M : Type} {cfg : ReadConfig S M} {ms : List ByteString} {s s' : ReadLoop S M}

def messages (s : ReadLoop S M) : List ByteString := s.extracted.map Prod.fst

def received (s : ReadLoop S M) : ByteString :=
  s.messages.flatten ++ (s.readBuffer.bytes ++ s.muxerRecvChan.flatten)

/-- A running loop, for the messages of a stream. -/
structure Running (ms : List ByteString) (s : ReadLoop S M) : Prop where
  messages_initial : s.messages <+: ms
  received_initial : s.received <+: ms.flatten
  payload_ne_nil : ∀ payload ∈ s.muxerRecvChan, payload ≠ []

/-- The scanner has looked at the buffer from its start. -/
structure Scanned (cfg : ReadConfig S M) (s : ReadLoop S M) : Prop where
  endsLike : EndsLike cfg.maxNestedLevels s.readBuffer.bytes .new s.scanner
  passes : s.limitReached = false → Passes cfg.maxNestedLevels s.readBuffer.bytes .new s.scanner
  offset_le : s.scanner.offset ≤ s.readBuffer.bytes.length
  typeRead : TypeRead s.scanner

/-- The message type is checked when it is known. -/
structure Scanning (cfg : ReadConfig S M) (s : ReadLoop S M) : Prop extends s.Scanned cfg where
  checked : s.peerAgencyChecked = s.scanner.hasMessageType

def Returned (s : ReadLoop S M) : Prop := ∃ reason, s.pc = .returned reason

/-- Before a segment is awaited, all messages in the buffer are cut off, unless a limit was
reached. -/
def Ready (cfg : ReadConfig S M) (s : ReadLoop S M) : Prop :=
  match s.pc with
  | .wait => s.Scanning cfg ∧
      (s.limitReached = false → NoMessage cfg.maxNestedLevels s.readBuffer.bytes)
  | .drainQueued _ => s.Scanning cfg ∧ s.readBuffer.bytes ≠ []
  | .scan => s.Scanning cfg ∧ s.readBuffer.bytes ≠ []
  | .complete result => Finds cfg.maxNestedLevels s.readBuffer.bytes result
  | .returned reason => ¬ reason.Misframed

structure Holds (cfg : ReadConfig S M) (ms : List ByteString) (s : ReadLoop S M) : Prop where
  messages_initial : s.messages <+: ms
  running : ¬ s.Returned → s.Running ms
  ready : s.Ready cfg

section

variable {pc : ReadPc S} (hpc : s.pc = pc) (hrunning : ∀ reason, pc ≠ .returned reason)
include hpc hrunning

theorem not_returned : ¬ s.Returned := by
  rintro ⟨reason, hreason⟩
  exact hrunning reason (hpc.symm.trans hreason)

theorem holds_iff_running : s.Holds cfg ms ↔ s.Running ms ∧ s.Ready cfg := by
  constructor
  · intro h
    exact ⟨h.running (not_returned hpc hrunning), h.ready⟩
  · rintro ⟨h, hready⟩
    exact ⟨h.messages_initial, fun _ => h, hready⟩

end

theorem holds_wait_iff (hpc : s.pc = .wait) : s.Holds cfg ms ↔
    s.Running ms ∧ s.Scanning cfg ∧
      (s.limitReached = false → NoMessage cfg.maxNestedLevels s.readBuffer.bytes) := by
  rw [holds_iff_running hpc nofun, Ready, hpc]

theorem holds_drainQueued_iff {left : Nat} (hpc : s.pc = .drainQueued left) :
    s.Holds cfg ms ↔ s.Running ms ∧ s.Scanning cfg ∧ s.readBuffer.bytes ≠ [] := by
  rw [holds_iff_running hpc nofun, Ready, hpc]

theorem holds_scan_iff (hpc : s.pc = .scan) :
    s.Holds cfg ms ↔ s.Running ms ∧ s.Scanning cfg ∧ s.readBuffer.bytes ≠ [] := by
  rw [holds_iff_running hpc nofun, Ready, hpc]

variable {result : MessageScanResult}

theorem holds_complete_iff (hpc : s.pc = .complete result) :
    s.Holds cfg ms ↔ s.Running ms ∧ Finds cfg.maxNestedLevels s.readBuffer.bytes result := by
  rw [holds_iff_running hpc nofun, Ready, hpc]

variable {reason : ReadStop S}

theorem holds_returned (hpc : s.pc = .returned reason) (hinitial : s.messages <+: ms)
    (hreason : ¬ reason.Misframed) : s.Holds cfg ms := by
  refine ⟨hinitial, fun hrunning => absurd ⟨reason, hpc⟩ hrunning, ?_⟩
  rw [Ready, hpc]
  exact hreason

theorem holds_stop (hinitial : s.messages <+: ms)
    (hreason : ¬ reason.Misframed) : (s.stop reason).Holds cfg ms :=
  holds_returned rfl hinitial hreason

theorem Running.buffer_initial (h : s.Running ms) :
    ∃ rest, ms = s.messages ++ rest ∧ s.readBuffer.bytes <+: rest.flatten := by
  rcases h.messages_initial with ⟨rest, hrest⟩
  refine ⟨rest, hrest.symm, ?_⟩
  have hreceived := h.received_initial
  rw [received, ← hrest, List.flatten_append, List.prefix_append_right_inj] at hreceived
  exact (List.prefix_append _ _).trans hreceived

theorem Running.next_message (h : s.Running ms) (hbytes : s.readBuffer.bytes ≠ []) :
    ∃ m rest, ms = s.messages ++ m :: rest ∧ s.readBuffer.bytes <+: m ++ rest.flatten := by
  rcases h.buffer_initial with ⟨rest, hrest, hinitial⟩
  cases rest with
  | nil => exact absurd (List.prefix_nil.mp hinitial) hbytes
  | cons m rest => exact ⟨m, rest, hrest, hinitial⟩

/-! ## Appending and cutting off -/

variable {payload : ByteString} {granted : Bool}

theorem appendSegment_eq_ok {readBuffer grown : GoBuffer UInt8}
    (h : appendSegment cfg readBuffer payload granted = .ok grown) :
    granted ∧ grown.bytes = readBuffer.bytes ++ payload ∧
      grown.cap = targetCapacity cfg.maxReadBufferSize readBuffer payload := by
  unfold appendSegment at h
  split at h
  next => cases h
  next =>
    split at h
    next => cases h
    next hgranted =>
      refine ⟨by simpa using hgranted, ?_⟩
      split at h
      next =>
        injection h with h
        exact ⟨h ▸ GoBuffer.bytes_ofSlice .., h ▸ rfl⟩
      next hfits =>
        injection h with h
        exact ⟨h ▸ GoBuffer.bytes_write .., h ▸ (if_neg hfits).symm⟩

theorem appendSegment_error {readBuffer : GoBuffer UInt8}
    (h : appendSegment cfg readBuffer payload granted = .error reason) :
    (readBuffer.len + payload.length > cfg.maxReadBufferSize ∨ granted = false) ∧
      ¬ reason.Misframed := by
  unfold appendSegment at h
  split at h
  next hsize =>
    injection h with h
    exact ⟨.inl hsize, h ▸ id⟩
  next =>
    split at h
    next hrefused =>
      injection h with h
      exact ⟨.inr (by simpa using hrefused), h ▸ id⟩
    next =>
      split at h
      next => cases h
      next => cases h

theorem consumeReadBuffer_spec (readBuffer : GoBuffer UInt8) (messageLength : Nat) :
    (consumeReadBuffer readBuffer messageLength).1.bytes = readBuffer.bytes.drop messageLength ∧
      ((consumeReadBuffer readBuffer messageLength).2.1 ↔
        messageLength < readBuffer.bytes.length) ∧
      (consumeReadBuffer readBuffer messageLength).1.cap ≤ readBuffer.cap := by
  unfold consumeReadBuffer
  split
  next hall =>
    rw [List.drop_of_length_le (by rw [GoBuffer.length_bytes]; exact hall)]
    exact ⟨rfl, by simp; omega, Nat.zero_le _⟩
  next hmore =>
    have hbytes := GoBuffer.bytes_next readBuffer messageLength
    dsimp only
    split
    next => exact ⟨hbytes, by simp; omega, le_rfl⟩
    next =>
      refine ⟨hbytes, by simp; omega, ?_⟩
      exact (Nat.sub_le ..).trans (readBuffer.next messageLength).length_le

theorem Scanning.append {readBuffer : GoBuffer UInt8} {chan : List ByteString} {pc : ReadPc S}
    (h : s.Scanning cfg) (hbytes : readBuffer.bytes = s.readBuffer.bytes ++ payload) :
    Scanning cfg { s with readBuffer := readBuffer, muxerRecvChan := chan, pc := pc } := by
  refine { h with endsLike := ?_, passes := ?_, offset_le := ?_ }
  · rw [hbytes]
    exact h.endsLike.append
  · rw [hbytes]
    exact fun hwithin => (h.passes hwithin).append
  · rw [hbytes, List.length_append]
    exact h.offset_le.trans (Nat.le_add_right _ _)

variable {rest : List ByteString}

theorem Running.append {left : Nat} (h : s.Running ms) (hscanning : s.Scanning cfg)
    (hchan : s.muxerRecvChan = payload :: rest) :
    ({ s with muxerRecvChan := rest }.append cfg payload granted (.drainQueued left)).Holds cfg ms := by
  unfold ReadLoop.append
  split
  next reason hreason => exact holds_stop h.messages_initial (appendSegment_error hreason).2
  next readBuffer hbuffer =>
    have hbytes := (appendSegment_eq_ok hbuffer).2.1
    have hpayload := h.payload_ne_nil
    rw [hchan] at hpayload
    have hreceived := h.received_initial
    rw [received, hchan, List.flatten_cons, ← List.append_assoc s.readBuffer.bytes] at hreceived
    refine (holds_drainQueued_iff rfl).mpr ⟨⟨h.messages_initial, ?_, ?_⟩, ?_, ?_⟩
    · rw [received]
      rw [hbytes]
      exact hreceived
    · intro later hlater
      exact hpayload later (List.mem_cons_of_mem _ hlater)
    · exact hscanning.append hbytes
    · rw [hbytes]
      intro hnil
      exact hpayload payload List.mem_cons_self (List.append_eq_nil_iff.mp hnil).2

theorem Holds.receive (h : s.Holds cfg ms)
    (hstep : s.receive cfg granted = some s') : s'.Holds cfg ms := by
  unfold ReadLoop.receive at hstep
  split at hstep
  next payload rest hpc hchan =>
    rcases (holds_wait_iff hpc).mp h with ⟨hrunning, hscanning, -⟩
    injection hstep with hstep
    exact hstep ▸ hrunning.append hscanning hchan
  next left payload rest hpc hchan =>
    rcases (holds_drainQueued_iff hpc).mp h with ⟨hrunning, hscanning, -⟩
    injection hstep with hstep
    exact hstep ▸ hrunning.append hscanning hchan
  next => cases hstep

theorem holds_enterScan (hrunning : s.Running ms) (hscanning : s.Scanning cfg)
    (hbytes : s.readBuffer.bytes ≠ []) : s.enterScan.Holds cfg ms := by
  have hlength : ¬ s.readBuffer.len = 0 := by
    rw [← GoBuffer.length_bytes]
    exact List.length_eq_zero_iff.not.mpr hbytes
  rw [enterScan, if_neg hlength]
  exact (holds_scan_iff rfl).mpr ⟨{ hrunning with }, { hscanning with }, hbytes⟩

/-! ## Scanning -/

variable {limit : Int}

theorem Scanning.scan {limit : Int} (h : s.Scanning cfg)
    (herr : (scan cfg.maxNestedLevels s.readBuffer.bytes limit s.scanner).err = none)
    (hbuffer : s'.readBuffer = s.readBuffer)
    (hscanner : s'.scanner = (scan cfg.maxNestedLevels s.readBuffer.bytes limit s.scanner).scanner)
    (hlimit : s'.limitReached = (s.limitReached || s'.scanner.exceedsLimit limit))
    (hgoes : s'.scanner.exceedsLimit limit = false ∨
      s.scanner.hasMessageType = false ∧ s'.scanner.hasMessageType) : s'.Scanned cfg := by
  rcases @scan_keeps cfg.maxNestedLevels s.readBuffer.bytes limit s.scanner h.offset_le h.typeRead with
    ⟨hoffset, hread, -⟩
  have hpasses := @scan_passes cfg.maxNestedLevels s.readBuffer.bytes limit s.scanner h.offset_le herr
  have hends := @scan_endsLike cfg.maxNestedLevels s.readBuffer.bytes limit s.scanner h.offset_le
  rw [← hscanner] at hoffset hread hpasses hends
  rw [← hbuffer] at hoffset hpasses hends
  refine ⟨?_, ?_, hoffset, hread⟩
  · have hbefore := h.endsLike
    rw [← hbuffer] at hbefore
    rcases hgoes with hwithin | ⟨hunknown, htype⟩
    · exact hbefore.trans (hpasses hwithin).endsLike
    · exact hbefore.trans (hends hunknown (hbuffer ▸ herr) htype)
  · intro hnever
    rcases Bool.or_eq_false_iff.mp (hlimit.symm.trans hnever) with ⟨hbefore, hwithin⟩
    have hbefore := h.passes hbefore
    rw [← hbuffer] at hbefore
    exact hbefore.trans (hpasses hwithin)

theorem Scanning.no_error {err : ScanError} (h : s.Scanning cfg) (hrunning : s.Running ms)
    (hbytes : s.readBuffer.bytes ≠ []) (hms : ∀ m ∈ ms, Encoded cfg.maxNestedLevels m) :
    (Protocol.scan cfg.maxNestedLevels s.readBuffer.bytes limit s.scanner).err ≠ some err := by
  intro herr
  rcases hrunning.next_message hbytes with ⟨m, rest, hrest, hinitial⟩
  have hmem : m ∈ ms := by
    rw [hrest]
    simp
  rcases hms m hmem with ⟨⟨messageType, hmessage⟩, hsize⟩
  have hnew := h.endsLike.runs (scan_error h.offset_le herr)
  cases (hmessage.found hsize hinitial hnew).err_eq

theorem Scanned.finds (h : s.Scanned cfg) (hcomplete : s.scanner.complete) :
    Finds cfg.maxNestedLevels s.readBuffer.bytes (s.scanner.result limit) := by
  have hround : scanRound cfg.maxNestedLevels s.readBuffer.bytes 0 s.scanner = .final s.scanner none :=
    if_pos hcomplete
  exact ⟨s.scanner, h.endsLike.runs (.final hround), hcomplete, rfl, rfl⟩

variable {admitted current snapshot : S}

theorem holds_afterScan (hpc : s.pc = .scan) (hrunning : s.Running ms)
    (hbytes : s.readBuffer.bytes ≠ []) (hkept : s.peerAgencyChecked → s.scanner.hasMessageType)
    (hscanned : s.scanner.exceedsLimit limit = false ∨
      s.peerAgencyChecked = false ∧ s.scanner.hasMessageType → s.Scanned cfg)
    (hstarved : s.limitReached = false → s.scanner.complete = false →
      s.peerAgencyChecked = s.scanner.hasMessageType → NoMessage cfg.maxNestedLevels s.readBuffer.bytes) :
    (s.afterScan cfg (s.scanner.result limit) limit admitted granted).Holds cfg ms := by
  unfold afterScan
  split
  next hfirst =>
    have htype : s.scanner.hasMessageType := (Bool.and_eq_true_iff.mp hfirst).1
    have hunchecked : s.peerAgencyChecked = false := by
      have hnot := (Bool.and_eq_true_iff.mp hfirst).2
      rw [Bool.not_eq_true'] at hnot
      exact hnot
    split
    next => exact holds_stop hrunning.messages_initial id
    next =>
      -- admitted: the same buffer is scanned again
      refine (holds_scan_iff ?_).mpr ⟨{ hrunning with }, ⟨?_, htype.symm⟩, hbytes⟩
      · exact hpc
      · exact { hscanned (.inr ⟨hunchecked, htype⟩) with }
  next hlater =>
    have hchecked : s.peerAgencyChecked = s.scanner.hasMessageType := by
      have hlater : ¬ (s.scanner.hasMessageType && !s.peerAgencyChecked) := hlater
      rw [Bool.eq_iff_iff]
      refine ⟨hkept, ?_⟩
      intro htype
      rw [htype, Bool.true_and, Bool.not_eq_true', Bool.not_eq_false] at hlater
      exact hlater
    split
    next => exact holds_stop hrunning.messages_initial id
    next hwithin =>
      have hscanned := hscanned (.inl (Bool.eq_false_iff.mpr hwithin))
      split
      next hopen =>
        have hopen : s.scanner.complete = false := Bool.not_eq_true' _ ▸ hopen
        exact (holds_wait_iff rfl).mpr ⟨{ hrunning with },
          ⟨{ hscanned with }, hchecked⟩, fun hlimit => hstarved hlimit hopen hchecked⟩
      next hcomplete =>
        have hcomplete : s.scanner.complete := by
          rw [Bool.not_eq_true', Bool.not_eq_false] at hcomplete
          exact hcomplete
        exact (holds_complete_iff rfl).mpr ⟨{ hrunning with }, hscanned.finds hcomplete⟩

theorem takeSnapshot_eq (started : Bool) (snapshot : S) :
    ∃ messageState messageStateSet, s.takeSnapshot started snapshot =
      { s with messageState := messageState, messageStateSet := messageStateSet } := by
  unfold takeSnapshot
  split
  · exact ⟨_, _, rfl⟩
  · exact ⟨_, _, rfl⟩

theorem Holds.scanBuffer (h : s.Holds cfg ms) (hpc : s.pc = .scan)
    (hms : ∀ m ∈ ms, Encoded cfg.maxNestedLevels m) :
    (s.scanBuffer cfg current snapshot admitted granted).Holds cfg ms := by
  rcases (holds_scan_iff hpc).mp h with ⟨hrunning, hscanning, hbytes⟩
  unfold ReadLoop.scanBuffer
  generalize cfg.pendingMessageByteLimit (if s.messageStateSet then s.messageState else current) = limit
  dsimp only
  split
  next err herr => exact absurd herr (hscanning.no_error hrunning hbytes hms)
  next herr =>
    rcases @takeSnapshot_eq S M _ _ snapshot with ⟨messageState, messageStateSet, hsnapshot⟩
    rw [hsnapshot]
    have hkeeps := @scan_keeps cfg.maxNestedLevels s.readBuffer.bytes limit s.scanner
      hscanning.offset_le hscanning.typeRead
    apply holds_afterScan
    · exact hpc
    · exact { hrunning with }
    · exact hbytes
    · exact fun hchecked => hkeeps.2.2 (hscanning.checked ▸ hchecked)
    · intro hgoes
      refine hscanning.scan herr ?_ ?_ ?_ ?_
      · rfl
      · rfl
      · rfl
      · rw [← hscanning.checked]
        exact hgoes
    · intro hlimit hopen hchecked
      rcases Bool.or_eq_false_iff.mp hlimit with ⟨hbefore, hwithin⟩
      have hstarved := scan_starved hscanning.offset_le hscanning.typeRead herr hwithin hopen fun htype =>
        hscanning.checked ▸ hchecked.trans htype
      exact noMessage_of_starved ((hscanning.passes hbefore).runs hstarved)

/-! ## Cutting off a message -/

theorem Running.finds (h : s.Running ms)
    (hfinds : Finds cfg.maxNestedLevels s.readBuffer.bytes result)
    (hms : ∀ m ∈ ms, Encoded cfg.maxNestedLevels m) :
    ∃ m rest, ms = s.messages ++ m :: rest ∧ m ∈ ms ∧ result.messageLength = m.length ∧
      result.hasMessageType ∧ s.readBuffer.bytes.take m.length = m := by
  have hbytes : s.readBuffer.bytes ≠ [] := hfinds.ne_nil
  rcases h.next_message hbytes with ⟨m, rest, hrest, hinitial⟩
  have hmem : m ∈ ms := by
    rw [hrest]
    simp
  rcases hfinds.message (hms m hmem) hinitial with ⟨hlength, htype, htake⟩
  exact ⟨m, rest, hrest, hmem, hlength, htype, hlength ▸ htake⟩

theorem scanning_new (hscanner : s.scanner = .new)
    (hchecked : s.peerAgencyChecked = false) : s.Scanning cfg := by
  refine ⟨⟨?_, ?_, ?_, ?_⟩, ?_⟩
  · rw [hscanner]
    exact fun _ _ _ hends => hends
  · rw [hscanner]
    exact fun _ _ _ hout => hout
  · rw [hscanner]
    exact Nat.zero_le _
  · rw [hscanner]
    exact nofun
  · rw [hscanner, hchecked]
    rfl

theorem Running.consumeMessage {m : ByteString} {msg : Option M} (h : s.Running ms)
    (hms : ms = s.messages ++ m :: rest) (hbytes : s.readBuffer.bytes.take m.length = m) :
    (s.consumeMessage m.length msg).Holds cfg ms := by
  rcases consumeReadBuffer_spec s.readBuffer m.length with ⟨hrest, hleftover, -⟩
  unfold ReadLoop.consumeMessage
  rw [hbytes]
  generalize consumeReadBuffer s.readBuffer m.length = consumed at hrest hleftover
  rcases consumed with ⟨readBuffer, leftoverData, copied⟩
  dsimp only at hrest hleftover ⊢
  generalize hconsumed : ({ s with
    readBuffer := readBuffer
    scanner := .new
    peerAgencyChecked := false
    messageStateSet := false
    extracted := s.extracted ++ [(m, msg)] } : ReadLoop S M) = consumed
  have hmessages : consumed.messages = s.messages ++ [m] := by
    rw [← hconsumed, messages, messages, List.map_append]
    rfl
  have hrunning : consumed.Running ms := by
    refine ⟨?_, ?_, ?_⟩
    · rw [hmessages, hms]
      exact ⟨rest, by simp⟩
    · have hreceived := h.received_initial
      rw [received, ← List.take_append_drop m.length s.readBuffer.bytes, hbytes] at hreceived
      rw [received, hmessages, ← hconsumed]
      rw [hrest]
      simpa using hreceived
    · rw [← hconsumed]
      exact h.payload_ne_nil
  have hscanning : consumed.Scanning cfg := hconsumed ▸ scanning_new rfl rfl
  have hbuffer : consumed.readBuffer = readBuffer := by rw [← hconsumed]
  split
  next hmore =>
    apply holds_enterScan hrunning hscanning
    rw [hbuffer, hrest, ne_eq, List.drop_eq_nil_iff]
    have hlt := hleftover.mp hmore
    omega
  next hall =>
    have hempty : readBuffer.bytes = [] := by
      rw [hrest, List.drop_eq_nil_iff]
      exact Nat.not_lt.mp (hleftover.not.mp hall)
    subst hconsumed
    refine (holds_wait_iff rfl).mpr ⟨{ hrunning with }, scanning_new rfl rfl, ?_⟩
    rw [hempty]
    exact fun _ => noMessage_nil _

theorem Holds.dispatch (h : s.Holds cfg ms) (hpc : s.pc = .complete result)
    (hms : ∀ m ∈ ms, Encoded cfg.maxNestedLevels m) : (s.dispatch cfg result).Holds cfg ms := by
  rcases (holds_complete_iff hpc).mp h with ⟨hrunning, hfinds⟩
  rcases hrunning.finds hfinds hms with ⟨m, rest, hrest, hmem, hlength, htype, htake⟩
  have hpos : 0 < m.length := List.length_pos_iff.mpr (hms m hmem).ne_nil
  have hconsumed : ∀ msg, (s.consumeMessage result.messageLength msg).Holds cfg ms := by
    intro msg
    rw [hlength]
    exact hrunning.consumeMessage hrest htake
  unfold ReadLoop.dispatch
  have hwhole : ¬ (result.messageLength = 0 ∨ result.hasMessageType = false) := by
    rw [htype, hlength]
    rintro (hzero | hfalse)
    · omega
    · cases hfalse
  rw [if_neg hwhole]
  dsimp only
  split
  next => exact holds_returned rfl hrunning.messages_initial id
  next =>
    split
    next =>
      split
      next => exact holds_stop hrunning.messages_initial id
      next => exact hconsumed none
    next =>
      split
      next => exact holds_stop hrunning.messages_initial id
      next => exact holds_stop hrunning.messages_initial id
      next msg hmsg =>
        unfold queueMessage
        split
        next => exact holds_stop (hconsumed (some msg)).messages_initial id
        next => exact hconsumed (some msg)

/-! ## The steps keep it -/

@[simp] theorem received_enterScan : s.enterScan.received = s.received := by
  unfold enterScan
  split
  · rfl
  · rfl

@[simp] theorem received_consumeMessage {messageLength : Nat} {msg : Option M} :
    (s.consumeMessage messageLength msg).received = s.received := by
  have hrest := (consumeReadBuffer_spec s.readBuffer messageLength).1
  have hmoved : (s.messages ++ [s.readBuffer.bytes.take messageLength]).flatten ++
      ((consumeReadBuffer s.readBuffer messageLength).1.bytes ++ s.muxerRecvChan.flatten) =
        s.received := by
    rw [hrest, List.flatten_append, List.flatten_singleton, List.append_assoc, ← List.append_assoc
      (s.readBuffer.bytes.take messageLength), List.take_append_drop]
    rfl
  unfold ReadLoop.consumeMessage
  dsimp only
  split
  · rw [received_enterScan, ← hmoved, received, messages, messages, List.map_append]
    rfl
  · rw [← hmoved, received, messages, messages, List.map_append]
    rfl

theorem received_append {next : ReadPc S} (hchan : s.muxerRecvChan = payload :: rest)
    (hrunning : ¬ ({ s with muxerRecvChan := rest }.append cfg payload granted next).Returned) :
    ({ s with muxerRecvChan := rest }.append cfg payload granted next).received = s.received := by
  unfold ReadLoop.append at hrunning ⊢
  split
  next reason hreason =>
    rw [hreason] at hrunning
    exact absurd ⟨reason, rfl⟩ hrunning
  next readBuffer hbuffer =>
    rw [received, received, hchan, List.flatten_cons, ← List.append_assoc s.readBuffer.bytes,
      ← (appendSegment_eq_ok hbuffer).2.1]
    rfl

theorem received_afterScan (result : MessageScanResult) (limit : Int) (admitted : S)
    (granted : Bool) : (s.afterScan cfg result limit admitted granted).received = s.received := by
  unfold afterScan
  split
  · split
    · rfl
    · rfl
  split
  · rfl
  split
  · rfl
  · rfl

theorem received_takeSnapshot (started : Bool) (snapshot : S) :
    (s.takeSnapshot started snapshot).received = s.received := by
  rcases @takeSnapshot_eq S M s started snapshot with ⟨messageState, messageStateSet, hsnapshot⟩
  rw [hsnapshot]
  rfl

theorem received_scanBuffer :
    (s.scanBuffer cfg current snapshot admitted granted).received = s.received := by
  unfold ReadLoop.scanBuffer
  dsimp only
  split
  next => rfl
  next =>
    rw [received_afterScan, received_takeSnapshot]
    rfl

theorem received_dispatch : (s.dispatch cfg result).received = s.received := by
  unfold ReadLoop.dispatch queueMessage
  dsimp only
  split
  · rfl
  split
  · rfl
  split
  · split
    · rfl
    · exact received_consumeMessage
  split
  · rfl
  · rfl
  split
  · exact received_consumeMessage
  · exact received_consumeMessage

variable {choice : ReadChoice S}

theorem received_step (hchoice : ∀ payload, choice ≠ .deliver payload)
    (hstep : s.step cfg choice = some s')
    (hrunning : ¬ s'.Returned) : s'.received = s.received := by
  cases choice with
  | deliver payload => exact absurd rfl (hchoice payload)
  | receive granted =>
    simp only [ReadLoop.step, ReadLoop.receive] at hstep
    split at hstep
    next payload rest hpc hchan =>
      cases hstep
      exact received_append hchan hrunning
    next left payload rest hpc hchan =>
      cases hstep
      exact received_append hchan hrunning
    next => cases hstep
  | drained =>
    simp only [ReadLoop.step] at hstep
    grind [received_enterScan]
  | scan current snapshot admitted granted =>
    simp only [ReadLoop.step] at hstep
    grind [received_scanBuffer]
  | dispatch =>
    simp only [ReadLoop.step] at hstep
    grind [received_dispatch]
  | shutDown =>
    simp only [ReadLoop.step] at hstep
    split at hstep
    next => cases hstep
    next =>
      injection hstep with hstep
      exact absurd ⟨.shutDown, hstep ▸ rfl⟩ hrunning

theorem Returned.step (h : s.Returned) (hstep : s.step cfg choice = some s') : s'.Returned := by
  rcases h with ⟨reason, hpc⟩
  cases choice with
  | deliver payload =>
    injection hstep with hstep
    exact ⟨reason, hstep ▸ hpc⟩
  | receive granted => simp [ReadLoop.step, ReadLoop.receive, hpc] at hstep
  | drained | scan | dispatch | shutDown => simp [ReadLoop.step, hpc] at hstep

theorem Holds.step (h : s.Holds cfg ms) (hms : ∀ m ∈ ms, Encoded cfg.maxNestedLevels m)
    (hchoice : ∀ payload, choice ≠ .deliver payload)
    (hstep : s.step cfg choice = some s') : s'.Holds cfg ms := by
  unfold ReadLoop.step at hstep
  cases choice with
  | deliver payload => exact absurd rfl (hchoice payload)
  | receive granted => exact h.receive hstep
  | drained =>
    dsimp only at hstep
    split at hstep
    next left hpc =>
      rcases (holds_drainQueued_iff hpc).mp h with ⟨hrunning, hscanning, hbytes⟩
      injection hstep with hstep
      exact hstep ▸ holds_enterScan hrunning hscanning hbytes
    next => cases hstep
  | scan current snapshot admitted granted =>
    dsimp only at hstep
    split at hstep
    next hpc =>
      cases hstep
      exact h.scanBuffer hpc hms
    next => cases hstep
  | dispatch =>
    dsimp only at hstep
    split at hstep
    next result hpc =>
      injection hstep with hstep
      exact hstep ▸ h.dispatch hpc hms
    next => cases hstep
  | shutDown =>
    dsimp only at hstep
    split at hstep
    next => cases hstep
    next =>
      injection hstep with hstep
      exact hstep ▸ holds_stop h.messages_initial id

theorem Holds.deliver (h : s.Holds cfg ms) (hpayload : payload ≠ [])
    (hreceived : ¬ s.Returned → s.received ++ payload <+: ms.flatten) :
    Holds cfg ms { s with muxerRecvChan := s.muxerRecvChan ++ [payload] } := by
  refine ⟨h.messages_initial, ?_, ?_⟩
  · intro hrunning
    refine ⟨h.messages_initial, ?_, ?_⟩
    · have hinitial := hreceived hrunning
      rw [received, List.append_assoc, List.append_assoc] at hinitial
      rw [received, List.flatten_append, List.flatten_singleton]
      exact hinitial
    · intro later hlater
      rcases List.mem_append.mp hlater with hlater | hlater
      · exact (h.running hrunning).payload_ne_nil later hlater
      · rw [List.mem_singleton.mp hlater]
        exact hpayload
  · have hready := h.ready
    unfold Ready at hready ⊢
    split
    next hpc =>
      rw [hpc] at hready
      exact ⟨{ hready.1 with }, hready.2⟩
    next hpc =>
      rw [hpc] at hready
      exact ⟨{ hready.1 with }, hready.2⟩
    next hpc =>
      rw [hpc] at hready
      exact ⟨{ hready.1 with }, hready.2⟩
    next hpc =>
      rw [hpc] at hready
      exact hready
    next hpc =>
      rw [hpc] at hready
      exact hready

theorem holds_start {messageState : S} {handoverIngress : ByteString}
    (hhandover : handoverIngress <+: ms.flatten) :
    (start cfg messageState handoverIngress granted : ReadLoop S M).Holds cfg ms := by
  have hnew : ({ messageState := messageState } : ReadLoop S M).Holds cfg ms := by
    refine (holds_wait_iff rfl).mpr ⟨⟨?_, ?_, nofun⟩, scanning_new rfl rfl, fun _ => noMessage_nil _⟩
    · exact List.nil_prefix
    · exact List.nil_prefix
  unfold start
  dsimp only
  split
  next => exact hnew
  next hnonempty =>
    split
    next reason hreason => exact holds_stop hnew.messages_initial (appendSegment_error hreason).2
    next readBuffer hbuffer =>
      have hbytes : readBuffer.bytes = handoverIngress := (appendSegment_eq_ok hbuffer).2.1
      refine holds_enterScan ⟨hnew.messages_initial, ?_, nofun⟩ (scanning_new rfl rfl) ?_
      · have hreceived : received ({ readBuffer := readBuffer, messageState := messageState } :
            ReadLoop S M) = readBuffer.bytes := List.append_nil _
        rw [hreceived, hbytes]
        exact hhandover
      · rw [hbytes]
        exact hnonempty

theorem Holds.mono {ms' : List ByteString} (h : s.Holds cfg ms) (hms : ms <+: ms') :
    s.Holds cfg ms' := by
  have hflatten : ms.flatten <+: ms'.flatten := by
    rcases hms with ⟨rest, rfl⟩
    rw [List.flatten_append]
    exact List.prefix_append _ _
  refine ⟨h.messages_initial.trans hms, ?_, h.ready⟩
  intro hrunning
  rcases h.running hrunning with ⟨hinitial, hreceived, hpayload⟩
  exact ⟨hinitial.trans hms, hreceived.trans hflatten, hpayload⟩

/-! ## Memory -/

theorem cap_appendSegment {readBuffer grown : GoBuffer UInt8}
    (h : readBuffer.cap ≤ cfg.maxReadBufferSize)
    (happend : appendSegment cfg readBuffer payload granted = .ok grown) :
    grown.cap ≤ cfg.maxReadBufferSize := by
  rw [(appendSegment_eq_ok happend).2.2]
  unfold targetCapacity
  split <;> omega

theorem cap_step (h : s.readBuffer.cap ≤ cfg.maxReadBufferSize)
    (hstep : s.step cfg choice = some s') : s'.readBuffer.cap ≤ cfg.maxReadBufferSize := by
  have hgrown (payload granted grown) := @cap_appendSegment _ _ cfg payload granted _ grown h
  have hrest (n : Nat) := (consumeReadBuffer_spec s.readBuffer n).2.2.trans h
  -- a step leaves the buffer, grows it for a segment or takes a message out of it
  unfold ReadLoop.step ReadLoop.receive ReadLoop.append ReadLoop.scanBuffer takeSnapshot afterScan
    ReadLoop.dispatch queueMessage ReadLoop.consumeMessage enterScan stop at hstep
  grind

end ReadLoop

end Gouroboros.Protocol.Stream

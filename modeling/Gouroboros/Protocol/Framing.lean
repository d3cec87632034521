import Gouroboros.Protocol.ScannerCalls

/-!
# Exact framing

The scanner reads a well-formed message token by token, with a frame for every open item of the
reader in `Cbor.Advances`, and so finds its end exactly (`MessageTokens.runs`); past the header of a
token it knows where the token ends (`MessageTokens.passes`).
-/

namespace Gouroboros.Protocol

open Ledger (ByteString)
open Cbor (Token Level tokenBytes settle)

/-! ## Heads of tokens -/

theorem extraLength_of_lt {info : Nat} (h : info < 24) : Cbor.extraLength info = 0 := if_pos h

theorem extraLength_of_le {info : Nat} (h : 24 ≤ info) : Cbor.extraLength info = 2 ^ (info - 24) :=
  if_neg (Nat.not_lt.mpr h)

theorem readHead_head (pre post : ByteString) (head : Cbor.Head) :
    readHead (pre ++ (head.bytes ++ post)) pre.length =
      .ok (some ⟨head.major, head.argument, false, false, head.bytes.length⟩) := by
  have hbyte := head.toNat_initialByte
  have hinfo := head.info_lt
  have hmajor : head.initialByte.toNat / 32 = head.major := by omega
  have hadditional : head.initialByte.toNat % 32 = head.info := by omega
  have hextra := head.length_extra
  unfold readHead
  rw [List.drop_left, Cbor.Head.bytes, List.cons_append]
  simp only [hmajor, hadditional, List.length_cons, Cbor.Head.argument]
  by_cases hsmall : head.info < 24
  · rw [if_pos hsmall, if_pos hsmall, hextra, extraLength_of_lt hsmall]
  · rw [extraLength_of_le (by omega)] at hextra
    have hlong : ¬ (head.extra ++ post).length < 2 ^ (head.info - 24) := by
      rw [List.length_append]
      omega
    rw [if_neg hsmall, if_neg hsmall, if_pos hinfo, if_neg hlong, ← hextra, List.take_left]

theorem readHead_start (pre post : ByteString) {major : Nat} (hlow : 2 ≤ major)
    (hhigh : major ≤ 5) : readHead (pre ++ (Cbor.indefiniteByte major :: post)) pre.length =
      .ok (some ⟨major, 0, true, false, 1⟩) := by
  have hbyte := Cbor.toNat_indefiniteByte hhigh
  have hmajor : (Cbor.indefiniteByte major).toNat / 32 = major := by omega
  have hadditional : (Cbor.indefiniteByte major).toNat % 32 = 31 := by omega
  unfold readHead
  rw [List.drop_left]
  simp only [hmajor, hadditional]
  rw [if_neg (by decide), if_neg (by decide), if_pos trivial, if_neg (by omega), if_neg (by omega)]

/-! ## Frames and levels -/

/-- The frame that the scanner keeps for an open item. -/
def frameOf : Level → MessageScanFrame
  | .counted left => ⟨left, false⟩
  | .unbounded => ⟨0, true⟩

theorem closeFrames_map : ∀ levels : List Level,
    closeFrames (levels.map frameOf) = (settle levels).map frameOf
  | [] => rfl
  | .unbounded :: levels => rfl
  | .counted 0 :: levels => by
      rw [Cbor.settle_finished, ← closeFrames_map levels]
      rfl
  | .counted (left + 1) :: levels => rfl

theorem frameOf_less (level : Level) :
    (if (frameOf level).indefinite then frameOf level
      else { frameOf level with remaining := (frameOf level).remaining - 1 }) =
      frameOf (level.less 1) := by
  cases level with
  | counted left => rfl
  | unbounded => rfl

structure Reads (s : MessageScanner) (levels : List Level) (offset : Nat) : Prop where
  offset_eq : s.offset = offset
  frames_eq : s.frames = levels.map frameOf
  started_eq : s.started = true
  complete_eq : s.complete = levels.isEmpty
  pendingBytes_eq : s.pendingBytes = 0

theorem Reads.weight {s : MessageScanner} {levels : List Level} {offset : Nat}
    (h : Reads s levels offset) : s.weight = offset := by
  rw [MessageScanner.weight, h.offset_eq, h.pendingBytes_eq, Nat.add_zero]

structure Typed (s : MessageScanner) (messageType : Nat) : Prop where
  rootItems_pos : 0 < s.rootItems
  hasMessageType_eq : s.hasMessageType = true
  messageType_eq : s.messageType = messageType

/-- A scanner past the head of an item, inside these open items. -/
structure PastHead (s : MessageScanner) (levels : List Level) : Prop where
  frames_eq : s.frames = levels.map frameOf
  started_eq : s.started = true
  complete_eq : s.complete = false
  pendingBytes_eq : s.pendingBytes = 0

theorem PastHead.finishItem {s : MessageScanner} {levels : List Level} (h : PastHead s levels) :
    Reads s.finishItem (settle levels) s.offset := by
  refine ⟨rfl, ?_, h.started_eq, ?_, h.pendingBytes_eq⟩
  · simp only [MessageScanner.finishItem, h.frames_eq, closeFrames_map]
  · simp only [MessageScanner.finishItem, h.frames_eq, closeFrames_map, h.complete_eq,
      Bool.false_or, List.isEmpty_map]

/-! ## Rounds on tokens -/

section
variable {maxNestedLevels : Nat} {data : ByteString} {s : MessageScanner}

def Leads (maxNestedLevels : Nat) (data : ByteString) (s s' : MessageScanner) : Prop :=
  ∀ out, Runs maxNestedLevels data 0 s' out → Runs maxNestedLevels data 0 s out

theorem Leads.trans {s' s'' : MessageScanner} (h : Leads maxNestedLevels data s s')
    (h' : Leads maxNestedLevels data s' s'') : Leads maxNestedLevels data s s'' :=
  fun out hout => h out (h' out hout)

theorem leads_finished {s' : MessageScanner}
    (h : scanRound maxNestedLevels data 0 s = .finished s') : Leads maxNestedLevels data s s' := by
  intro out hout
  unfold ScanStep.finished at h
  split at h
  next hcomplete =>
    have hround : scanRound maxNestedLevels data 0 s' = .final s' none := if_pos hcomplete
    rw [hout.unique (.final hround)]
    exact .final h
  next => exact .next (.inl h) hout

/-- What is left of a token after its head: nothing, or the bytes of a string. -/
inductive Rest (head : Cbor.Head) (levels : List Level) (s s' : MessageScanner) : Prop
  | done (hpayload : head.payloadLength = 0)
      (h : Reads s' (settle (Cbor.opened head levels)) s.offset)
  | string (hpayload : 0 < head.payloadLength) (hopened : Cbor.opened head levels = levels)
      (h : s' = { s with pendingBytes := head.payloadLength })

section
variable {levels : List Level} {head : Cbor.Head}

theorem PastHead.pushFrame (h : PastHead s levels) (level : Level)
    (hroom : levels.length < maxNestedLevels) :
    ∃ s', s.pushFrame maxNestedLevels (frameOf level) = .ok s' ∧ PastHead s' (level :: levels) ∧
      s'.offset = s.offset := by
  have hlength : ¬ s.frames.length ≥ maxNestedLevels := by
    rw [h.frames_eq, List.length_map]
    omega
  rw [MessageScanner.pushFrame, if_neg hlength]
  refine ⟨_, rfl, ⟨?_, h.started_eq, h.complete_eq, h.pendingBytes_eq⟩, rfl⟩
  rw [h.frames_eq]
  rfl

theorem PastHead.plain (h : PastHead s levels) (hmajor : head.major < 2 ∨ head.major = 7) :
    Rest head levels s s.finishItem := by
  have hpayload : head.payloadLength = 0 := if_neg (by omega)
  have hopened : Cbor.opened head levels = levels := if_neg (by omega)
  refine .done hpayload ?_
  rw [hopened]
  exact h.finishItem

theorem PastHead.scanString (h : PastHead s levels) (hmajor : head.major = 2 ∨ head.major = 3)
    (size : Nat) :
    ∃ s', Protocol.scanString maxNestedLevels ⟨head.major, head.argument, false, false, size⟩ s =
      .ok s' ∧ Rest head levels s s' := by
  have hpayload : head.payloadLength = head.argument := if_pos hmajor
  have hopened : Cbor.opened head levels = levels := if_neg (by omega)
  rw [Protocol.scanString, if_neg Bool.false_ne_true, if_neg Bool.false_ne_true]
  by_cases hempty : head.argument = 0
  · have hpast : PastHead { s with pendingBytes := 0 } levels :=
      { h with pendingBytes_eq := rfl }
    rw [if_pos hempty]
    refine ⟨_, rfl, .done (hpayload.trans hempty) ?_⟩
    rw [hopened]
    exact hpast.finishItem
  · rw [if_neg hempty]
    refine ⟨_, rfl, .string (by omega) hopened ?_⟩
    rw [hpayload]

theorem payloadLength_of_nests (hnests : head.nests) : head.payloadLength = 0 := by
  unfold Cbor.Head.nests at hnests
  exact if_neg (by omega)

theorem PastHead.scanNested (h : PastHead s levels) (hnests : head.nests)
    (hroom : levels.length < maxNestedLevels) {children : Nat} (hchildren : children = head.childCount)
    (size : Nat) :
    ∃ s', Protocol.scanNested maxNestedLevels children
      ⟨head.major, head.argument, false, false, size⟩ s = .ok s' ∧ Rest head levels s s' := by
  rcases h.pushFrame (.counted head.childCount) hroom with ⟨s', hpush, hpast, hoffset⟩
  rw [frameOf] at hpush
  rw [Protocol.scanNested, hchildren, hpush]
  refine ⟨_, rfl, .done (payloadLength_of_nests hnests) ?_⟩
  rw [Cbor.opened_of_nests hnests, ← hoffset]
  exact hpast.finishItem

theorem PastHead.tag (h : PastHead s levels) (hmajor : head.major = 6)
    (hroom : levels.length < maxNestedLevels) :
    ∃ s', s.pushFrame maxNestedLevels ⟨1, false⟩ = .ok s' ∧ Rest head levels s s' := by
  have hnests : head.nests := by
    unfold Cbor.Head.nests
    omega
  have hchildren : head.childCount = 1 := by
    simp only [Cbor.Head.childCount, hmajor]
  rcases h.pushFrame (.counted 1) hroom with ⟨s', hpush, hpast, hoffset⟩
  refine ⟨s', hpush, .done (payloadLength_of_nests hnests) ?_⟩
  rw [Cbor.opened_of_nests hnests, hchildren]
  exact { hpast with offset_eq := hoffset }

theorem PastHead.scanContent (h : PastHead s levels) (size : Nat)
    (hroom : head.nests → levels.length < maxNestedLevels) (hcount : head.childCount < 2 ^ 64) :
    ∃ s', Protocol.scanContent maxNestedLevels ⟨head.major, head.argument, false, false, size⟩ s =
      .ok s' ∧ Rest head levels s s' := by
  have hlt := head.major_lt
  have hmajor : head.major < 2 ∨ head.major = 7 ∨ (head.major = 2 ∨ head.major = 3) ∨
      head.major = 4 ∨ head.major = 5 ∨ head.major = 6 := by omega
  rcases hmajor with hmajor | hmajor | hmajor | hmajor | hmajor | hmajor
  · refine ⟨s.finishItem, ?_, h.plain (.inl hmajor)⟩
    have hmajor : head.major = 0 ∨ head.major = 1 := by omega
    rcases hmajor with hmajor | hmajor
    · rw [hmajor]
      rfl
    · rw [hmajor]
      rfl
  · refine ⟨s.finishItem, ?_, h.plain (.inr hmajor)⟩
    rw [hmajor]
    rfl
  · rcases @PastHead.scanString maxNestedLevels s levels head h hmajor size with ⟨s', hstring, hrest⟩
    refine ⟨s', ?_, hrest⟩
    rw [← hstring]
    rcases hmajor with hmajor | hmajor
    · rw [hmajor]
      rfl
    · rw [hmajor]
      rfl
  · have hnests : head.nests := ⟨by omega, by omega⟩
    have hchildren : head.argument = head.childCount := by
      simp only [Cbor.Head.childCount, hmajor]
    rcases h.scanNested hnests (hroom hnests) hchildren size with ⟨s', hnested, hrest⟩
    refine ⟨s', ?_, hrest⟩
    rw [← hnested, hmajor]
    rfl
  · have hnests : head.nests := ⟨by omega, by omega⟩
    have hchildren : head.argument * 2 = head.childCount := by
      simp only [Cbor.Head.childCount, hmajor, Nat.mul_comm]
    rcases h.scanNested hnests (hroom hnests) hchildren size with ⟨s', hnested, hrest⟩
    refine ⟨s', ?_, hrest⟩
    -- the count fits, since the items of the map are there
    have hfits : ¬ head.argument > (2 ^ 64 - 1) / 2 := by omega
    rw [← hnested, hmajor]
    simp only [Protocol.scanContent, hfits, and_false, if_false, Bool.false_eq_true]
  · have hnests : head.nests := ⟨by omega, by omega⟩
    rcases h.tag hmajor (hroom hnests) with ⟨s', hpush, hrest⟩
    refine ⟨s', ?_, hrest⟩
    rw [← hpush, hmajor]
    rfl

end

/-! ## Rounds on tokens -/

section
variable {level : Level} {outer : List Level} {pre post : ByteString} {messageType : Nat}

theorem Reads.scanRound_eq {first : UInt8} (h : Reads s (level :: outer) pre.length)
    (hdata : data = pre ++ first :: post) :
    scanRound maxNestedLevels data 0 s =
      if (frameOf level).indefinite ∧ first = 0xff then
        .finished { s with offset := s.offset + 1, frames := outer.map frameOf }.finishItem
      else if (frameOf level).indefinite = false ∧ (frameOf level).remaining = 0 then
        .finished { s with frames := outer.map frameOf }.finishItem
      else scanItem maxNestedLevels data 0 s (frameOf level) (outer.map frameOf) := by
  have hopen : ¬ s.complete := by
    rw [h.complete_eq]
    exact nofun
  have hpending : ¬ s.pendingBytes > 0 := by
    rw [h.pendingBytes_eq]
    exact Nat.lt_irrefl 0
  have hstarted : ¬ s.started = false := by
    rw [h.started_eq]
    exact nofun
  have hpresent : ¬ s.offset ≥ data.length := by
    rw [h.offset_eq, hdata, List.length_append, List.length_cons]
    omega
  have hbyte : data[s.offset]? = some first := by
    rw [h.offset_eq, hdata, List.getElem?_append_right le_rfl, Nat.sub_self]
    rfl
  rw [scanRound, if_neg hopen, scanStep, exceedsLimit_zero, if_neg Bool.false_ne_true,
    if_neg hpending, if_neg hstarted, scanInside, h.frames_eq, List.map_cons]
  dsimp only
  rw [if_neg hpresent, hbyte]
  simp only [Option.some.injEq]

theorem Reads.scanRound_item {first : UInt8} (h : Reads s (level :: outer) pre.length)
    (hhas : level.Has 1) (hdata : data = pre ++ first :: post) (hfirst : first ≠ Cbor.breakByte) :
    scanRound maxNestedLevels data 0 s =
      scanItem maxNestedLevels data 0 s (frameOf level) (outer.map frameOf) := by
  have hbreak : ¬ ((frameOf level).indefinite ∧ first = 0xff) := fun hbreak => hfirst hbreak.2
  have hleft : ¬ ((frameOf level).indefinite = false ∧ (frameOf level).remaining = 0) := by
    rintro ⟨hcounted, hempty⟩
    cases level with
    | counted left =>
      have hempty : left = 0 := hempty
      have hhas : 1 ≤ left := hhas
      omega
    | unbounded => cases hcounted
  rw [h.scanRound_eq hdata, if_neg hbreak, if_neg hleft]

theorem Reads.stop (h : Reads s (.unbounded :: outer) pre.length)
    (hdata : data = pre ++ Cbor.breakByte :: post) (htype : Typed s messageType) :
    ∃ s', Leads maxNestedLevels data s s' ∧ Typed s' messageType ∧
      Reads s' (settle outer) (pre.length + 1) := by
  have hround := @Reads.scanRound_eq maxNestedLevels data s _ outer pre post _ h hdata
  have hpast : PastHead { s with offset := s.offset + 1, frames := outer.map frameOf } outer :=
    { h with frames_eq := rfl }
  refine ⟨_, leads_finished hround, { htype with }, ?_⟩
  rw [← h.offset_eq]
  exact hpast.finishItem

/-- The message type is known, or the next item is the message type. -/
def TypeNext (s : MessageScanner) (outer : List Level) (head : Cbor.Head) (messageType : Nat) : Prop :=
  Typed s messageType ∨
    s.rootItems = 0 ∧ outer = [] ∧ head.major = 0 ∧ head.argument = messageType

variable {s' : MessageScanner}

theorem leads_scanItem {parent : MessageScanFrame} {frames : List MessageScanFrame}
    {head : WalkHead}
    (hround : scanRound maxNestedLevels data 0 s = scanItem maxNestedLevels data 0 s parent frames)
    (hhead : readHead data s.offset = .ok (some head))
    (hfirst : frames.isEmpty → s.rootItems = 0 →
      head.major = 0 ∧ head.indefinite = false ∧ head.isBreak = false ∧ head.argument < 2 ^ 64)
    (hcontent : scanContent maxNestedLevels head (s.readItemHead parent frames head) = .ok s') :
    Leads maxNestedLevels data s s' := by
  rw [scanItem, hhead] at hround
  dsimp only at hround
  rw [exceedsLimit_zero, hcontent] at hround
  by_cases hroot : (frames.isEmpty && s.rootItems == 0)
  · have hroot' := hroot
    rw [Bool.and_eq_true, beq_iff_eq] at hroot'
    rcases hfirst hroot'.1 hroot'.2 with ⟨hmajor, hdefinite, hbreak, hargument⟩
    have hvalid : ¬ (head.major ≠ 0 ∨ head.indefinite ∨ head.isBreak) := by
      simp [hmajor, hdefinite, hbreak]
    rw [if_neg fun h => hvalid h.2, if_neg (by omega), if_neg Bool.false_ne_true] at hround
    dsimp only at hround
    rw [if_pos hroot] at hround
    exact fun out hout => .next (.inr hround) hout
  · rw [if_neg fun h => hroot h.1, if_neg fun h => hroot h.1, if_neg Bool.false_ne_true] at hround
    dsimp only at hround
    rw [if_neg hroot] at hround
    exact leads_finished hround

theorem typed_readItemHead {head : WalkHead}
    (h : Typed s messageType ∨ s.rootItems = 0 ∧ outer = [] ∧ head.argument = messageType) :
    Typed (s.readItemHead (frameOf level) (outer.map frameOf) head) messageType := by
  rcases h with h | ⟨hroot, rfl, htype⟩
  · have hknown : (s.rootItems == 0) = false := beq_false_of_ne h.rootItems_pos.ne'
    refine ⟨?_, ?_, ?_⟩
    · simp only [MessageScanner.readItemHead]
      split
      · exact Nat.succ_pos _
      · exact h.rootItems_pos
    · simp [MessageScanner.readItemHead, h.hasMessageType_eq]
    · simp [MessageScanner.readItemHead, hknown, h.messageType_eq]
  · refine ⟨?_, ?_, ?_⟩
    · simp [MessageScanner.readItemHead]
    · simp [MessageScanner.readItemHead, hroot]
    · simp [MessageScanner.readItemHead, hroot, htype]

theorem Typed.opens (h : Typed s messageType) (hopens : Opens s s') : Typed s' messageType :=
  ⟨hopens.rootItems_eq ▸ h.rootItems_pos, hopens.hasMessageType_eq.trans h.hasMessageType_eq,
    hopens.messageType_eq.trans h.messageType_eq⟩

theorem Reads.pastHead (h : Reads s (level :: outer) pre.length) (head : WalkHead) :
    PastHead (s.readItemHead (frameOf level) (outer.map frameOf) head) (level.less 1 :: outer) := by
  refine ⟨?_, h.started_eq, h.complete_eq, h.pendingBytes_eq⟩
  simp only [MessageScanner.readItemHead]
  rw [frameOf_less]
  rfl

variable {head : Cbor.Head}

theorem Reads.item (h : Reads s (level :: outer) pre.length) (hhas : level.Has 1)
    (hroom : head.nests → outer.length + 1 < maxNestedLevels) (hcount : head.childCount < 2 ^ 64)
    (hdata : data = pre ++ (head.bytes ++ post)) (htype : TypeNext s outer head messageType) :
    ∃ s₀ s₁, Leads maxNestedLevels data s s₁ ∧ Typed s₁ messageType ∧
      s₀.offset = pre.length + head.bytes.length ∧ PastHead s₀ (level.less 1 :: outer) ∧
      Rest head (level.less 1 :: outer) s₀ s₁ := by
  have hround := @Reads.scanRound_item maxNestedLevels data s level outer pre (head.extra ++ post)
    head.initialByte h hhas hdata (Cbor.initialByte_ne_break head)
  have hhead := readHead_head pre post head
  rw [← hdata, ← h.offset_eq] at hhead
  have hpast := h.pastHead ⟨head.major, head.argument, false, false, head.bytes.length⟩
  rcases hpast.scanContent head.bytes.length hroom hcount with ⟨s₁, hcontent, hrest⟩
  have htyped := @typed_readItemHead s level outer messageType
    ⟨head.major, head.argument, false, false, head.bytes.length⟩
    (htype.imp_right fun hnext => ⟨hnext.1, hnext.2.1, hnext.2.2.2⟩)
  refine ⟨_, s₁, leads_scanItem hround hhead ?_ hcontent,
    htyped.opens (scanContent_opens hpast.pendingBytes_eq hcontent), ?_, hpast, hrest⟩
  · intro _ hroot
    rcases htype with htype | ⟨-, -, hmajor, -⟩
    · exact absurd hroot htype.rootItems_pos.ne'
    · exact ⟨hmajor, rfl, rfl, head.argument_lt⟩
  · simp only [MessageScanner.readItemHead]
    rw [h.offset_eq]

theorem PastHead.finishItem_unbounded
    (h : PastHead s (.unbounded :: outer)) : s.finishItem = s := by
  have hframes : closeFrames s.frames = s.frames := by
    rw [h.frames_eq]
    rfl
  have hnonempty : s.frames.isEmpty = false := by
    rw [h.frames_eq]
    rfl
  rw [MessageScanner.finishItem, hframes, hnonempty, Bool.or_false]

theorem Reads.start {major : Nat} (h : Reads s (level :: outer) pre.length) (hhas : level.Has 1)
    (hlow : 2 ≤ major) (hhigh : major ≤ 5) (hroom : outer.length + 1 < maxNestedLevels)
    (hdata : data = pre ++ Cbor.indefiniteByte major :: post) (htype : Typed s messageType) :
    ∃ s', Leads maxNestedLevels data s s' ∧ Typed s' messageType ∧
      Reads s' (.unbounded :: level.less 1 :: outer) (pre.length + 1) := by
  have hround := @Reads.scanRound_item maxNestedLevels data s level outer pre post _ h hhas hdata
    (Cbor.indefiniteByte_ne_break hhigh)
  have hhead := readHead_start pre post hlow hhigh
  rw [← hdata, ← h.offset_eq] at hhead
  have hpast := h.pastHead ⟨major, 0, true, false, 1⟩
  rcases hpast.pushFrame .unbounded hroom with ⟨s', hpush, hpast', hoffset⟩
  rw [frameOf] at hpush
  have hreads : Reads s' (.unbounded :: level.less 1 :: outer) (pre.length + 1) := by
    refine { hpast' with offset_eq := ?_ }
    rw [hoffset, ← h.offset_eq]
    rfl
  have hnested : scanNested maxNestedLevels 0 ⟨major, 0, true, false, 1⟩
      (s.readItemHead (frameOf level) (outer.map frameOf) ⟨major, 0, true, false, 1⟩) = .ok s' := by
    rw [scanNested, hpush]
    exact congrArg Except.ok hpast'.finishItem_unbounded
  have hcontent : scanContent maxNestedLevels ⟨major, 0, true, false, 1⟩
      (s.readItemHead (frameOf level) (outer.map frameOf) ⟨major, 0, true, false, 1⟩) = .ok s' := by
    have hmajor : major = 2 ∨ major = 3 ∨ major = 4 ∨ major = 5 := by omega
    rcases hmajor with rfl | rfl | rfl | rfl
    · exact hpush
    · exact hpush
    · exact hnested
    · exact hnested
  refine ⟨s', leads_scanItem hround hhead ?_ hcontent, ?_, hreads⟩
  · intro _ hroot
    exact absurd hroot htype.rootItems_pos.ne'
  · exact (typed_readItemHead (.inl htype)).opens (scanContent_opens hpast.pendingBytes_eq hcontent)

variable {levels levels' : List Level}

theorem PastHead.string {payload : ByteString} (h : PastHead s levels)
    (hoffset : s.offset = pre.length) (hpayload : 0 < payload.length)
    (hdata : data = pre ++ (payload ++ post)) (htype : Typed s messageType) :
    ∃ s', Leads maxNestedLevels data { s with pendingBytes := payload.length } s' ∧
      Typed s' messageType ∧ Reads s' (settle levels) (pre.length + payload.length) := by
  have hopen : ¬ s.complete := by
    rw [h.complete_eq]
    exact nofun
  have hall : min (data.length - s.offset) payload.length = payload.length := by
    rw [hoffset, hdata, List.length_append, List.length_append]
    omega
  have hround : scanRound maxNestedLevels data 0 { s with pendingBytes := payload.length } =
      .finished { s with
        offset := s.offset + payload.length, pendingBytes := 0 }.finishItem := by
    rw [scanRound, if_neg hopen, scanStep, exceedsLimit_zero, if_neg Bool.false_ne_true,
      if_pos hpayload, scanPending]
    simp only [hall, Nat.sub_self, Nat.lt_irrefl, gt_iff_lt, if_false]
  have hpast : PastHead { s with offset := s.offset + payload.length, pendingBytes := 0 } levels :=
    { h with pendingBytes_eq := rfl }
  refine ⟨_, leads_finished hround, { htype with }, ?_⟩
  rw [← hoffset]
  exact hpast.finishItem

theorem Rest.offset (h : Rest head levels s s') : s'.offset = s.offset := by
  cases h with
  | done hpayload hreads => exact hreads.offset_eq
  | string hpayload hopened hs => rw [hs]

theorem Rest.weight (h : Rest head levels s s') : s'.weight = s.offset + head.payloadLength := by
  unfold MessageScanner.weight
  cases h with
  | done hpayload hreads => rw [hreads.offset_eq, hreads.pendingBytes_eq, hpayload]
  | string hpayload hopened hs => rw [hs]

theorem Reads.wholeItem {payload : ByteString} (h : Reads s (level :: outer) pre.length)
    (hhas : level.Has 1) (hroom : head.nests → outer.length + 1 < maxNestedLevels)
    (hcount : head.childCount < 2 ^ 64) (hpayload : payload.length = head.payloadLength)
    (hdata : data = pre ++ (head.bytes ++ (payload ++ post)))
    (htype : TypeNext s outer head messageType) :
    ∃ s', Leads maxNestedLevels data s s' ∧ Typed s' messageType ∧
      Reads s' (settle (Cbor.opened head (level.less 1 :: outer)))
        (pre.length + (head.bytes.length + payload.length)) := by
  rcases h.item hhas hroom hcount hdata htype with ⟨s₀, s₁, hleads, htyped, hoffset, hpast, hrest⟩
  cases hrest with
  | done hempty hreads =>
    refine ⟨s₁, hleads, htyped, ?_⟩
    rw [hpayload, hempty, Nat.add_zero, ← hoffset]
    exact hreads
  | string hpending hopened hs =>
    subst hs
    have htyped₀ : Typed s₀ messageType := { htyped with }
    have hdata' : data = pre ++ head.bytes ++ (payload ++ post) := by
      rw [hdata, List.append_assoc]
    rw [← List.length_append] at hoffset
    rw [← hpayload] at hpending hleads
    rcases @PastHead.string maxNestedLevels data s₀ (pre ++ head.bytes) post messageType _ payload
      hpast hoffset hpending hdata' htyped₀ with ⟨s', hleads', htyped', hreads⟩
    refine ⟨s', hleads.trans hleads', htyped', ?_⟩
    rw [hopened, ← Nat.add_assoc, ← List.length_append]
    exact hreads

/-! ## Sequences of tokens -/

theorem Reads.header {token : Token} (h : Reads s levels pre.length)
    (hadvance : Cbor.Advance maxNestedLevels levels token levels')
    (hcount : token.childCount < 2 ^ 64) (hdata : data = pre ++ (token.header ++ post))
    (htype : Typed s messageType) :
    ∃ s', Leads maxNestedLevels data s s' ∧ s'.offset = pre.length + token.header.length ∧
      s'.weight = pre.length + token.bytes.length := by
  cases hadvance with
  | item head payload hpayload hhas hroom =>
    rcases h.item hhas hroom hcount hdata (.inl htype) with
      ⟨s₀, s₁, hleads, -, hoffset, -, hrest⟩
    refine ⟨s₁, hleads, hrest.offset.trans hoffset, ?_⟩
    rw [hrest.weight, hoffset, ← hpayload, Token.bytes, List.length_append, Nat.add_assoc]
    rfl
  | start major hlow hhigh hhas hroom =>
    rcases h.start hhas hlow hhigh hroom hdata htype with ⟨s', hleads, -, hreads⟩
    exact ⟨s', hleads, hreads.offset_eq, hreads.weight⟩
  | stop =>
    rcases h.stop hdata htype with ⟨s', hleads, -, hreads⟩
    exact ⟨s', hleads, hreads.offset_eq, hreads.weight⟩

theorem Reads.token {token : Token} (h : Reads s levels pre.length)
    (hadvance : Cbor.Advance maxNestedLevels levels token levels')
    (hcount : token.childCount < 2 ^ 64) (hdata : data = pre ++ (token.bytes ++ post))
    (htype : Typed s messageType) :
    ∃ s', Leads maxNestedLevels data s s' ∧ Typed s' messageType ∧
      Reads s' levels' (pre ++ token.bytes).length := by
  rw [List.length_append]
  cases hadvance with
  | item head payload hpayload hhas hroom =>
    rw [Token.bytes, List.length_append]
    rw [Token.bytes, List.append_assoc] at hdata
    exact h.wholeItem hhas hroom hcount hpayload hdata (.inl htype)
  | start major hlow hhigh hhas hroom => exact h.start hhas hlow hhigh hroom hdata htype
  | stop => exact h.stop hdata htype

theorem Reads.tokens {tokens : List Token}
    (hadvances : Cbor.Advances maxNestedLevels levels tokens levels') :
    ∀ {s : MessageScanner} {pre : ByteString}, Reads s levels pre.length →
      (∀ token ∈ tokens, token.childCount < 2 ^ 64) → data = pre ++ (tokenBytes tokens ++ post) →
      Typed s messageType →
      ∃ s', Leads maxNestedLevels data s s' ∧ Typed s' messageType ∧
        Reads s' levels' (pre ++ tokenBytes tokens).length := by
  induction hadvances with
  | nil =>
    intro s pre h _ _ htype
    refine ⟨s, fun out hout => hout, htype, ?_⟩
    rw [Cbor.tokenBytes_nil, List.append_nil]
    exact h
  | @cons before between after token tokens hfirst hrest ih =>
    intro s pre h hcount hdata htype
    rw [Cbor.tokenBytes_cons, List.append_assoc] at hdata
    rcases h.token hfirst (hcount token (List.mem_cons_self ..)) hdata htype with
      ⟨s₁, hleads, htype₁, h₁⟩
    rw [← List.append_assoc] at hdata
    rcases ih h₁ (fun t ht => hcount t (List.mem_cons_of_mem token ht)) hdata htype₁ with
      ⟨s', hleads', htype', h'⟩
    refine ⟨s', hleads.trans hleads', htype', ?_⟩
    rw [Cbor.tokenBytes_cons, ← List.append_assoc]
    exact h'

end

/-! ## The head of the message -/

/-- The token of an array, and the level that it opens. -/
inductive IsRoot : Token → Level → Prop
  | counted (head : Cbor.Head) (hmajor : head.major = 4) :
      IsRoot (.item head []) (.counted head.argument)
  | unbounded : IsRoot (.start 4) .unbounded

def rootScanner (offset : Nat) (level : Level) : MessageScanner :=
  ⟨offset, [frameOf level], true, false, 0, 0, 0, false⟩

theorem pastHead_root (offset : Nat) (level : Level) : PastHead (rootScanner offset level)
    [level] :=
  ⟨rfl, rfl, rfl, rfl⟩

theorem scanRound_new {head : WalkHead} (hlevels : 0 < maxNestedLevels)
    (hhead : readHead data 0 = .ok (some head)) (hmajor : head.major = 4)
    (hbreak : head.isBreak = false) :
    scanRound maxNestedLevels data 0 .new =
      if head.indefinite then
        .again ⟨head.encodedSize, [⟨head.argument, head.indefinite⟩], true, false, 0, 0, 0, false⟩
      else
        .finished (MessageScanner.finishItem
          ⟨head.encodedSize, [⟨head.argument, head.indefinite⟩], true, false, 0, 0, 0, false⟩) := by
  have harray : ¬ (head.major ≠ 4 ∨ head.isBreak) := by simp [hmajor, hbreak]
  have hroom : ¬ ([] : List MessageScanFrame).length ≥ maxNestedLevels := Nat.not_le.mpr hlevels
  have hround : scanRound maxNestedLevels data 0 .new = scanRoot maxNestedLevels data 0 .new := rfl
  rw [hround, scanRoot, MessageScanner.new]
  rw [hhead]
  dsimp only
  rw [if_neg harray, exceedsLimit_zero, if_neg Bool.false_ne_true, MessageScanner.pushFrame,
    if_neg hroom, Nat.zero_add]

theorem Reads.root {token : Token} {level : Level} {post : ByteString} (hroot : IsRoot token level)
    (hlevels : 0 < maxNestedLevels) (hdata : data = token.header ++ post) :
    ∃ s', Leads maxNestedLevels data .new s' ∧ s'.rootItems = 0 ∧
      Reads s' (settle [level]) token.bytes.length := by
  cases hroot with
  | counted head hmajor =>
    have hhead := readHead_head [] post head
    have hround := scanRound_new hlevels (hdata ▸ hhead) hmajor rfl
    have hreads := (pastHead_root head.bytes.length (.counted head.argument)).finishItem
    refine ⟨_, leads_finished hround, rfl, ?_⟩
    rw [Token.bytes, Token.payload, List.append_nil]
    exact hreads
  | unbounded =>
    have hhead := readHead_start [] post (show 2 ≤ 4 by decide) (show 4 ≤ 5 by decide)
    have hround := scanRound_new hlevels (hdata ▸ hhead) rfl rfl
    have hpast := pastHead_root 1 .unbounded
    exact ⟨_, fun out hout => .next (.inl hround) hout, rfl, ⟨rfl, hpast.frames_eq, rfl, rfl, rfl⟩⟩

end

/-! ## Messages -/

/-- A well-formed array within the bound on nesting whose first element is an unsigned integer. -/
def IsMessage (maxNestedLevels messageType : Nat) (m : ByteString) : Prop :=
  (∃ depth ≤ maxNestedLevels, Cbor.Items depth 1 m) ∧
    ∃ (first : Cbor.Head) (rest : ByteString), first.major = 0 ∧ first.argument = messageType ∧
      ((∃ root : Cbor.Head, root.major = 4 ∧ m = root.bytes ++ (first.bytes ++ rest)) ∨
        m = Cbor.indefiniteByte 4 :: (first.bytes ++ rest))

/-- The tokens of a message: the array, the message type, and tokens that close the array. -/
structure MessageTokens (maxNestedLevels messageType : Nat) (root : Token) (level : Level)
    (first : Cbor.Head) (rest : List Token) : Prop where
  root_eq : IsRoot root level
  has_first : level.Has 1
  major_eq : first.major = 0
  argument_eq : first.argument = messageType
  advances : Cbor.Advances maxNestedLevels (settle [level.less 1]) rest []
  count_lt : ∀ token ∈ rest, token.childCount < 2 ^ 64

theorem first_token {maxNestedLevels : Nat} {level : Level} {tokens : List Token}
    {first : Cbor.Head}
    {rest : ByteString} (h : Cbor.Advances maxNestedLevels (settle [level]) tokens [])
    (hmajor : first.major = 0) (hbytes : tokenBytes tokens = first.bytes ++ rest) :
    ∃ later, tokens = .item first [] :: later ∧ level.Has 1 ∧
      Cbor.Advances maxNestedLevels (settle [level.less 1]) later [] := by
  cases tokens with
  | nil => cases hbytes
  | cons token later =>
    rw [Cbor.tokenBytes_cons, Token.bytes, List.append_assoc] at hbytes
    cases h with
    | cons hfirst hrest =>
      have hopen : settle [level] = [level] := by
        cases level with
        | counted left =>
          cases left with
          | zero => cases hfirst
          | succ left => rfl
        | unbounded => rfl
      rw [hopen] at hfirst
      cases hfirst with
      | item head payload hpayload hhas hroom =>
        rcases Cbor.Head.append_inj hbytes with ⟨rfl, -⟩
        have hempty : head.payloadLength = 0 := if_neg (by omega)
        have hopened : Cbor.opened head [level.less 1] = [level.less 1] := if_neg (by omega)
        rw [hempty, List.length_eq_zero_iff] at hpayload
        rw [hopened] at hrest
        exact ⟨later, by rw [hpayload], hhas, hrest⟩
      | start major hlow hhigh hhas hroom =>
        injection hbytes with hbyte _
        exact absurd hbyte.symm (Cbor.initialByte_ne_indefiniteByte first hhigh)
      | stop =>
        injection hbytes with hbyte _
        exact absurd hbyte.symm (Cbor.initialByte_ne_break first)

section
variable {maxNestedLevels messageType : Nat} {m : ByteString}

theorem IsMessage.tokens {depth : Nat} {tokens : List Token}
    (h : IsMessage maxNestedLevels messageType m) (hlength : m.length < 2 ^ 63)
    (htokens : Cbor.ItemTokens depth 1 tokens) (hdepth : depth ≤ maxNestedLevels)
    (hbytes : tokenBytes tokens = m) :
    ∃ root level first rest, tokens = root :: .item first [] :: rest ∧
      MessageTokens maxNestedLevels messageType root level first rest := by
  rcases h with ⟨-, first, x, hmajor, hargument, hstart⟩
  have hcount : ∀ token ∈ tokens, token.childCount < 2 ^ 64 := by
    intro token htoken
    have hle := htokens.childCount_le htoken
    rw [hbytes] at hle
    omega
  -- a level that the first token opens, and the tokens behind it
  have hrest : ∃ root level later, tokens = root :: later ∧ IsRoot root level ∧
      Cbor.Advances maxNestedLevels (settle [level]) later [] ∧
      tokenBytes later = first.bytes ++ x := by
    cases htokens with
    | @definite _ _ children rest head payload hpayload hnests hchildren hrest =>
      rw [hrest.eq_nil, List.append_nil] at hbytes ⊢
      rw [Cbor.tokenBytes_cons, Token.bytes, List.append_assoc] at hbytes
      rcases hstart with ⟨root, hroot, rfl⟩ | rfl
      · rcases Cbor.Head.append_inj hbytes with ⟨rfl, hinner⟩
        have hdepth' := hnests ⟨by omega, by omega⟩
        have hempty : head.payloadLength = 0 := if_neg (by omega)
        rw [hempty, List.length_eq_zero_iff] at hpayload
        have hchildCount : head.childCount = head.argument := by
          simp only [Cbor.Head.childCount, hroot]
        have hrun := hchildren.advances maxNestedLevels (.counted head.childCount) []
          (Nat.le_refl _) (by rw [List.length_nil]; omega)
        rw [Level.less, Nat.sub_self, Cbor.settle_finished, hchildCount] at hrun
        rw [hpayload] at hinner ⊢
        exact ⟨_, _, _, rfl, .counted head hroot, hrun, hinner⟩
      · injection hbytes with hbyte _
        exact absurd hbyte (Cbor.initialByte_ne_indefiniteByte head (by decide))
    | @indefinite depth _ inner children rest major hlow hhigh hchildren hrest =>
      rw [hrest.eq_nil] at hbytes ⊢
      rcases hstart with ⟨root, hroot, rfl⟩ | rfl
      · injection hbytes with hbyte _
        exact absurd hbyte.symm (Cbor.initialByte_ne_indefiniteByte root hhigh)
      · injection hbytes with hbyte hinner
        have hfour : 32 * major + 31 = 32 * 4 + 31 := by
          rw [← Cbor.toNat_indefiniteByte hhigh, ← Cbor.toNat_indefiniteByte (by decide), hbyte]
        have hfour : major = 4 := by omega
        subst hfour
        have hrun := hchildren.advances maxNestedLevels .unbounded [] trivial
          (by rw [List.length_nil]; omega)
        exact ⟨_, _, _, rfl, .unbounded, hrun.append (.cons .stop .nil), hinner⟩
  rcases hrest with ⟨root, level, later, rfl, hroot, hadvances, hlater⟩
  rcases first_token hadvances hmajor hlater with ⟨rest, rfl, hhas, hrun⟩
  refine ⟨root, level, first, rest, rfl, hroot, hhas, hmajor, hargument, hrun, ?_⟩
  intro token htoken
  exact hcount token (List.mem_cons_of_mem _ (List.mem_cons_of_mem _ htoken))

variable {data post : ByteString} {root : Token} {level : Level} {first : Cbor.Head}
  {rest : List Token}

section

variable (h : MessageTokens maxNestedLevels messageType root level first rest)
include h

section

variable (hlevels : 0 < maxNestedLevels)
include hlevels

theorem MessageTokens.typed (hdata : data = root.bytes ++ (first.bytes ++ post)) :
    ∃ s', Leads maxNestedLevels data .new s' ∧ Typed s' messageType ∧
      Reads s' (settle [level.less 1]) (root.bytes ++ first.bytes).length := by
  have hroot : data = root.header ++ (root.payload ++ (first.bytes ++ post)) := by
    rw [hdata, Token.bytes, List.append_assoc]
  rcases Reads.root h.root_eq hlevels hroot with ⟨s₁, hleads, hitems, hreads⟩
  rw [Cbor.settle_of_has h.has_first] at hreads
  have hmajor := h.major_eq
  have hcount : first.childCount < 2 ^ 64 := by
    rw [Cbor.childCount_of_not_nests (by unfold Cbor.Head.nests; omega)]
    decide
  have hempty : ([] : ByteString).length = first.payloadLength := (if_neg (by omega)).symm
  have hopened : Cbor.opened first [level.less 1] = [level.less 1] := if_neg (by omega)
  have hnests : first.nests → ([] : List Level).length + 1 < maxNestedLevels := by
    unfold Cbor.Head.nests
    omega
  rcases hreads.wholeItem h.has_first hnests hcount hempty hdata
    (.inr ⟨hitems, rfl, hmajor, h.argument_eq⟩) with ⟨s', hleads', htyped, hreads'⟩
  refine ⟨s', hleads.trans hleads', htyped, ?_⟩
  rw [hopened] at hreads'
  rw [List.length_append]
  exact hreads'

theorem MessageTokens.reads {before : List Token} {between : List Level}
    (hrun : Cbor.Advances maxNestedLevels (settle [level.less 1]) before between)
    (hcount : ∀ token ∈ before, token.childCount < 2 ^ 64)
    (hdata : data = tokenBytes (root :: .item first [] :: before) ++ post) :
    ∃ s', Leads maxNestedLevels data .new s' ∧ Typed s' messageType ∧
      Reads s' between (tokenBytes (root :: .item first [] :: before)).length := by
  have hbytes : tokenBytes (root :: .item first [] :: before) =
      root.bytes ++ first.bytes ++ tokenBytes before := by
    simp [Token.bytes, Token.header, Token.payload]
  rw [hbytes] at hdata ⊢
  rw [List.append_assoc] at hdata
  rcases h.typed hlevels (hdata.trans (List.append_assoc ..)) with ⟨s₁, hleads, htyped, hreads⟩
  rcases Reads.tokens hrun hreads hcount hdata htyped with ⟨s', hleads', htyped', hreads'⟩
  exact ⟨s', hleads.trans hleads', htyped', hreads'⟩

theorem MessageTokens.runs (hdata : data = tokenBytes (root :: .item first [] :: rest) ++ post) :
    ∃ s', Runs maxNestedLevels data 0 .new (.final s' none) ∧ s'.complete ∧
      s'.offset = (tokenBytes (root :: .item first [] :: rest)).length ∧
      s'.weight = (tokenBytes (root :: .item first [] :: rest)).length ∧
      s'.messageType = messageType ∧ s'.hasMessageType := by
  rcases h.reads hlevels h.advances h.count_lt hdata with ⟨s', hleads, htyped, hreads⟩
  have hround : scanRound maxNestedLevels data 0 s' = .final s' none := if_pos hreads.complete_eq
  exact ⟨s', hleads _ (.final hround), hreads.complete_eq, hreads.offset_eq, hreads.weight,
    htyped.messageType_eq, htyped.hasMessageType_eq⟩

theorem MessageTokens.passes {before after : List Token} {token : Token}
    (htokens : root :: .item first [] :: rest = before ++ token :: after)
    (hdata : data = tokenBytes before ++ (token.header ++ post)) :
    ∃ s', Leads maxNestedLevels data .new s' ∧
      s'.offset = (tokenBytes before).length + token.header.length ∧
      s'.weight = (tokenBytes before).length + token.bytes.length := by
  cases before with
  | nil =>
    injection htokens with htoken _
    subst htoken
    rcases Reads.root h.root_eq hlevels hdata with ⟨s₁, hleads, -, hreads⟩
    have hheader : root.bytes.length = root.header.length := by
      rw [Token.bytes, List.length_append]
      cases h.root_eq with
      | counted head hmajor => rfl
      | unbounded => rfl
    refine ⟨s₁, hleads, ?_, ?_⟩
    · rw [hreads.offset_eq, hheader, Cbor.tokenBytes_nil, List.length_nil, Nat.zero_add]
    · rw [hreads.weight, Cbor.tokenBytes_nil, List.length_nil, Nat.zero_add]
  | cons root' before =>
    injection htokens with hroot htokens
    subst hroot
    cases before with
    | nil =>
      injection htokens with htoken _
      subst htoken
      have hdata' : data = root.bytes ++ (first.bytes ++ post) := by
        rw [hdata, Cbor.tokenBytes_cons, Cbor.tokenBytes_nil, List.append_nil]
        rfl
      rcases h.typed hlevels hdata' with ⟨s₁, hleads, -, hreads⟩
      refine ⟨s₁, hleads, ?_, ?_⟩
      · rw [hreads.offset_eq, Cbor.tokenBytes_cons, Cbor.tokenBytes_nil, List.append_nil,
          List.length_append]
        rfl
      · have htoken : (Token.item first []).bytes = first.bytes := List.append_nil _
        rw [hreads.weight, Cbor.tokenBytes_cons, Cbor.tokenBytes_nil, List.append_nil,
          List.length_append, htoken]
    | cons second before =>
      injection htokens with hsecond htokens
      subst hsecond htokens
      rcases h.advances.split with ⟨between, next, hrun, hadvance⟩
      have hcount : ∀ token ∈ before, token.childCount < 2 ^ 64 := fun token htoken =>
        h.count_lt token (List.mem_append_left _ htoken)
      rcases h.reads hlevels hrun hcount hdata with ⟨s₁, hleads, htyped, hreads⟩
      rcases hreads.header hadvance (h.count_lt token (by simp)) hdata htyped with
        ⟨s', hleads', hoffset, hweight⟩
      exact ⟨s', hleads.trans hleads', hoffset, hweight⟩

end

end

end

end Gouroboros.Protocol

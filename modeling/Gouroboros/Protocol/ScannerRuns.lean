import Gouroboros.Lib.ExceptFold
import Gouroboros.Protocol.MessageScanner

/-!
# Runs of the scanner

What a round of `scan` can do, and from it what whole runs do. A round depends only on the bytes at
its offset, so it does the same when more bytes follow, unless it returned for want of bytes; then
the scanner it leaves behind goes on with more bytes as the one before would have
(`Runs.append_final`, `Runs.append_starved`). A limit only ever ends a run earlier.
-/

namespace Gouroboros.Protocol

open ExceptFold MessageScanner

open Ledger (ByteString)

/-! ## Heads -/

theorem readHead_size {data : ByteString} {offset : Nat} {head : WalkHead}
    (h : readHead data offset = .ok (some head)) :
    1 ≤ head.encodedSize ∧ offset + head.encodedSize ≤ data.length := by
  have hdrop := @List.length_drop UInt8 offset data
  unfold readHead at h
  cases hrest : data.drop offset with
  | nil =>
    rw [hrest] at h
    cases h
  | cons first rest =>
    generalize 2 ^ (first.toNat % 32 - 24) = size at h
    grind

theorem readHead_append (data more : ByteString) (offset : Nat) :
    readHead data offset = .ok none ∨ readHead (data ++ more) offset = readHead data offset := by
  unfold readHead
  cases hrest : data.drop offset with
  | nil => exact .inl rfl
  | cons first rest =>
    have hlength : offset ≤ data.length := by
      by_contra hlarge
      rw [List.drop_of_length_le (by omega)] at hrest
      cases hrest
    rw [List.drop_append_of_le_length hlength, hrest, List.cons_append]
    dsimp only
    by_cases hshort : 24 ≤ first.toNat % 32 ∧ first.toNat % 32 < 28 ∧
        rest.length < 2 ^ (first.toNat % 32 - 24)
    · left
      rw [if_neg (by omega), if_pos (by omega), if_pos (by omega)]
    · right
      split
      next => rfl
      next =>
        split
        next =>
          rw [if_neg (by rw [List.length_append]; omega), if_neg (by omega),
            List.take_append_of_le_length (by omega)]
        next => rfl

/-! ## What a round does -/

/-- The bytes that the scanner has read or knows to come. -/
def MessageScanner.weight (s : MessageScanner) : Nat := s.offset + s.pendingBytes

theorem exceedsLimit_iff {maxBytes : Int} {s : MessageScanner} :
    s.exceedsLimit maxBytes ↔ 0 < maxBytes ∧ maxBytes < s.weight := by
  unfold exceedsLimit weight
  split
  next => simp; omega
  next =>
    split
    next => simp; omega
    next => simp; omega

theorem exceedsLimit_zero (s : MessageScanner) : s.exceedsLimit 0 = false := rfl

theorem closeFrames_length_le : ∀ frames, (closeFrames frames).length ≤ frames.length
  | [] => le_rfl
  | frame :: frames => by
      rw [closeFrames]
      split
      · exact le_rfl
      · exact (closeFrames_length_le frames).trans (Nat.le_succ _)

section
variable {levels : Nat} {data : ByteString} {maxBytes : Int} {s : MessageScanner}

variable {frame parent : MessageScanFrame} {s' : MessageScanner}

theorem pushFrame_eq_ok (h : s.pushFrame levels frame = .ok s') :
    s.frames.length < levels ∧ s' = { s with frames := frame :: s.frames } := by
  unfold pushFrame at h
  split at h
  next => cases h
  next hroom =>
    injection h with h
    exact ⟨by omega, h.symm⟩

/-- The content of an item: at most one frame more, or the bytes of a string to come. -/
structure Opens (s s' : MessageScanner) : Prop where
  offset_eq : s'.offset = s.offset
  le_pendingBytes : s.pendingBytes ≤ s'.pendingBytes
  length_frames : s'.frames.length ≤ s.frames.length + 1
  started_eq : s'.started = s.started
  rootItems_eq : s'.rootItems = s.rootItems
  messageType_eq : s'.messageType = s.messageType
  hasMessageType_eq : s'.hasMessageType = s.hasMessageType

theorem opens_finishItem (s : MessageScanner) : Opens s s.finishItem :=
  ⟨rfl, le_rfl, (closeFrames_length_le _).trans (Nat.le_succ _), rfl, rfl, rfl, rfl⟩

theorem Opens.finishItem (h : Opens s s') : Opens s s'.finishItem :=
  { h with length_frames := (closeFrames_length_le _).trans h.length_frames }

theorem opens_pushFrame (h : s.pushFrame levels frame = .ok s') : Opens s s' := by
  rcases pushFrame_eq_ok h with ⟨-, rfl⟩
  exact ⟨rfl, le_rfl, le_rfl, rfl, rfl, rfl, rfl⟩

variable {head : WalkHead}

theorem scanString_opens (hpending : s.pendingBytes = 0)
    (h : scanString levels head s = .ok s') : Opens s s' := by
  have hbytes : ∀ n, Opens s { s with pendingBytes := n } := fun n =>
    ⟨rfl, hpending ▸ Nat.zero_le n, Nat.le_succ _, rfl, rfl, rfl, rfl⟩
  unfold scanString at h
  rw [guard_eq_ok] at h
  rcases h with ⟨-, h⟩
  split at h
  next => exact opens_pushFrame h
  next =>
    split at h
    next =>
      injection h with h
      exact h ▸ (hbytes 0).finishItem
    next =>
      injection h with h
      exact h ▸ hbytes head.argument

theorem scanNested_opens {children : Nat}
    (h : scanNested levels children head s = .ok s') : Opens s s' := by
  unfold scanNested at h
  split at h
  next => cases h
  next hpush =>
    injection h with h
    exact h ▸ (opens_pushFrame hpush).finishItem

theorem scanInteger_opens (h : scanInteger head s = .ok s') : Opens s s' := by
  rw [scanInteger, guard_eq_ok] at h
  rcases h with ⟨-, h⟩
  injection h with h
  exact h ▸ opens_finishItem s

theorem scanContent_opens (hpending : s.pendingBytes = 0)
    (h : scanContent levels head s = .ok s') : Opens s s' := by
  unfold scanContent at h
  split at h
  next => exact scanInteger_opens h
  next => exact scanInteger_opens h
  next => exact scanString_opens hpending h
  next => exact scanString_opens hpending h
  next =>
    rw [guard_eq_ok] at h
    exact scanNested_opens h.2
  next =>
    rw [guard_eq_ok, guard_eq_ok] at h
    exact scanNested_opens h.2.2
  next =>
    rw [guard_eq_ok] at h
    exact opens_pushFrame h.2
  next =>
    rw [guard_eq_ok] at h
    rcases h with ⟨-, h⟩
    injection h with h
    exact h ▸ opens_finishItem s
  next => cases h

/-- A round that goes on: it stays in the buffer, uses up fuel, and loses no bytes that it knew to
come. -/
structure Goes (data : ByteString) (s s' : MessageScanner) : Prop where
  offset_le : s'.offset ≤ data.length
  fuel_lt : scanFuel data s' < scanFuel data s
  weight_le : s.weight ≤ s'.weight
  rootItems_le : s.rootItems ≤ s'.rootItems

/-- The message type is read with the first item of the message. -/
def TypeRead (s : MessageScanner) : Prop := s.hasMessageType = true → 0 < s.rootItems

/-- What a round keeps of the message type. -/
def KeepsType (s s' : MessageScanner) : Prop :=
  (s.hasMessageType = true → s'.hasMessageType = true) ∧ (TypeRead s → TypeRead s')

theorem keepsType_of_eq (htype : s'.hasMessageType = s.hasMessageType)
    (hroot : s.rootItems ≤ s'.rootItems) : KeepsType s s' := by
  unfold KeepsType TypeRead
  rw [htype]
  exact ⟨id, fun h hread => (h hread).trans_le hroot⟩

/-- What the outcomes of a round guarantee. Only the early return finds the message type and goes
on; a return for good is an error, the end of the message, or past the limit. -/
def Sound (data : ByteString) (maxBytes : Int) (s : MessageScanner) : ScanStep → Prop
  | .again s' => Goes data s s' ∧ s'.hasMessageType = s.hasMessageType ∧
      (s.complete = false → s'.complete = false)
  | .early s' => Goes data s s' ∧ s.rootItems = 0 ∧ 0 < s'.rootItems ∧ s'.hasMessageType = true
  | .starved s' => s'.offset ≤ data.length ∧ s'.weight = s.weight ∧ s'.rootItems = s.rootItems ∧
      s'.hasMessageType = s.hasMessageType ∧ s'.complete = s.complete
  | .final s' err => s'.offset ≤ data.length ∧ s.weight ≤ s'.weight ∧ KeepsType s s' ∧
      (err = none → s'.complete = true ∨ s'.exceedsLimit maxBytes = true)

theorem sound_finished (h : Goes data s s')
    (htype : s'.hasMessageType = s.hasMessageType) : Sound data maxBytes s (.finished s') := by
  unfold ScanStep.finished
  split
  next hcomplete =>
    exact ⟨h.offset_le, h.weight_le, keepsType_of_eq htype h.rootItems_le, fun _ => .inl hcomplete⟩
  next hopen => exact ⟨h, htype, fun _ => Bool.eq_false_iff.mpr hopen⟩

section

variable (hoffset : s'.offset ≤ data.length) (hweight : s.weight ≤ s'.weight)
  (htype : KeepsType s s')
include hoffset hweight htype

theorem sound_error {err : ScanError} : Sound data maxBytes s (.final s' (some err)) :=
  ⟨hoffset, hweight, htype, nofun⟩

theorem sound_exceeds (h : s'.exceedsLimit maxBytes) : Sound data maxBytes s (.final s' none) :=
  ⟨hoffset, hweight, htype, fun _ => .inr h⟩

end

theorem goes_of_opens {size : Nat} {s₁ s₂ : MessageScanner} (h : Opens s₁ s₂) (hsize : 1 ≤ size)
    (hend : s.offset + size ≤ data.length) (hpending : s.pendingBytes = 0)
    (hoffset : s₁.offset = s.offset + size) (hframes : s₁.frames.length = s.frames.length)
    (hroot : s.rootItems ≤ s₁.rootItems) : Goes data s s₂ := by
  have hoffset₂ := h.offset_eq
  have hlength := h.length_frames
  have hroot₂ := h.rootItems_eq
  refine ⟨by omega, ?_, ?_, by omega⟩
  · unfold scanFuel
    omega
  · unfold weight
    omega

section

variable (hoffset : s.offset ≤ data.length)
include hoffset

theorem scanPending_sound (hpending : 0 < s.pendingBytes) :
    Sound data maxBytes s (scanPending data s) := by
  unfold scanPending
  dsimp only
  split
  next hleft =>
    refine ⟨?_, ?_, rfl, rfl, rfl⟩
    · dsimp only
      omega
    · simp only [weight]
      omega
  next hread =>
    apply sound_finished
    · have hlength := closeFrames_length_le s.frames
      refine ⟨?_, ?_, ?_, le_rfl⟩
      · simp only [finishItem]
        omega
      · simp only [scanFuel, finishItem]
        omega
      · simp only [weight, finishItem]
        omega
    · rfl

theorem scanRoot_sound (hpending : s.pendingBytes = 0) :
    Sound data maxBytes s (scanRoot levels data maxBytes s) := by
  unfold scanRoot
  split
  next => exact sound_error hoffset le_rfl ⟨id, id⟩
  next => exact ⟨hoffset, rfl, rfl, rfl, rfl⟩
  next head hhead =>
    rcases readHead_size hhead with ⟨hsize, hend⟩
    have hweight : s.weight ≤ { s with offset := s.offset + head.encodedSize }.weight := by
      simp only [weight]
      omega
    split
    next => exact sound_error hoffset le_rfl ⟨id, id⟩
    next =>
      dsimp only
      split
      next hexceeds => exact sound_exceeds hend hweight ⟨id, id⟩ hexceeds
      next =>
        split
        next => exact sound_error hend hweight ⟨id, id⟩
        next s₁ hpush =>
          have hopens := opens_pushFrame hpush
          split
          next =>
            refine ⟨goes_of_opens hopens hsize hend hpending rfl rfl le_rfl,
              hopens.hasMessageType_eq, ?_⟩
            rcases pushFrame_eq_ok hpush with ⟨-, rfl⟩
            exact id
          next =>
            exact sound_finished (goes_of_opens hopens.finishItem hsize hend hpending rfl rfl le_rfl)
              hopens.hasMessageType_eq

variable {outer : List MessageScanFrame}

theorem scanItem_sound (hpending : s.pendingBytes = 0) (hframes : s.frames = parent :: outer) :
    Sound data maxBytes s (scanItem levels data maxBytes s parent outer) := by
  unfold scanItem
  split
  next => exact sound_error hoffset le_rfl ⟨id, id⟩
  next => exact ⟨hoffset, rfl, rfl, rfl, rfl⟩
  next head hhead =>
    rcases readHead_size hhead with ⟨hsize, hend⟩
    have hweight : s.weight ≤ (s.readItemHead parent outer head).weight := by
      simp only [weight, readItemHead]
      omega
    have htype : KeepsType s (s.readItemHead parent outer head) := by
      constructor
      · intro hread
        simp [readItemHead, hread]
      · intro hroot hread
        simp only [readItemHead] at hread ⊢
        cases houter : outer.isEmpty with
        | true => exact Nat.succ_pos _
        | false =>
          rw [houter, Bool.false_and, Bool.or_false] at hread
          exact hroot hread
    dsimp only
    split
    next => exact sound_error hoffset le_rfl ⟨id, id⟩
    next =>
      split
      next => exact sound_error hoffset le_rfl ⟨id, id⟩
      next =>
        split
        next hexceeds => exact sound_exceeds hend hweight htype hexceeds
        next =>
          split
          next => exact sound_error hend hweight htype
          next s₁ hcontent =>
            have hread : (s.readItemHead parent outer head).pendingBytes = 0 := hpending
            have hopens := scanContent_opens hread hcontent
            have hlength : (s.readItemHead parent outer head).frames.length = s.frames.length := by
              rw [hframes]
              rfl
            have hroot : s.rootItems ≤ (s.readItemHead parent outer head).rootItems := by
              simp only [readItemHead]
              split
              · exact Nat.le_succ _
              · exact le_rfl
            have hgoes := goes_of_opens hopens hsize hend hpending rfl hlength hroot
            have htype := hopens.hasMessageType_eq
            split
            next hfirst =>
              rw [Bool.and_eq_true, beq_iff_eq] at hfirst
              refine ⟨hgoes, hfirst.2, ?_, ?_⟩
              · rw [hopens.rootItems_eq]
                simp [readItemHead, hfirst.1]
              · rw [htype]
                simp [readItemHead, hfirst.1, hfirst.2]
            next hlater =>
              apply sound_finished hgoes
              rw [htype]
              simp [readItemHead, hlater]

theorem scanInside_sound (hpending : s.pendingBytes = 0) :
    Sound data maxBytes s (scanInside levels data maxBytes s) := by
  unfold scanInside
  split
  next => exact ⟨hoffset, le_rfl, ⟨id, id⟩, fun _ => .inl rfl⟩
  next parent outer hframes =>
    have hlength := closeFrames_length_le outer
    have hcount : s.frames.length = outer.length + 1 := by rw [hframes]; rfl
    split
    next => exact ⟨hoffset, rfl, rfl, rfl, rfl⟩
    next hbyte =>
      split
      next =>
        refine sound_finished ?_ rfl
        refine ⟨Nat.lt_of_not_le hbyte, ?_, ?_, le_rfl⟩
        · simp only [scanFuel, finishItem]
          omega
        · simp only [weight, finishItem]
          omega
      next =>
        split
        next =>
          refine sound_finished ?_ rfl
          refine ⟨hoffset, ?_, le_rfl, le_rfl⟩
          simp only [scanFuel, finishItem]
          omega
        next => exact scanItem_sound hoffset hpending hframes

theorem scanStep_sound : Sound data maxBytes s (scanStep levels data maxBytes s) := by
  unfold scanStep
  split
  next hexceeds => exact sound_exceeds hoffset le_rfl ⟨id, id⟩ hexceeds
  next =>
    split
    next hpending => exact scanPending_sound hoffset hpending
    next hpending =>
      have hpending : s.pendingBytes = 0 := by omega
      split
      next => exact scanRoot_sound hoffset hpending
      next => exact scanInside_sound hoffset hpending

end

/-! ## More bytes -/

section

variable (more : ByteString)
include more

theorem scanPending_append (hoffset : s.offset ≤ data.length) :
    (∃ s', scanPending data s = .starved s') ∨
      scanPending (data ++ more) s = scanPending data s := by
  by_cases hread : s.pendingBytes ≤ data.length - s.offset
  · right
    have hmore : s.pendingBytes ≤ (data ++ more).length - s.offset := by
      rw [List.length_append]
      omega
    simp only [scanPending, Nat.min_eq_right hread, Nat.min_eq_right hmore]
  · left
    unfold scanPending
    dsimp only
    rw [if_pos (by omega)]
    exact ⟨_, rfl⟩

theorem scanPending_resume (hoffset : s.offset ≤ data.length)
    (h : scanPending data s = .starved s') :
    0 < s'.pendingBytes ∧ s'.weight = s.weight ∧
      scanPending (data ++ more) s' = scanPending (data ++ more) s := by
  unfold scanPending at h
  dsimp only at h
  split at h
  next hleft =>
    cases h
    refine ⟨hleft, ?_, ?_⟩
    · simp only [weight]
      omega
    · have hbytes : s.offset + min (data.length - s.offset) s.pendingBytes +
            min ((data ++ more).length - (s.offset + min (data.length - s.offset) s.pendingBytes))
              (s.pendingBytes - min (data.length - s.offset) s.pendingBytes) =
          s.offset + min ((data ++ more).length - s.offset) s.pendingBytes ∧
          s.pendingBytes - min (data.length - s.offset) s.pendingBytes -
            min ((data ++ more).length - (s.offset + min (data.length - s.offset) s.pendingBytes))
              (s.pendingBytes - min (data.length - s.offset) s.pendingBytes) =
          s.pendingBytes - min ((data ++ more).length - s.offset) s.pendingBytes := by
        rw [List.length_append]
        omega
      simp only [scanPending, hbytes.1, hbytes.2]
  next =>
    unfold ScanStep.finished at h
    split at h
    · cases h
    · cases h

theorem scanRoot_append :
    scanRoot levels data maxBytes s = .starved s ∨
      scanRoot levels (data ++ more) maxBytes s = scanRoot levels data maxBytes s := by
  unfold scanRoot
  rcases readHead_append data more s.offset with hnone | hsame
  · rw [hnone]
    exact .inl rfl
  · rw [hsame]
    exact .inr rfl

theorem scanItem_append (parent : MessageScanFrame) (outer : List MessageScanFrame) :
    scanItem levels data maxBytes s parent outer = .starved s ∨
      scanItem levels (data ++ more) maxBytes s parent outer =
        scanItem levels data maxBytes s parent outer := by
  unfold scanItem
  rcases readHead_append data more s.offset with hnone | hsame
  · rw [hnone]
    exact .inl rfl
  · rw [hsame]
    exact .inr rfl

theorem scanInside_append :
    scanInside levels data maxBytes s = .starved s ∨
      scanInside levels (data ++ more) maxBytes s = scanInside levels data maxBytes s := by
  unfold scanInside
  split
  next => exact .inr rfl
  next parent outer hframes =>
    by_cases hend : s.offset ≥ data.length
    · rw [if_pos hend]
      exact .inl rfl
    · have hmore : ¬ s.offset ≥ (data ++ more).length := by
        rw [List.length_append]
        omega
      rw [if_neg hend, if_neg hmore, List.getElem?_append_left (by omega)]
      split
      next => exact .inr rfl
      next =>
        split
        next => exact .inr rfl
        next => exact scanItem_append more parent outer

theorem scanStep_append (hoffset : s.offset ≤ data.length) :
    (∃ s', scanStep levels data maxBytes s = .starved s') ∨
      scanStep levels (data ++ more) maxBytes s = scanStep levels data maxBytes s := by
  unfold scanStep
  split
  next => exact .inr rfl
  next =>
    split
    next => exact scanPending_append more hoffset
    next =>
      split
      next =>
        rcases @scanRoot_append levels data maxBytes s more with hstarved | hsame
        · exact .inl ⟨s, hstarved⟩
        · exact .inr hsame
      next =>
        rcases @scanInside_append levels data maxBytes s more with hstarved | hsame
        · exact .inl ⟨s, hstarved⟩
        · exact .inr hsame

end

theorem finished_ne_starved (s s' : MessageScanner) : ScanStep.finished s ≠ .starved s' := by
  unfold ScanStep.finished
  split
  · exact nofun
  · exact nofun

theorem scanRoot_starved (h : scanRoot levels data maxBytes s = .starved s') : s' = s := by
  unfold scanRoot at h
  grind [finished_ne_starved]

theorem scanItem_starved (h : scanItem levels data maxBytes s parent outer = .starved s') :
    s' = s := by
  unfold scanItem at h
  split at h
  next => cases h
  next =>
    injection h with h
    exact h.symm
  next =>
    dsimp only at h
    split at h
    next => cases h
    next =>
      split at h
      next => cases h
      next =>
        split at h
        next => cases h
        next =>
          split at h
          next => cases h
          next =>
            split at h
            next => cases h
            next => exact absurd h (finished_ne_starved _ _)

theorem scanInside_starved (h : scanInside levels data maxBytes s = .starved s') : s' = s := by
  unfold scanInside at h
  grind [finished_ne_starved, scanItem_starved]

/-- Where a round wanted bytes, the scanner it left does with more bytes what the one before would
have done. -/
theorem scanStep_resume (hoffset : s.offset ≤ data.length)
    (h : scanStep levels data maxBytes s = .starved s') (more : ByteString) :
    scanStep levels (data ++ more) maxBytes s' = scanStep levels (data ++ more) maxBytes s := by
  by_cases hexceeds : s.exceedsLimit maxBytes
  · rw [scanStep, if_pos hexceeds] at h
    cases h
  · by_cases hpending : s.pendingBytes > 0
    · rw [scanStep, if_neg hexceeds, if_pos hpending] at h
      rcases scanPending_resume more hoffset h with ⟨hleft, hweight, hresume⟩
      have hexceeds' : ¬ s'.exceedsLimit maxBytes := by
        rw [exceedsLimit_iff, hweight, ← exceedsLimit_iff]
        exact hexceeds
      rw [scanStep, scanStep, if_neg hexceeds', if_neg hexceeds, if_pos hleft, if_pos hpending,
        hresume]
    · -- nothing was read
      have hsame : s' = s := by
        rw [scanStep, if_neg hexceeds, if_neg hpending] at h
        split at h
        next => exact scanRoot_starved h
        next => exact scanInside_starved h
      rw [hsame]

/-! ## Limits -/

@[simp] theorem scanner_finished (s : MessageScanner) : (ScanStep.finished s).scanner = s := by
  unfold ScanStep.finished
  split
  · rfl
  · rfl

theorem Opens.weight_le (h : Opens s s') : s.weight ≤ s'.weight := by
  have hoffset := h.offset_eq
  have hpending := h.le_pendingBytes
  unfold weight
  omega

/-- A round under a limit: the round without one, or an end past the limit that the round without
one passes too. -/
def Limited (maxBytes : Int) (limited free : ScanStep) : Prop :=
  limited = free ∨ ∃ s', limited = .final s' none ∧ s'.exceedsLimit maxBytes = true ∧
    s'.weight ≤ free.scanner.weight

/-- A round from `s` that ends at `s'`, past the limit, where the round without one is `free`. If the
limit is passed with the head of the message type, `free` finishes the item. -/
structure PastLimit (maxBytes : Int) (s s' : MessageScanner) (free : ScanStep) : Prop where
  exceeds : s'.exceedsLimit maxBytes = true
  weight_le : s'.weight ≤ free.scanner.weight
  typed : s.hasMessageType = false → s'.hasMessageType = true →
    free = .early s'.finishItem ∧ (∃ frame, s'.frames = [frame]) ∧ s'.started = true ∧
      s'.pendingBytes = 0 ∧ s'.complete = s.complete

theorem pastLimit_of_eq {free : ScanStep} (hexceeds : s'.exceedsLimit maxBytes)
    (hweight : s'.weight ≤ free.scanner.weight) (htype : s'.hasMessageType = s.hasMessageType) :
    PastLimit maxBytes s s' free := by
  refine ⟨hexceeds, hweight, fun hunknown hknown => ?_⟩
  cases hunknown.symm.trans (htype.symm.trans hknown)

theorem scanRoot_limited : scanRoot levels data maxBytes s = scanRoot levels data 0 s ∨
    ∃ s', scanRoot levels data maxBytes s = .final s' none ∧
      PastLimit maxBytes s s' (scanRoot levels data 0 s) := by
  unfold scanRoot
  split
  next => exact .inl rfl
  next => exact .inl rfl
  next head hhead =>
    split
    next => exact .inl rfl
    next =>
      dsimp only
      by_cases hexceeds :
          { s with offset := s.offset + head.encodedSize }.exceedsLimit maxBytes = true
      · right
        rw [if_pos hexceeds, exceedsLimit_zero, if_neg Bool.false_ne_true]
        refine ⟨_, rfl, pastLimit_of_eq hexceeds ?_ rfl⟩
        split
        next => exact le_rfl
        next s₁ hpush =>
          have hweight := (opens_pushFrame hpush).weight_le
          split
          next => exact hweight
          next =>
            rw [scanner_finished]
            exact hweight
      · rw [if_neg hexceeds, exceedsLimit_zero, if_neg Bool.false_ne_true]
        exact .inl rfl

theorem scanItem_limited (hpending : s.pendingBytes = 0) (hstarted : s.started) :
    scanItem levels data maxBytes s parent outer = scanItem levels data 0 s parent outer ∨
      ∃ s', scanItem levels data maxBytes s parent outer = .final s' none ∧
        PastLimit maxBytes s s' (scanItem levels data 0 s parent outer) := by
  unfold scanItem
  split
  next => exact .inl rfl
  next => exact .inl rfl
  next head hhead =>
    dsimp only
    split
    next => exact .inl rfl
    next hunsigned =>
      split
      next => exact .inl rfl
      next =>
        by_cases hexceeds : (s.readItemHead parent outer head).exceedsLimit maxBytes
        · right
          rw [if_pos hexceeds, exceedsLimit_zero, if_neg Bool.false_ne_true]
          refine ⟨_, rfl, hexceeds, ?_, fun hunknown hknown => ?_⟩
          · have hread : (s.readItemHead parent outer head).pendingBytes = 0 := hpending
            split
            next => exact le_rfl
            next s₁ hcontent =>
              have hweight := (scanContent_opens hread hcontent).weight_le
              split
              next => exact hweight
              next =>
                rw [scanner_finished]
                exact hweight
          · have hfirst : (outer.isEmpty && s.rootItems == 0) := by
              rwa [readItemHead, hunknown, Bool.false_or] at hknown
            have houter : outer = [] := List.isEmpty_iff.mp (Bool.and_eq_true_iff.mp hfirst).1
            have hinteger : head.major = 0 ∧ head.indefinite = false ∧ head.isBreak = false := by
              simpa [hfirst] using hunsigned
            have hcontent : scanContent levels head (s.readItemHead parent outer head) =
                .ok (s.readItemHead parent outer head).finishItem := by
              rw [scanContent, hinteger.1, scanInteger, hinteger.2.1, hinteger.2.2]
              rfl
            refine ⟨?_, ⟨_, by rw [houter]; rfl⟩, hstarted, hpending, rfl⟩
            rw [hcontent]
            exact if_pos hfirst
        · rw [if_neg hexceeds, exceedsLimit_zero, if_neg Bool.false_ne_true]
          exact .inl rfl

theorem scanStep_limited (hoffset : s.offset ≤ data.length) :
    scanStep levels data maxBytes s = scanStep levels data 0 s ∨
      ∃ s', scanStep levels data maxBytes s = .final s' none ∧
        PastLimit maxBytes s s' (scanStep levels data 0 s) := by
  by_cases hexceeds : s.exceedsLimit maxBytes
  · right
    rw [scanStep, if_pos hexceeds]
    refine ⟨s, rfl, pastLimit_of_eq hexceeds ?_ rfl⟩
    have hsound := @scanStep_sound levels data 0 s hoffset
    generalize scanStep levels data 0 s = out at hsound ⊢
    cases out with
    | again | early => exact hsound.1.weight_le
    | starved s' => exact hsound.2.1.ge
    | final s' err => exact hsound.2.1
  · rw [scanStep, scanStep, if_neg hexceeds, exceedsLimit_zero, if_neg Bool.false_ne_true]
    split
    next => exact .inl rfl
    next hpending =>
      have hpending : s.pendingBytes = 0 := by omega
      split
      next => exact scanRoot_limited
      next hstarted =>
        unfold scanInside
        split
        next => exact .inl rfl
        next parent outer hframes =>
          split
          next => exact .inl rfl
          next =>
            split
            next => exact .inl rfl
            next =>
              split
              next => exact .inl rfl
              next => exact scanItem_limited hpending (Bool.eq_true_of_not_eq_false hstarted)

end

/-! ## Runs -/

/-- A round of a call: a scanner that has the message only returns it. -/
def scanRound (maxNestedLevels : Nat) (data : ByteString) (maxBytes : Int) (s : MessageScanner) :
    ScanStep :=
  if s.complete then .final s none else scanStep maxNestedLevels data maxBytes s

/-- A round after which the scan goes on, in the same call or in the one after the early return. -/
def Continues (maxNestedLevels : Nat) (data : ByteString) (maxBytes : Int) (s s₁ : MessageScanner) :
    Prop :=
  scanRound maxNestedLevels data maxBytes s = .again s₁ ∨
    scanRound maxNestedLevels data maxBytes s = .early s₁

/-- The rounds over a buffer up to a return for want of bytes or for good. -/
inductive Runs (maxNestedLevels : Nat) (data : ByteString) (maxBytes : Int) :
    MessageScanner → ScanStep → Prop
  | next {s s₁ : MessageScanner} {out : ScanStep}
      (h : Continues maxNestedLevels data maxBytes s s₁)
      (hrest : Runs maxNestedLevels data maxBytes s₁ out) : Runs maxNestedLevels data maxBytes s out
  | starved {s s₁ : MessageScanner} (h : scanRound maxNestedLevels data maxBytes s = .starved s₁) :
      Runs maxNestedLevels data maxBytes s (.starved s₁)
  | final {s s₁ : MessageScanner} {err : Option ScanError}
      (h : scanRound maxNestedLevels data maxBytes s = .final s₁ err) :
      Runs maxNestedLevels data maxBytes s (.final s₁ err)

section
variable {levels : Nat} {data : ByteString} {maxBytes : Int} {s s₁ : MessageScanner}
  {out : ScanStep}

theorem Continues.unique {s₂ : MessageScanner} (h : Continues levels data maxBytes s s₁)
    (h' : Continues levels data maxBytes s s₂) : s₁ = s₂ := by
  unfold Continues at h h'
  rcases h with h | h
  · rw [h] at h'
    simpa using h'
  · rw [h] at h'
    simpa using h'

theorem Runs.unique {out' : ScanStep} (h : Runs levels data maxBytes s out)
    (h' : Runs levels data maxBytes s out') : out = out' := by
  induction h with
  | next hnext _ ih =>
    cases h' with
    | next hnext' hrest' =>
      rw [hnext.unique hnext'] at ih
      exact ih hrest'
    | starved h' | final h' => simp [Continues, h'] at hnext
  | starved h | final h =>
    cases h' with
    | next hnext' _ => simp [Continues, h] at hnext'
    | starved h' | final h' => exact h.symm.trans h'

theorem Runs.stops (h : Runs levels data maxBytes s out) :
    (∃ s₁, out = .starved s₁) ∨ ∃ s₁ err, out = .final s₁ err := by
  induction h with
  | next _ _ ih => exact ih
  | starved h => exact .inl ⟨_, rfl⟩
  | final h => exact .inr ⟨_, _, rfl⟩

section

variable (hoffset : s.offset ≤ data.length)
include hoffset

theorem scanRound_sound (h : scanRound levels data maxBytes s = out) : Sound data maxBytes s out := by
  subst h
  unfold scanRound
  split
  next hcomplete => exact ⟨hoffset, le_rfl, ⟨id, id⟩, fun _ => .inl hcomplete⟩
  next => exact scanStep_sound hoffset

theorem Continues.goes (h : Continues levels data maxBytes s s₁) : Goes data s s₁ := by
  rcases h with h | h
  · exact (scanRound_sound hoffset h).1
  · exact (scanRound_sound hoffset h).1

theorem Runs.total : ∃ out, Runs levels data maxBytes s out := by
  generalize hfuel : scanFuel data s = fuel
  induction fuel using Nat.strong_induction_on generalizing s with
  | _ fuel ih =>
    have hnext : ∀ s₁, Continues levels data maxBytes s s₁ →
        ∃ out, Runs levels data maxBytes s out := by
      intro s₁ h
      have hgoes := h.goes hoffset
      rcases ih (scanFuel data s₁) (hfuel ▸ hgoes.fuel_lt) hgoes.offset_le rfl with ⟨out, hout⟩
      exact ⟨out, .next h hout⟩
    cases hround : scanRound levels data maxBytes s with
    | again s₁ => exact hnext s₁ (.inl hround)
    | early s₁ => exact hnext s₁ (.inr hround)
    | starved s₁ => exact ⟨_, .starved hround⟩
    | final s₁ err => exact ⟨_, .final hround⟩

theorem Runs.starved_open (h : Runs levels data maxBytes s (.starved s₁)) :
    s₁.complete = false := by
  generalize hout : ScanStep.starved s₁ = out at h
  induction h with
  | next hnext _ ih => exact ih (hnext.goes hoffset).offset_le hout
  | final h => cases hout
  | starved h =>
    cases hout
    rw [(scanRound_sound hoffset h).2.2.2.2]
    unfold scanRound at h
    split at h
    next => cases h
    next hopen => exact Bool.eq_false_iff.mpr hopen

theorem Runs.bounds (h : Runs levels data maxBytes s out) :
    out.scanner.offset ≤ data.length ∧ s.weight ≤ out.scanner.weight := by
  induction h with
  | next hnext _ ih =>
    have hgoes := hnext.goes hoffset
    rcases ih hgoes.offset_le with ⟨hle, hweight⟩
    exact ⟨hle, hgoes.weight_le.trans hweight⟩
  | starved h =>
    have hsound := scanRound_sound hoffset h
    exact ⟨hsound.1, hsound.2.1.ge⟩
  | final h =>
    have hsound := scanRound_sound hoffset h
    exact ⟨hsound.1, hsound.2.1⟩

theorem scanRound_append (more : ByteString) :
    (∃ s', scanRound levels data maxBytes s = .starved s') ∨
      scanRound levels (data ++ more) maxBytes s = scanRound levels data maxBytes s := by
  unfold scanRound
  split
  next => exact .inr rfl
  next => exact scanStep_append more hoffset

theorem scanRound_resume (h : scanRound levels data maxBytes s = .starved s₁) (more : ByteString) :
    scanRound levels (data ++ more) maxBytes s₁ = scanRound levels (data ++ more) maxBytes s := by
  have hcomplete := (scanRound_sound hoffset h).2.2.2.2
  unfold scanRound at h ⊢
  rw [hcomplete]
  split at h
  next => cases h
  next hopen =>
    rw [if_neg hopen, if_neg hopen]
    exact scanStep_resume hoffset h more

theorem Continues.append (h : Continues levels data maxBytes s s₁) (more : ByteString) :
    Continues levels (data ++ more) maxBytes s s₁ := by
  unfold Continues at h ⊢
  rcases @scanRound_append levels data maxBytes s hoffset more with ⟨s', hstarved⟩ | hsame
  · simp [hstarved] at h
  · rw [hsame]
    exact h

theorem Runs.append_final {err : Option ScanError} (more : ByteString)
    (h : Runs levels data maxBytes s (.final s₁ err)) :
    Runs levels (data ++ more) maxBytes s (.final s₁ err) := by
  generalize hout : ScanStep.final s₁ err = out at h
  induction h with
  | next hnext _ ih => exact .next (hnext.append hoffset more) (ih (hnext.goes hoffset).offset_le hout)
  | starved h => cases hout
  | final h =>
    rcases @scanRound_append levels data maxBytes _ hoffset more with
      ⟨s', hstarved⟩ | hsame
    · simp [hstarved] at h
    · exact .final (hsame.trans h)

theorem Runs.append_starved (more : ByteString) (h : Runs levels data maxBytes s (.starved s₁))
    (hresumed : Runs levels (data ++ more) maxBytes s₁ out) :
    Runs levels (data ++ more) maxBytes s out := by
  generalize hstarved : ScanStep.starved s₁ = stop at h
  induction h with
  | next hnext _ ih =>
    exact .next (hnext.append hoffset more) (ih (hnext.goes hoffset).offset_le hstarved)
  | final h => cases hstarved
  | starved h =>
    cases hstarved
    have hround := scanRound_resume hoffset h more
    -- the first round of the resumed run is also the one from `s`
    cases hresumed with
    | next hnext hrest =>
      unfold Continues at hnext
      rw [hround] at hnext
      exact .next hnext hrest
    | starved hlast => exact .starved (hround.symm.trans hlast)
    | final hlast => exact .final (hround.symm.trans hlast)

theorem Runs.again_final (h : Runs levels data maxBytes s (.final s₁ none)) :
    scanRound levels data maxBytes s₁ = .final s₁ none := by
  generalize hfinal : ScanStep.final s₁ none = stop at h
  induction h with
  | next hnext _ ih => exact ih (hnext.goes hoffset).offset_le hfinal
  | starved h => cases hfinal
  | final h =>
    injection hfinal with hscanner herr
    subst hscanner herr
    have hsound := scanRound_sound hoffset h
    unfold scanRound scanStep
    rcases hsound.2.2.2 rfl with hcomplete | hexceeds
    · rw [if_pos hcomplete]
    · split
      · rfl
      · rfl

/-! ### Runs under a limit -/

theorem Runs.round_weight (h : Runs levels data maxBytes s out) :
    (scanRound levels data maxBytes s).scanner.weight ≤ out.scanner.weight := by
  cases h with
  | next hnext hrest =>
    have hweight := (hrest.bounds (hnext.goes hoffset).offset_le).2
    rcases hnext with hround | hround
    · rw [hround]
      exact hweight
    · rw [hround]
      exact hweight
  | starved h => rw [h]
  | final h => rw [h]

theorem scanRound_limited : Limited maxBytes (scanRound levels data maxBytes s)
      (scanRound levels data 0 s) := by
  unfold scanRound
  split
  · exact .inl rfl
  · rcases scanStep_limited hoffset with hsame | ⟨s', hfinal, hpast⟩
    · exact .inl hsame
    · exact .inr ⟨s', hfinal, hpast.exceeds, hpast.weight_le⟩

theorem Continues.unlimited (h : Continues levels data maxBytes s s₁) :
    Continues levels data 0 s s₁ := by
  rcases @scanRound_limited levels data maxBytes s hoffset with hsame | ⟨s', hfinal, -, -⟩
  · unfold Continues at h ⊢
    rw [← hsame]
    exact h
  · simp [Continues, hfinal] at h

theorem Runs.limited (h : Runs levels data maxBytes s out) :
    Runs levels data 0 s out ∨
      ∃ s₁, out = .final s₁ none ∧ s₁.exceedsLimit maxBytes ∧
        ∀ free, Runs levels data 0 s free → s₁.weight ≤ free.scanner.weight := by
  have hround : ∀ s, s.offset ≤ data.length → Limited maxBytes
      (scanRound levels data maxBytes s) (scanRound levels data 0 s) :=
    fun s hoffset => scanRound_limited hoffset
  induction h with
  | @next s s₁ out hnext hrest ih =>
    have hfree := hnext.unlimited hoffset
    rcases ih (hnext.goes hoffset).offset_le with hruns | ⟨s₂, hout, hexceeds, hpast⟩
    · exact .inl (.next hfree hruns)
    · refine .inr ⟨s₂, hout, hexceeds, ?_⟩
      intro free hruns
      cases hruns with
      | next hnext' hrest' =>
        rw [hnext'.unique hfree] at hrest'
        exact hpast free hrest'
      | starved h' | final h' => simp [Continues, h'] at hfree
  | @starved s s₁ h =>
    rcases hround s hoffset with hsame | ⟨s', hfinal, -, -⟩
    · exact .inl (.starved (hsame.symm.trans h))
    · simp [hfinal] at h
  | @final s s₁ err h =>
    rcases hround s hoffset with hsame | ⟨s', hfinal, hexceeds, hweight⟩
    · exact .inl (.final (hsame.symm.trans h))
    · rw [hfinal] at h
      injection h with hscanner herr
      subst hscanner herr
      exact .inr ⟨s', rfl, hexceeds, fun free hruns => hweight.trans (hruns.round_weight hoffset)⟩

end

end

end Gouroboros.Protocol

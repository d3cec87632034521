import Gouroboros.Protocol.Framing

/-!
# Framing of messages in a stream

A message is a well-formed array whose first element is its type. The scanner finds it in every cut
of a stream that starts with it (`message_framing`).
-/

namespace Gouroboros.Protocol

open Ledger (ByteString)
open Cbor (Token tokenBytes)

section
variable {maxNestedLevels messageType : Nat} {m data : ByteString} {out : ScanStep}

section

variable (h : IsMessage maxNestedLevels messageType m)
include h

theorem IsMessage.levels_pos : 0 < maxNestedLevels := by
  rcases h with ⟨⟨depth, hdepth, hitems⟩, first, rest, -, -, hstart⟩
  have hpos : 0 < depth := by
    rcases hstart with ⟨root, hroot, rfl⟩ | rfl
    · generalize hm : root.bytes ++ (first.bytes ++ rest) = m at hitems
      cases hitems with
      | definite head payload hpayload hnests hchildren hrest =>
        rcases Cbor.Head.append_inj hm with ⟨rfl, -⟩
        exact hnests ⟨by omega, by omega⟩
      | indefinite major hlow hhigh hchildren hcontent hrest => exact Nat.succ_pos _
    · generalize hm : Cbor.indefiniteByte 4 :: (first.bytes ++ rest) = m at hitems
      cases hitems with
      | definite head payload hpayload hnests hchildren hrest =>
        injection hm with hbyte _
        exact absurd hbyte.symm (Cbor.initialByte_ne_indefiniteByte head (by decide))
      | indefinite major hlow hhigh hchildren hcontent hrest => exact Nat.succ_pos _
  omega

theorem IsMessage.length_pos : 0 < m.length := by
  rcases h with ⟨-, first, rest, -, -, ⟨root, -, rfl⟩ | rfl⟩
  · exact Nat.succ_pos _
  · exact Nat.succ_pos _

theorem IsMessage.runs (hlength : m.length < 2 ^ 63) (rest : ByteString) :
    ∃ s', Runs maxNestedLevels (m ++ rest) 0 .new (.final s' none) ∧ s'.complete ∧
      s'.offset = m.length ∧ s'.weight = m.length ∧ s'.messageType = messageType ∧
      s'.hasMessageType := by
  rcases h.1 with ⟨depth, hdepth, hitems⟩
  rcases hitems.itemTokens with ⟨tokens, htokens, hbytes⟩
  rcases h.tokens hlength htokens hdepth hbytes with ⟨root, level, first, later, rfl, hmessage⟩
  rw [← hbytes]
  exact hmessage.runs h.levels_pos rfl

end

/-- What a run without a limit has found in the first bytes of a stream with a message. -/
structure Found (m : ByteString) (messageType : Nat) (data : ByteString) (out : ScanStep) : Prop where
  err_eq : out.err = none
  weight_le : out.scanner.weight ≤ m.length
  complete_iff : out.scanner.complete = true ↔ m.length ≤ data.length
  offset_eq : out.scanner.complete = true → out.scanner.offset = m.length
  messageType_eq : out.scanner.complete = true → out.scanner.messageType = messageType
  hasMessageType_eq : out.scanner.complete = true → out.scanner.hasMessageType = true

variable {rest : ByteString}

section

variable (h : IsMessage maxNestedLevels messageType m)
include h

theorem IsMessage.found (hlength : m.length < 2 ^ 63) (hdata : data <+: m ++ rest)
    (hout : Runs maxNestedLevels data 0 .new out) : Found m messageType data out := by
  rcases hdata with ⟨more, hwhole⟩
  rcases h.runs hlength rest with ⟨s', hruns, hcomplete, hoffset, hweight, htype, hhas⟩
  rw [← hwhole] at hruns
  rcases hout.stops with ⟨s₁, rfl⟩ | ⟨s₁, err, rfl⟩
  · -- the scanner wants bytes, so the message is not there
    have hopen := hout.starved_open (Nat.zero_le _)
    have hbound := (hout.bounds (Nat.zero_le _)).1
    have hmore : s₁.offset ≤ (data ++ more).length := by
      rw [List.length_append]
      exact hbound.trans (Nat.le_add_right _ _)
    rcases @Runs.total maxNestedLevels (data ++ more) 0 s₁ hmore with ⟨out', hout'⟩
    have hsame := (hout.append_starved (Nat.zero_le _) more hout').unique hruns
    subst hsame
    have hle := (hout'.bounds hmore).2
    have hunreported : ∀ {P : Prop}, s₁.complete → P := fun hreported =>
      absurd hreported (Bool.eq_false_iff.mp hopen)
    refine ⟨rfl, hle.trans hweight.le, ?_, hunreported, hunreported, hunreported⟩
    refine ⟨hunreported, ?_⟩
    intro hpresent
    have hprefix : m <+: data := by
      apply List.prefix_of_prefix_length_le (List.prefix_append m rest) ⟨more, hwhole⟩ hpresent
    rcases hprefix with ⟨extra, rfl⟩
    rcases h.runs hlength extra with ⟨s₂, hruns₂, -⟩
    cases hout.unique hruns₂
  · have hsame := (hout.append_final (Nat.zero_le _) more).unique hruns
    injection hsame with hscanner herr
    subst hscanner herr
    have hbound := (hout.bounds (Nat.zero_le _)).1
    exact ⟨rfl, hweight.le, ⟨fun _ => hoffset ▸ hbound, fun _ => hcomplete⟩, fun _ => hoffset,
      fun _ => htype, fun _ => hhas⟩

section

variable {limit : Int} (hlength : m.length < 2 ^ 63)
  (hout : Runs maxNestedLevels data limit .new out)
include hlength hout

theorem IsMessage.found_within (hlimit : limit = 0 ∨ m.length ≤ limit) (hdata : data <+: m ++ rest) :
    Found m messageType data out := by
  rcases hout.limited (Nat.zero_le _) with hfree | ⟨s₁, rfl, hexceeds, hpast⟩
  · exact h.found hlength hdata hfree
  · rcases @Runs.total maxNestedLevels data 0 .new (Nat.zero_le _) with ⟨free, hfree⟩
    have hweight := (h.found hlength hdata hfree).weight_le
    have hle := hpast free hfree
    rw [exceedsLimit_iff] at hexceeds
    omega

theorem IsMessage.oversized (hpos : 0 < limit) (hlimit : limit < m.length)
    (hdata : data <+: m ++ rest) :
    out.err = none ∧ (out.scanner.complete → out.scanner.exceedsLimit limit) := by
  rcases hout.limited (Nat.zero_le _) with hfree | ⟨s₁, rfl, hexceeds, -⟩
  · have hfound := h.found hlength hdata hfree
    refine ⟨hfound.err_eq, ?_⟩
    intro hcomplete
    rw [exceedsLimit_iff, MessageScanner.weight, hfound.offset_eq hcomplete]
    omega
  · exact ⟨rfl, fun _ => hexceeds⟩

theorem IsMessage.oversized_of_header {depth : Nat} {tokens before after : List Token}
    {token : Token} (hpos : 0 < limit) (hdepth : depth ≤ maxNestedLevels)
    (htokens : Cbor.ItemTokens depth 1 tokens) (hbytes : tokenBytes tokens = m)
    (hsplit : tokens = before ++ token :: after)
    (hpast : limit < (tokenBytes before).length + token.bytes.length)
    (hheader : tokenBytes before ++ token.header <+: data) : out.scanner.exceedsLimit limit := by
  rcases hout.limited (Nat.zero_le _) with hfree | ⟨s₁, rfl, hexceeds, -⟩
  · rcases h.tokens hlength htokens hdepth hbytes with ⟨root, level, first, later, rfl, hmessage⟩
    rcases hheader with ⟨post, rfl⟩
    have hdata : tokenBytes before ++ token.header ++ post =
        tokenBytes before ++ (token.header ++ post) := List.append_assoc ..
    rcases hmessage.passes h.levels_pos hsplit hdata with ⟨s', hleads, hoffset, hweight⟩
    have hpresent : s'.offset ≤ (tokenBytes before ++ token.header ++ post).length := by
      rw [List.length_append, List.length_append, hoffset]
      omega
    rcases @Runs.total maxNestedLevels _ 0 s' hpresent with ⟨out', hout'⟩
    have hsame := (hleads out' hout').unique hfree
    subst hsame
    have hle := (hout'.bounds hpresent).2
    rw [exceedsLimit_iff]
    omega
  · exact hexceeds

end

end

end

/-- Framing does not depend on the cuts and is exact. For a message that keeps to the limit, no call
returns an error, a call that reports it has all of its bytes and its length and type, and the last
call reports it once its bytes are there. For a message past the limit, no call returns an error or
reports it without reporting it as oversized, and the last call does so once a header of the message
is there that ends, or announces a string that ends, past the limit. For any bytes the last call
returns what one call over all of them would. -/
theorem message_framing (maxNestedLevels : Nat) :
    (∀ (messageType : Nat) (m rest : ByteString) (limit : Int) (chunks : List ByteString),
      IsMessage maxNestedLevels messageType m → m.length < 2 ^ 63 →
      (limit = 0 ∨ m.length ≤ limit) → chunks.flatten <+: m ++ rest →
      (∀ call ∈ feedAll maxNestedLevels limit chunks, call.err = none ∧
        (call.result.complete = true → m.length ≤ call.present ∧
          call.result.messageLength = m.length ∧ call.result.messageType = messageType)) ∧
      (m.length ≤ chunks.flatten.length → ∃ result,
        verdict (feedAll maxNestedLevels limit chunks) = some (result, none) ∧
          result.complete = true ∧ result.messageLength = m.length ∧
          result.messageType = messageType)) ∧
    (∀ (messageType : Nat) (m rest : ByteString) (limit : Int) (chunks : List ByteString),
      IsMessage maxNestedLevels messageType m → m.length < 2 ^ 63 → 0 < limit → limit < m.length →
      chunks.flatten <+: m ++ rest →
      (∀ call ∈ feedAll maxNestedLevels limit chunks, call.err = none ∧
        (call.result.complete = true → call.result.oversized = true)) ∧
      ∀ (depth : Nat) (tokens before after : List Token) (token : Token), depth ≤ maxNestedLevels →
        Cbor.ItemTokens depth 1 tokens → tokenBytes tokens = m → tokens = before ++ token :: after →
        limit < (tokenBytes before).length + token.bytes.length →
        (tokenBytes before).length + token.header.length ≤ chunks.flatten.length → ∃ result,
          verdict (feedAll maxNestedLevels limit chunks) = some (result, none) ∧
            result.oversized = true) ∧
    ∀ (limit : Int) (chunks : List ByteString), chunks ≠ [] →
      verdict (feedAll maxNestedLevels limit chunks) =
        verdict (feedAll maxNestedLevels limit [chunks.flatten]) := by
  refine ⟨?_, ?_, fun limit chunks hchunks => verdict_flatten hchunks⟩
  · intro messageType m rest limit chunks hmessage hlength hlimit hstream
    constructor
    · intro call hcall
      rcases feedAll_calls hcall with ⟨data, out, hdata, hpresent, hout, hreport⟩
      have hfound := hmessage.found_within hlength hout hlimit (hdata.trans hstream)
      rcases hreport with rfl | ⟨herr, hopen⟩
      · refine ⟨hfound.err_eq, ?_⟩
        intro hcomplete
        exact ⟨hfound.complete_iff.mp hcomplete, hfound.offset_eq hcomplete,
          hfound.messageType_eq hcomplete⟩
      · refine ⟨herr, ?_⟩
        intro hcomplete
        exact absurd hcomplete (Bool.eq_false_iff.mp hopen)
    · intro hall
      have hchunks : chunks ≠ [] := by
        rintro rfl
        exact absurd hall (Nat.not_le.mpr hmessage.length_pos)
      rcases @verdict_feedAll maxNestedLevels limit chunks hchunks with ⟨out, hout, hverdict⟩
      have hfound := hmessage.found_within hlength hout hlimit hstream
      have hcomplete := hfound.complete_iff.mpr hall
      refine ⟨out.scanner.result limit, ?_, hcomplete, hfound.offset_eq hcomplete,
        hfound.messageType_eq hcomplete⟩
      rw [hverdict, hfound.err_eq]
  · intro messageType m rest limit chunks hmessage hlength hpos hlimit hstream
    constructor
    · intro call hcall
      rcases feedAll_calls hcall with ⟨data, out, hdata, hpresent, hout, hreport⟩
      have hpast := hmessage.oversized hlength hout hpos hlimit (hdata.trans hstream)
      rcases hreport with rfl | ⟨herr, hopen⟩
      · exact hpast
      · refine ⟨herr, ?_⟩
        intro hcomplete
        exact absurd hcomplete (Bool.eq_false_iff.mp hopen)
    · intro depth tokens before after token hdepth htokens hbytes hsplit hpast hheader
      have hchunks : chunks ≠ [] := by
        rintro rfl
        have hpos := Cbor.length_header_pos token
        rw [List.flatten_nil, List.length_nil] at hheader
        omega
      rcases @verdict_feedAll maxNestedLevels limit chunks hchunks with ⟨out, hout, hverdict⟩
      have hend := hmessage.oversized hlength hout hpos hlimit hstream
      have hpresent : tokenBytes before ++ token.header <+: chunks.flatten := by
        have hinside : tokenBytes before ++ token.header <+: m ++ rest := by
          refine List.IsPrefix.trans ⟨token.payload ++ tokenBytes after, ?_⟩ (List.prefix_append m rest)
          rw [← hbytes, hsplit, Cbor.tokenBytes_append, Cbor.tokenBytes_cons, Token.bytes]
          simp only [List.append_assoc]
        apply List.prefix_of_prefix_length_le hinside hstream
        rw [List.length_append]
        exact hheader
      have hexceeds := hmessage.oversized_of_header hlength hout hpos hdepth htokens hbytes hsplit
        hpast hpresent
      refine ⟨out.scanner.result limit, ?_, hexceeds⟩
      rw [hverdict, hend.1]

/-! ## A message with a long header -/

def rootHead : Cbor.Head := ⟨4, 2, [], by decide, by decide, rfl⟩

def typeHead : Cbor.Head := ⟨0, 0, [], by decide, by decide, rfl⟩

def longHead : Cbor.Head := ⟨0, 27, [0, 0, 0, 0, 0, 0, 0, 0], by decide, by decide, rfl⟩

/-- An array of the message type 0 and of a 0 in nine bytes. -/
def longMessage : ByteString := [0x82, 0x00, 0x1b, 0, 0, 0, 0, 0, 0, 0, 0]

theorem longMessage_isMessage : IsMessage 16384 0 longMessage := by
  refine ⟨⟨1, by decide, ?_⟩, typeHead, longHead.bytes, rfl, rfl, .inl ⟨rootHead, rfl, rfl⟩⟩
  have hlong : Cbor.Items 0 1 longHead.bytes := .definite longHead [] rfl (by decide) .nil .nil
  have htype : Cbor.Items 0 2 (typeHead.bytes ++ longHead.bytes) :=
    .definite typeHead [] rfl (by decide) .nil hlong
  exact .definite rootHead [] rfl (fun _ => Nat.one_pos) htype .nil

theorem longMessage_tokens :
    Cbor.ItemTokens 1 1 [.item rootHead [], .item typeHead [], .item longHead []] := by
  have hlong : Cbor.ItemTokens 0 1 [.item longHead []] :=
    .definite longHead [] rfl (by decide) .nil .nil
  have htype : Cbor.ItemTokens 0 2 [.item typeHead [], .item longHead []] :=
    .definite typeHead [] rfl (by decide) .nil hlong
  exact .definite rootHead [] rfl (fun _ => Nat.one_pos) htype .nil

/-- Cut inside the long header it is reported with its last byte; with a limit of 5 it is oversized
once the long header is there. -/
theorem message_framing_longMessage :
    (∃ result, verdict (feedAll 16384 0 [[0x82], [0x00, 0x1b, 0, 0], [0, 0, 0, 0, 0, 0, 0x80]]) =
      some (result, none) ∧ result.complete = true ∧ result.messageLength = 11 ∧
      result.messageType = 0) ∧
    (∃ result, verdict (feedAll 16384 5 [longMessage]) = some (result, none) ∧
      result.oversized = true) ∧
    verdict (feedAll 16384 5 [[0x82], [0x01, 0xff]]) = verdict (feedAll 16384 5 [[0x82, 0x01, 0xff]]) := by
  have hframing := message_framing 16384
  refine ⟨?_, ?_, hframing.2.2 5 _ (by decide)⟩
  · exact (hframing.1 0 longMessage [0x80] 0 _ longMessage_isMessage (by decide) (.inl rfl)
      (by decide)).2 (by decide)
  · exact (hframing.2.1 0 longMessage [] 5 [longMessage] longMessage_isMessage (by decide) (by decide)
      (by decide) (by decide)).2 1 _ [.item rootHead [], .item typeHead []] [] (.item longHead [])
      (by decide) longMessage_tokens rfl rfl (by decide) (by decide)

/-- A header that is cut at the limit: three bytes past the limit are in the buffer, and no call
reports the message as oversized. -/
theorem oversized_not_reported_in_header :
    IsMessage 16384 0 longMessage ∧ 5 < longMessage.length ∧
      [longMessage.take 8].flatten <+: longMessage ∧ 5 < [longMessage.take 8].flatten.length ∧
      (feedAll 16384 5 [longMessage.take 8]).map (fun call => (call.err, call.result.oversized)) =
        [(none, false), (none, false)] :=
  ⟨longMessage_isMessage, by decide, by decide, by decide, by decide⟩

end Gouroboros.Protocol

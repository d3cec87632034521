import Gouroboros.Protocol.ScannerRuns

/-!
# Calls of the scanner

Every call of `scan` ends, and what the calls after a chunk return last is the run
over the buffer (`feed_cons`). A scanner that earlier chunks have left goes on as a
new scanner would over the whole buffer (`Resumes`), so the last call does not
depend on how the bytes were cut. Nor does it matter if the limit changes from call
to call, as long as no call is past its own (`scan_passes`).
-/

namespace Gouroboros.Protocol

open Ledger (ByteString)

section
variable {levels : Nat} {data : ByteString} {maxBytes : Int} {s s₁ : MessageScanner}

/-! ## One call -/

/-- What a call returns: the end of its run, or the scanner at the message type, from which the run
goes on. -/
inductive Returns (maxNestedLevels : Nat) (data : ByteString) (maxBytes : Int) (s : MessageScanner) :
    ScanReturn → Prop
  | starved {s₁ : MessageScanner} (h : Runs maxNestedLevels data maxBytes s (.starved s₁))
      (htype : s₁.hasMessageType = s.hasMessageType) (hroot : s.rootItems ≤ s₁.rootItems) :
      Returns maxNestedLevels data maxBytes s ⟨s₁, none⟩
  | final {s₁ : MessageScanner} {err : Option ScanError}
      (h : Runs maxNestedLevels data maxBytes s (.final s₁ err)) (htype : KeepsType s s₁) :
      Returns maxNestedLevels data maxBytes s ⟨s₁, err⟩
  | early {s₁ : MessageScanner} (hfirst : s.rootItems = 0) (hroot : 0 < s₁.rootItems)
      (htype : s₁.hasMessageType = true) (hoffset : s₁.offset ≤ data.length)
      (hrest : ∀ out, Runs maxNestedLevels data maxBytes s₁ out →
        Runs maxNestedLevels data maxBytes s out) :
      Returns maxNestedLevels data maxBytes s ⟨s₁, none⟩

/-! ### The last round of a call -/

/-- With any bytes after the buffer, and without a limit, the scan from `s` comes by `s₁`. -/
def Passes (maxNestedLevels : Nat) (data : ByteString) (s s₁ : MessageScanner) : Prop :=
  ∀ more out, Runs maxNestedLevels (data ++ more) 0 s₁ out →
    Runs maxNestedLevels (data ++ more) 0 s out

variable {out : ScanStep}

theorem Passes.runs (h : Passes levels data s s₁) (hout : Runs levels data 0 s₁ out) :
    Runs levels data 0 s out := by
  have hruns := h [] out
  rw [List.append_nil] at hruns
  exact hruns hout

theorem Passes.append {more : ByteString} (h : Passes levels data s s₁) :
    Passes levels (data ++ more) s s₁ := by
  intro later out hout
  rw [List.append_assoc] at hout ⊢
  exact h (more ++ later) out hout

variable {s₂ : MessageScanner}

theorem Passes.trans (h : Passes levels data s s₁)
    (h' : Passes levels data s₁ s₂) : Passes levels data s s₂ :=
  fun more out hout => h more out (h' more out hout)

theorem Continues.passes (h : Continues levels data maxBytes s s₁)
    (hoffset : s.offset ≤ data.length) : Passes levels data s s₁ :=
  fun more _ hout => .next ((h.unlimited hoffset).append hoffset more) hout

def ScanStep.err : ScanStep → Option ScanError
  | .final _ err => err
  | .again _ => none
  | .early _ => none
  | .starved _ => none

def ScanStep.returned (out : ScanStep) : ScanReturn := ⟨out.scanner, out.err⟩

theorem scanRound_of_open (hopen : s.complete = false) :
    scanRound levels data maxBytes s = scanStep levels data maxBytes s := by
  rw [scanRound, hopen]
  rfl

/-- The rounds of a call from `s` that go on in it lead to `s₀`. -/
structure LastRound (maxNestedLevels : Nat) (data : ByteString) (maxBytes : Int)
    (s s₀ : MessageScanner) : Prop where
  offset_le : s₀.offset ≤ data.length
  type_eq : s₀.hasMessageType = s.hasMessageType
  rootItems_le : s.rootItems ≤ s₀.rootItems
  runs : ∀ out, Runs maxNestedLevels data maxBytes s₀ out → Runs maxNestedLevels data maxBytes s out
  passes : Passes maxNestedLevels data s s₀
  stops : ∀ s₁, scanRound maxNestedLevels data maxBytes s₀ ≠ .again s₁

theorem LastRound.refl (hoffset : s.offset ≤ data.length)
    (hstops : ∀ s₁, scanRound levels data maxBytes s ≠ .again s₁) :
    LastRound levels data maxBytes s s :=
  ⟨hoffset, rfl, le_rfl, fun _ => id, fun _ _ => id, hstops⟩

theorem scanLoop_last : ∀ (fuel : Nat) (s : MessageScanner), scanFuel data s < fuel →
    s.offset ≤ data.length → s.complete = false →
    ∃ s₀, LastRound levels data maxBytes s s₀ ∧
      scanLoop levels data maxBytes fuel s = (scanRound levels data maxBytes s₀).returned := by
  intro fuel
  induction fuel with
  | zero => exact fun s hfuel => absurd hfuel (Nat.not_lt_zero _)
  | succ fuel ih =>
    intro s hfuel hoffset hopen
    have hsound := @scanStep_sound levels data maxBytes s hoffset
    have hround := @scanRound_of_open levels data maxBytes s hopen
    rw [scanLoop]
    cases hstep : scanStep levels data maxBytes s with
    | again s₁ =>
      rw [hstep] at hsound hround
      rcases hsound with ⟨hgoes, htype, hstill⟩
      have hnext : Continues levels data maxBytes s s₁ := .inl hround
      have hfuel₁ := hgoes.fuel_lt
      rcases ih s₁ (by omega) hgoes.offset_le (hstill hopen) with ⟨s₀, hlast, hloop⟩
      exact ⟨s₀, ⟨hlast.offset_le, hlast.type_eq.trans htype, hgoes.rootItems_le.trans hlast.rootItems_le,
        fun out hout => .next hnext (hlast.runs out hout), (hnext.passes hoffset).trans hlast.passes,
        hlast.stops⟩, hloop⟩
    | early | starved | final =>
      rw [hstep] at hround
      refine ⟨s, .refl hoffset ?_, ?_⟩
      · rw [hround]
        exact nofun
      · rw [hround]
        rfl

section

variable (hoffset : s.offset ≤ data.length)
include hoffset

theorem scan_last :
    ∃ s₀, LastRound levels data maxBytes s s₀ ∧
      scan levels data maxBytes s = (scanRound levels data maxBytes s₀).returned := by
  unfold scan
  split
  next hcomplete =>
    have hround : scanRound levels data maxBytes s = .final s none := if_pos hcomplete
    refine ⟨s, .refl hoffset ?_, ?_⟩
    · rw [hround]
      exact nofun
    · rw [hround]
      rfl
  next hopen =>
    rw [if_neg (Nat.not_lt.mpr hoffset)]
    exact scanLoop_last _ s (Nat.lt_succ_self _) hoffset (Bool.eq_false_iff.mpr hopen)

theorem scan_returns : Returns levels data maxBytes s (scan levels data maxBytes s) := by
  rcases @scan_last levels data maxBytes s hoffset with ⟨s₀, hlast, hscan⟩
  rw [hscan]
  cases hround : scanRound levels data maxBytes s₀ with
  | again s₁ => exact absurd hround (hlast.stops s₁)
  | early s₁ =>
    rcases scanRound_sound hlast.offset_le hround with ⟨hgoes, hfirst, hroot, htype⟩
    have hle := hlast.rootItems_le
    exact .early (by omega) hroot htype hgoes.offset_le fun out hout =>
      hlast.runs out (.next (.inr hround) hout)
  | starved s₁ =>
    have hsound := scanRound_sound hlast.offset_le hround
    exact .starved (hlast.runs _ (.starved hround)) (hsound.2.2.2.1.trans hlast.type_eq)
      (hlast.rootItems_le.trans hsound.2.2.1.ge)
  | final s₁ err =>
    have hsound := scanRound_sound hlast.offset_le hround
    have hkeeps := keepsType_of_eq hlast.type_eq hlast.rootItems_le
    exact .final (hlast.runs _ (.final hround))
      ⟨fun hread => hsound.2.2.1.1 (hkeeps.1 hread), fun hread => hsound.2.2.1.2 (hkeeps.2 hread)⟩

theorem scan_of_final (h : scanRound levels data maxBytes s = .final s none) :
    scan levels data maxBytes s = ⟨s, none⟩ := by
  unfold scanRound at h
  unfold scan
  split
  next => rfl
  next hopen =>
    rw [if_neg hopen] at h
    rw [if_neg (Nat.not_lt.mpr hoffset), scanLoop, h]

end

end

/-! ## The calls after a chunk -/

/-- The call that returns the end of a run. -/
def ScanStep.call (present : Nat) (maxBytes : Int) (out : ScanStep) : ScanCall :=
  ⟨present, out.scanner.result maxBytes, out.err⟩

section
variable {levels : Nat} {maxBytes : Int} {s : MessageScanner} {buffer chunk : ByteString}
  {chunks : List ByteString}

attribute [simp] ScanReturn.call ScanStep.call ScanStep.err ScanStep.scanner

/-- The end of a run as the last of the calls after a chunk, behind `early` calls. -/
def Feeds (maxNestedLevels : Nat) (maxBytes : Int) (s : MessageScanner) (buffer chunk : ByteString)
    (chunks : List ByteString) (out : ScanStep) (early : List ScanCall) : Prop :=
  feed maxNestedLevels maxBytes s s.hasMessageType buffer (chunk :: chunks) =
    early ++ out.call (buffer ++ chunk).length maxBytes :: (if out.err.isSome then []
      else feed maxNestedLevels maxBytes out.scanner out.scanner.hasMessageType (buffer ++ chunk)
        chunks)

theorem earlyCall_reports {data : ByteString} (hout : Runs levels data maxBytes s out) :
    ∀ call ∈ [ScanReturn.call data.length maxBytes ⟨s, none⟩], call.present = data.length ∧
      call.err = none ∧ (call.result.complete → call = out.call data.length maxBytes) := by
  intro call hcall
  rw [List.mem_singleton] at hcall
  subst hcall
  refine ⟨rfl, rfl, fun hcomplete => ?_⟩
  have hround : scanRound levels data maxBytes s = .final s none := if_pos hcomplete
  rw [hout.unique (.final hround)]
  rfl

/-- The calls after a chunk end with the end of the run over the buffer. At most one comes before
it, without an error, and what it reports is reported again. -/
theorem feed_cons (hoffset : s.offset ≤ (buffer ++ chunk).length) (hread : TypeRead s) :
    ∃ out early, Runs levels (buffer ++ chunk) maxBytes s out ∧ TypeRead out.scanner ∧
      (∀ call ∈ early, call.present = (buffer ++ chunk).length ∧ call.err = none ∧
        (call.result.complete → call = out.call (buffer ++ chunk).length maxBytes)) ∧
      Feeds levels maxBytes s buffer chunk chunks out early := by
  unfold Feeds
  rw [feed]
  have hfirst := @scan_returns levels (buffer ++ chunk) maxBytes s hoffset
  generalize scan levels (buffer ++ chunk) maxBytes s = first at hfirst ⊢
  cases hfirst with
  | @starved s₁ h htype hroot =>
    -- the message type is as before, so there is no second call
    refine ⟨.starved s₁, [], h, (keepsType_of_eq htype hroot).2 hread, by simp, ?_⟩
    simp [htype]
  | @final s₁ err h htype =>
    refine ⟨.final s₁ err, ?_⟩
    cases err with
    | some err => exact ⟨[], h, htype.2 hread, by simp, by simp⟩
    | none =>
      have hround := h.again_final hoffset
      have hagain : scan levels (buffer ++ chunk) maxBytes s₁ = ⟨s₁, none⟩ :=
        scan_of_final (h.bounds hoffset).1 hround
      by_cases hsecond : (s₁.hasMessageType && !s.hasMessageType)
      · refine ⟨_, h, htype.2 hread, earlyCall_reports (.final hround), ?_⟩
        simp only [Bool.and_eq_true, Bool.not_eq_true'] at hsecond
        simp [hagain, hsecond.1, hsecond.2]
      · have hsame : s₁.hasMessageType = s.hasMessageType := by
          cases hknown : s.hasMessageType with
          | true => exact htype.1 hknown
          | false =>
            rw [hknown, Bool.not_false, Bool.and_true] at hsecond
            exact Bool.eq_false_iff.mpr hsecond
        exact ⟨[], h, htype.2 hread, by simp, by simp [hsame]⟩
  | @early s₁ hfirst hroot htype hoffset₁ hrest =>
    have hunknown : s.hasMessageType = false := by
      by_contra hknown
      have hpos := hread (Bool.eq_true_of_not_eq_false hknown)
      omega
    have hsecond := @scan_returns levels (buffer ++ chunk) maxBytes s₁ hoffset₁
    have hread₁ : TypeRead s₁ := fun _ => hroot
    generalize scan levels (buffer ++ chunk) maxBytes s₁ = second at hsecond
    cases hsecond with
    | @starved s₂ h htype₂ hroot₂ =>
      refine ⟨.starved s₂, _, hrest _ h, (keepsType_of_eq htype₂ hroot₂).2 hread₁,
        earlyCall_reports h, ?_⟩
      simp [htype, hunknown, htype₂]
    | @final s₂ err h htype₂ =>
      refine ⟨.final s₂ err, _, hrest _ h, htype₂.2 hread₁, earlyCall_reports h, ?_⟩
      have hknown := htype₂.1 htype
      cases err with
      | some err => simp [htype, hunknown]
      | none => simp [htype, hunknown, hknown]
    | early hfirst₂ => omega

/-! ## All calls -/

/-- A scanner left behind by the bytes in the buffer: with any bytes after them it goes on as a new
one. -/
def Resumes (maxNestedLevels : Nat) (maxBytes : Int) (buffer : ByteString) (s : MessageScanner) :
    Prop :=
  ∀ more out, Runs maxNestedLevels (buffer ++ more) maxBytes s out →
    Runs maxNestedLevels (buffer ++ more) maxBytes .new out

theorem Runs.resume {data more : ByteString} {out out' : ScanStep}
    (h : Runs levels data maxBytes s out) (hoffset : s.offset ≤ data.length)
    (herr : out.err = none) (hresumed : Runs levels (data ++ more) maxBytes out.scanner out') :
    Runs levels (data ++ more) maxBytes s out' := by
  rcases h.stops with ⟨s₁, rfl⟩ | ⟨s₁, err, rfl⟩
  · exact h.append_starved hoffset more hresumed
  · subst herr
    have hfinal := h.append_final hoffset more
    have hmore : s.offset ≤ (data ++ more).length := by
      rw [List.length_append]
      omega
    have hsame : out' = .final s₁ none := hresumed.unique (.final (hfinal.again_final hmore))
    rw [hsame]
    exact hfinal

theorem Resumes.after (h : Resumes levels maxBytes buffer s)
    (hoffset : s.offset ≤ (buffer ++ chunk).length)
    (hout : Runs levels (buffer ++ chunk) maxBytes s out) (herr : out.err = none) :
    Resumes levels maxBytes (buffer ++ chunk) out.scanner := by
  intro more out' hout'
  have hresumed := hout.resume hoffset herr hout'
  rw [List.append_assoc] at hresumed ⊢
  exact h (chunk ++ more) out' hresumed

theorem feed_calls : ∀ (chunks : List ByteString) (s : MessageScanner) (buffer : ByteString),
    Resumes levels maxBytes buffer s → s.offset ≤ buffer.length → TypeRead s →
    (∀ call ∈ feed levels maxBytes s s.hasMessageType buffer chunks,
      ∃ data out, data <+: buffer ++ chunks.flatten ∧ call.present = data.length ∧
        Runs levels data maxBytes .new out ∧
        (call = out.call data.length maxBytes ∨ call.err = none ∧ call.result.complete = false)) ∧
    (chunks ≠ [] → ∃ present out, Runs levels (buffer ++ chunks.flatten) maxBytes .new out ∧
      (feed levels maxBytes s s.hasMessageType buffer chunks).getLast? =
        some (out.call present maxBytes)) := by
  intro chunks
  induction chunks with
  | nil =>
    intro s buffer _ _ _
    refine ⟨?_, fun h => absurd rfl h⟩
    intro call hcall
    cases hcall
  | cons chunk chunks ih =>
    intro s buffer hresumes hoffset hread
    have hoffset : s.offset ≤ (buffer ++ chunk).length := by
      rw [List.length_append]
      omega
    have hwhole : buffer ++ (chunk :: chunks).flatten = buffer ++ chunk ++ chunks.flatten := by
      rw [List.flatten_cons, List.append_assoc]
    rcases @feed_cons levels maxBytes s buffer chunk chunks hoffset hread with
      ⟨out, early, hout, hread', hearly, hfeeds⟩
    have hnew : Runs levels (buffer ++ chunk) maxBytes .new out := hresumes chunk out hout
    rw [hfeeds, hwhole]
    have hfirst : ∀ call ∈ early ++ [out.call (buffer ++ chunk).length maxBytes], ∃ data out,
        data <+: buffer ++ chunk ++ chunks.flatten ∧ call.present = data.length ∧
          Runs levels data maxBytes .new out ∧ (call = out.call data.length maxBytes ∨
            call.err = none ∧ call.result.complete = false) := by
      intro call hcall
      refine ⟨buffer ++ chunk, out, List.prefix_append _ _, ?_⟩
      rcases List.mem_append.mp hcall with hcall | hcall
      · rcases hearly call hcall with ⟨hpresent, herr, hcomplete⟩
        refine ⟨hpresent, hnew, ?_⟩
        cases hreported : call.result.complete with
        | true => exact .inl (hcomplete hreported)
        | false => exact .inr ⟨herr, rfl⟩
      · rw [List.mem_singleton.mp hcall]
        exact ⟨rfl, hnew, .inl rfl⟩
    cases herr : out.err with
    | some err =>
      constructor
      · exact hfirst
      · intro _
        refine ⟨(buffer ++ chunk).length, out, ?_, ?_⟩
        · rcases hnew.stops with ⟨s₁, rfl⟩ | ⟨s₁, err', rfl⟩
          · cases herr
          · exact hnew.append_final (Nat.zero_le _) chunks.flatten
        · rw [List.getLast?_append]
          rfl
    | none =>
      rw [Option.isSome_none, if_neg Bool.false_ne_true]
      rcases ih out.scanner (buffer ++ chunk) (hresumes.after hoffset hout herr)
        (hout.bounds hoffset).1 hread' with ⟨hcalls, hlast⟩
      rw [List.append_cons]
      constructor
      · intro call hcall
        rcases List.mem_append.mp hcall with hcall | hcall
        · exact hfirst call hcall
        · exact hcalls call hcall
      · intro _
        cases chunks with
        | nil =>
          refine ⟨(buffer ++ chunk).length, out, ?_, ?_⟩
          · rw [List.flatten_nil, List.append_nil]
            exact hnew
          · rw [feed, List.append_nil, List.getLast?_append]
            rfl
        | cons next chunks =>
          rcases hlast (List.cons_ne_nil _ _) with ⟨present, out', hout', hgetLast⟩
          refine ⟨present, out', hout', ?_⟩
          rw [List.getLast?_append, hgetLast]
          rfl

/-! ## Independence of the cuts -/

def verdict (calls : List ScanCall) : Option (MessageScanResult × Option ScanError) :=
  calls.getLast?.map fun call => (call.result, call.err)

theorem resumes_new (levels : Nat) (maxBytes : Int) :
    Resumes levels maxBytes [] .new := fun _ _ h => h

theorem feedAll_calls {call : ScanCall} (h : call ∈ feedAll levels maxBytes chunks) :
    ∃ data out, data <+: chunks.flatten ∧ call.present = data.length ∧
      Runs levels data maxBytes .new out ∧
      (call = out.call data.length maxBytes ∨ call.err = none ∧ call.result.complete = false) :=
  (feed_calls chunks .new [] (resumes_new levels maxBytes) le_rfl nofun).1 call h

theorem verdict_feedAll (h : chunks ≠ []) :
    ∃ out, Runs levels chunks.flatten maxBytes .new out ∧
      verdict (feedAll levels maxBytes chunks) = some (out.scanner.result maxBytes, out.err) := by
  rcases (feed_calls chunks .new [] (resumes_new levels maxBytes) le_rfl nofun).2 h with
    ⟨present, out, hout, hlast⟩
  refine ⟨out, hout, ?_⟩
  have hlast : (feedAll levels maxBytes chunks).getLast? = some (out.call present maxBytes) := hlast
  rw [verdict, hlast]
  rfl

/-- However the bytes are cut, the verdict is that of one call over all of them. -/
theorem verdict_flatten (h : chunks ≠ []) :
    verdict (feedAll levels maxBytes chunks) =
      verdict (feedAll levels maxBytes [chunks.flatten]) := by
  rcases @verdict_feedAll levels maxBytes chunks h with ⟨out, hout, hverdict⟩
  rcases @verdict_feedAll levels maxBytes [chunks.flatten] (List.cons_ne_nil _ _) with
    ⟨out', hout', hverdict'⟩
  rw [List.flatten_singleton] at hout'
  rw [hverdict, hverdict', hout.unique hout']

end

/-! ## Calls under changing limits -/

section
variable {levels : Nat} {data : ByteString} {maxBytes : Int} {s s₁ : MessageScanner}

theorem Runs.passes (h : Runs levels data maxBytes s out) (hoffset : s.offset ≤ data.length)
    (herr : out.err = none) (hlimit : out.scanner.exceedsLimit maxBytes = false) :
    Passes levels data s out.scanner := by
  rcases h.limited hoffset with hfree | ⟨s₁, rfl, hexceeds, -⟩
  · exact fun more out' hout' => hfree.resume hoffset herr hout'
  · exact absurd hexceeds (Bool.eq_false_iff.mp hlimit)

theorem scan_passes (hoffset : s.offset ≤ data.length)
    (herr : (scan levels data maxBytes s).err = none)
    (hlimit : (scan levels data maxBytes s).scanner.exceedsLimit maxBytes = false) :
    Passes levels data s (scan levels data maxBytes s).scanner := by
  rcases @scan_last levels data maxBytes s hoffset with ⟨s₀, hlast, hscan⟩
  rw [hscan] at herr hlimit ⊢
  refine hlast.passes.trans ?_
  cases hround : scanRound levels data maxBytes s₀ with
  | again s₁ => exact absurd hround (hlast.stops s₁)
  | early s₁ =>
    have hnext : Continues levels data maxBytes s₀ s₁ := .inr hround
    exact hnext.passes hlast.offset_le
  | starved s₁ =>
    rw [hround] at hlimit
    have hruns : Runs levels data maxBytes s₀ (.starved s₁) := .starved hround
    exact hruns.passes hlast.offset_le rfl hlimit
  | final s₁ err =>
    rw [hround] at herr hlimit
    have hruns : Runs levels data maxBytes s₀ (.final s₁ err) := .final hround
    exact hruns.passes hlast.offset_le herr hlimit

/-! ### Past the limit at the message type

A call that is past its limit at the message type returns before the item is finished. The loop may
call again with another limit; the scanner it has then finds no other end of the message, though it
may want one more byte for it. -/

/-- What a scan from `s₁` ends with for good, the scan from `s` ends with too. -/
def EndsLike (maxNestedLevels : Nat) (data : ByteString) (s s₁ : MessageScanner) : Prop :=
  ∀ more s' err, Runs maxNestedLevels (data ++ more) 0 s₁ (.final s' err) →
    Runs maxNestedLevels (data ++ more) 0 s (.final s' err)

theorem Passes.endsLike (h : Passes levels data s s₁) : EndsLike levels data s s₁ :=
  fun more _ _ hruns => h more _ hruns

section

variable (h : EndsLike levels data s s₁)
include h

theorem EndsLike.trans (h' : EndsLike levels data s₁ s₂) : EndsLike levels data s s₂ :=
  fun more s' err hends => h more s' err (h' more s' err hends)

theorem EndsLike.append {more : ByteString} : EndsLike levels (data ++ more) s s₁ := by
  intro later s' err hends
  rw [List.append_assoc] at hends ⊢
  exact h (more ++ later) s' err hends

theorem EndsLike.runs {err : Option ScanError} (hends : Runs levels data 0 s₁ (.final s' err)) :
    Runs levels data 0 s (.final s' err) := by
  have hruns := h [] s' err
  rw [List.append_nil] at hruns
  exact hruns hends

end

theorem runs_of_finishItem {frame : MessageScanFrame} {err : Option ScanError}
    (hframes : s.frames = [frame]) (hstarted : s.started) (hpending : s.pendingBytes = 0)
    (hopen : s.complete = false) (h : Runs levels data 0 s (.final s' err)) :
    Runs levels data 0 s.finishItem (.final s' err) := by
  by_cases hleft : frame.indefinite ∨ frame.remaining > 0
  · -- the frame stays, and nothing has changed
    have hclose : closeFrames [frame] = [frame] := if_pos hleft
    have hsame : s.finishItem = s := by
      unfold MessageScanner.finishItem
      cases s
      simp_all
    rw [hsame]
    exact h
  · have hclose : closeFrames [frame] = [] := if_neg hleft
    have hcomplete : s.finishItem.complete := by
      simp [MessageScanner.finishItem, hframes, hclose]
    have hdone : Runs levels data 0 s.finishItem (.final s.finishItem none) :=
      .final (if_pos hcomplete)
    have hlast : { s with frames := [] }.finishItem = s.finishItem := by
      simp [MessageScanner.finishItem, hframes, hclose, closeFrames]
    have hround : scanRound levels data 0 s =
        if s.offset ≥ data.length then .starved s else .final s.finishItem none := by
      have hdefinite : frame.indefinite = false ∧ frame.remaining = 0 := by
        rw [not_or, Bool.not_eq_true] at hleft
        exact ⟨hleft.1, by omega⟩
      rw [scanRound_of_open hopen, scanStep, exceedsLimit_zero, if_neg Bool.false_ne_true, hpending,
        if_neg (Nat.lt_irrefl 0), hstarted, if_neg (by decide), scanInside, hframes]
      dsimp only
      have hfinished : ScanStep.finished s.finishItem = .final s.finishItem none := if_pos hcomplete
      rw [hdefinite.1, hdefinite.2, hlast, hfinished]
      simp
    by_cases hend : s.offset ≥ data.length
    · rw [if_pos hend] at hround
      have hstarved : Runs levels data 0 s (.starved s) := .starved hround
      cases h.unique hstarved
    · rw [if_neg hend] at hround
      have hfinal : Runs levels data 0 s (.final s.finishItem none) := .final hround
      rw [h.unique hfinal]
      exact hdone

section

variable (hoffset : s.offset ≤ data.length)
include hoffset

theorem scan_endsLike (hunknown : s.hasMessageType = false)
    (herr : (scan levels data maxBytes s).err = none)
    (htype : (scan levels data maxBytes s).scanner.hasMessageType) :
    EndsLike levels data s (scan levels data maxBytes s).scanner := by
  rcases @scan_last levels data maxBytes s hoffset with ⟨s₀, hlast, hscan⟩
  have hunknown₀ := hlast.type_eq.trans hunknown
  rw [hscan] at herr htype ⊢
  refine hlast.passes.endsLike.trans ?_
  cases hround : scanRound levels data maxBytes s₀ with
  | again s₁ => exact absurd hround (hlast.stops s₁)
  | early s₁ =>
    have hnext : Continues levels data maxBytes s₀ s₁ := .inr hround
    exact (hnext.passes hlast.offset_le).endsLike
  | starved s₁ =>
    have hsound := scanRound_sound hlast.offset_le hround
    rw [hround] at htype
    exact absurd (htype.symm.trans (hsound.2.2.2.1.trans hunknown₀)) (by decide)
  | final s₁ err =>
    rw [hround] at herr htype
    subst herr
    have hopen : s₀.complete = false := by
      by_contra hcomplete
      rw [scanRound, if_pos (Bool.eq_true_of_not_eq_false hcomplete)] at hround
      injection hround with hs
      exact absurd (htype.symm.trans (hs ▸ hunknown₀)) (by decide)
    rw [scanRound_of_open hopen] at hround
    rcases @scanStep_limited levels data maxBytes s₀ hlast.offset_le with
      hsame | ⟨s', hfinal, hpast⟩
    · rw [hsame, ← scanRound_of_open hopen] at hround
      have hruns : Runs levels data 0 s₀ (.final s₁ none) := .final hround
      exact (hruns.passes hlast.offset_le rfl (exceedsLimit_zero s₁)).endsLike
    · -- the item was not finished, but no end is lost
      rw [hround] at hfinal
      injection hfinal with hs
      subst hs
      rcases hpast.typed hunknown₀ htype with
        ⟨hearly, ⟨frame, hframe⟩, hstarted, hpending, hcomplete⟩
      have hnext : Continues levels data 0 s₀ s₁.finishItem :=
        .inr ((scanRound_of_open hopen).trans hearly)
      intro more s' err hends
      exact hnext.passes hlast.offset_le more _
        (runs_of_finishItem hframe hstarted hpending (hcomplete.trans hopen) hends)

theorem scan_keeps (hread : TypeRead s) :
    (scan levels data maxBytes s).scanner.offset ≤ data.length ∧
      TypeRead (scan levels data maxBytes s).scanner ∧
      (s.hasMessageType → (scan levels data maxBytes s).scanner.hasMessageType) := by
  have hreturns := @scan_returns levels data maxBytes s hoffset
  generalize scan levels data maxBytes s = r at hreturns ⊢
  cases hreturns with
  | starved h htype hroot =>
    have hkeeps := keepsType_of_eq htype hroot
    exact ⟨(h.bounds hoffset).1, hkeeps.2 hread, hkeeps.1⟩
  | final h htype => exact ⟨(h.bounds hoffset).1, htype.2 hread, htype.1⟩
  | early hfirst hroot htype hoffset' hrest => exact ⟨hoffset', fun _ => hroot, fun _ => htype⟩

theorem scan_error {err : ScanError} (herr : (scan levels data maxBytes s).err = some err) :
    Runs levels data 0 s (.final (scan levels data maxBytes s).scanner (some err)) := by
  have hreturns := @scan_returns levels data maxBytes s hoffset
  generalize scan levels data maxBytes s = r at hreturns herr ⊢
  cases hreturns with
  | starved h htype hroot => cases herr
  | early hfirst hroot htype hoffset' hrest => cases herr
  | final h htype =>
    subst herr
    rcases h.limited hoffset with hfree | ⟨s₁, hout, -, -⟩
    · exact hfree
    · cases hout

theorem scan_starved (hread : TypeRead s) (herr : (scan levels data maxBytes s).err = none)
    (hlimit : (scan levels data maxBytes s).scanner.exceedsLimit maxBytes = false)
    (hopen : (scan levels data maxBytes s).scanner.complete = false)
    (htype : (scan levels data maxBytes s).scanner.hasMessageType → s.hasMessageType) :
    Runs levels data 0 s (.starved (scan levels data maxBytes s).scanner) := by
  have hreturns := @scan_returns levels data maxBytes s hoffset
  generalize scan levels data maxBytes s = r at hreturns herr hlimit hopen htype ⊢
  cases hreturns with
  | starved h htype' hroot =>
    rcases h.limited hoffset with hfree | ⟨s₁, hout, -, -⟩
    · exact hfree
    · cases hout
  | early hfirst hroot htype' hoffset' hrest =>
    have hpos := hread (htype htype')
    omega
  | final h htype' =>
    subst herr
    -- an end for good is the end of the message, or past the limit
    have hsound := scanRound_sound (h.bounds hoffset).1 (h.again_final hoffset)
    rcases hsound.2.2.2 rfl with hcomplete | hexceeds
    · exact absurd hcomplete (Bool.eq_false_iff.mp hopen)
    · exact absurd hexceeds (Bool.eq_false_iff.mp hlimit)

end

end

end Gouroboros.Protocol

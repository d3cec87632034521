import Gouroboros.Protocol.BlockFetch.Range.Client

/-!
# What a step of the client does

The steps in a few groups (`Effect`), by what they do to the queue, to the calls of `resolve` that
are still to be made, and to the records of the requests. The handlers at work on a request that
stays queued are one group, with its own cases (`Work`).
-/

namespace Gouroboros.Protocol.BlockFetch.Range

namespace Handler

/-- The request at which the handler is at work. -/
def request : Handler → Option Nat
  | idle | stopped _ => none
  | claimed r _ | recorded r _ | fencing r | reporting r | failing r _ | resolving r _ _ => some r

/-- The handler took the request off the queue, and still has to resolve it. -/
def Owns (r : Nat) : Handler → Prop
  | reporting q | resolving q _ _ => q = r
  | _ => False

theorem Owns.request {r : Nat} {h : Handler} (hown : h.Owns r) : h.request = some r := by
  cases h with
  | reporting | resolving => exact congrArg some hown
  | idle | stopped | claimed | recorded | fencing | failing => exact hown.elim

end Handler

/-! ## The handlers at work -/

inductive Work (cfg : Config) (codec : Codec) (c c' : Client) : Prop where
  /-- The handler was at no request, or fails to retire one that is no longer the first. -/
  | returned (ret : Option ClientError)
      (at_ : ∀ x, c.handler.request = some x → c.queue.head? ≠ some x ∧ ∃ err, c.handler = .failing x err)
      (eq : c' = c.finish ret)
  | started (r : Nat) (eq : c' = c.modify r fun req => { req with started := true })
  /-- The handler goes on to `failRequest`. -/
  | failing (r : Nat) (err : ClientError)
      (at_ : (c.queue.head? = some r ∧ c.handler.request = none) ∨ c.handler.request = some r)
      (eq : c' = { c with handler := .failing r err })
  /-- A second block for `GetBlock` is charged, and not claimed. -/
  | refused (r : Nat) (msg : MsgBlock) (now : Nat) (req : RangeRequest) (ret : Option ClientError)
      (idle : c.handler = .idle) (head : c.queue.head? = some r)
      (charged : (c.request r).chargeBlock now msg.encodedBytes (maxBlocksPerRange cfg)
        (maxRangeBytes cfg) = .ok req)
      (eq : c' = (c.modify r fun _ => req).finish ret)
  | claimed (r : Nat) (msg : MsgBlock) (now : Nat) (req : RangeRequest) (single : Bool)
      (idle : c.handler = .idle) (head : c.queue.head? = some r)
      (charged : (c.request r).chargeBlock now msg.encodedBytes (maxBlocksPerRange cfg)
        (maxRangeBytes cfg) = .ok req)
      (eq : c' = { c.modify r fun _ => { req with blockDelivered := single } with
        handler := .claimed r msg, deliveryMu := some r })
  | recorded (r : Nat) (msg : MsgBlock) (info : HeaderInfo) (req : RangeRequest)
      (at_ : c.handler = .claimed r msg)
      (record : (c.request r).recordBlock info.point info.prevHash = .ok req)
      (eq : c' = { c.modify r fun _ => req with handler := .recorded r ⟨info, msg.encodedBytes⟩ })
  | delivered (r : Nat) (block : Delivered) (next : Handler) (mu : Option Nat)
      (at_ : c.handler = .recorded r block) (goes : next = .idle ∨ ∃ err, next = .failing r err)
      (eq : c' = { c.deliverTo r block with handler := next, deliveryMu := mu })
  | fencing (r : Nat) (idle : c.handler = .idle) (head : c.queue.head? = some r)
      (last : (c.request r).hasLastPoint = true)
      (ends : pointsEqual (c.request r).lastPoint (c.request r).endPoint = true)
      (eq : c' = { c with handler := .fencing r })

variable {cfg : Config} {codec : Codec} {c c' : Client}

theorem Work.idle (ret : Option ClientError) (h : c.handler = .idle) (eq : c' = c.finish ret) :
    Work cfg codec c c' :=
  .returned ret (fun x hx => nomatch (h ▸ hx : Handler.idle.request = some x)) eq

variable {r : Nat}

section

variable {msgName : String} {wantStarted : Bool} (h : c.headForResponse msgName wantStarted = .ok r)
include h

theorem headForResponse_head : c.queue.head? = some r := by
  unfold Client.headForResponse at h
  grind

theorem mem_of_headForResponse : r ∈ c.queue := List.mem_of_mem_head? (headForResponse_head h)

end

theorem work_handleStartBatch
    (hidle : c.handler = .idle) : Work cfg codec c c.handleStartBatch := by
  unfold Client.handleStartBatch
  split
  · exact .idle _ hidle rfl
  · exact .started _ rfl

theorem work_handleBlock (hidle : c.handler = .idle) (msg : MsgBlock) (now : Nat) :
    Work cfg codec c (c.handleBlock cfg msg now) := by
  unfold Client.handleBlock
  split
  · exact .idle _ hidle rfl
  split
  · exact .idle _ hidle rfl
  rename_i r hhead
  split
  · exact .failing _ _ (Or.inl ⟨headForResponse_head hhead, by rw [hidle]; rfl⟩) rfl
  rename_i req hcharge
  split
  · exact .refused r msg now req _ hidle (headForResponse_head hhead) hcharge rfl
  · exact .claimed r msg now req _ hidle (headForResponse_head hhead) hcharge rfl

theorem work_recordClaimed {msg : MsgBlock} (hat : c.handler = .claimed r msg) :
    Work cfg codec c (c.recordClaimed cfg codec r msg) := by
  have htarget : c.handler.request = some r := by rw [hat]; rfl
  unfold Client.recordClaimed
  split
  · exact .failing r _ (Or.inr htarget) rfl
  split
  · exact .failing r _ (Or.inr htarget) rfl
  · exact .recorded r msg _ _ hat ‹_› rfl

theorem work_deliverRecorded {block : Delivered} (hat : c.handler = .recorded r block)
    (answer : Client.DeliveryAnswer) : Work cfg codec c (c.deliverRecorded cfg r block answer) := by
  have htarget : c.handler.request = some r := by rw [hat]; rfl
  have hreturn : Work cfg codec c ((c.deliverTo r block).finish none) :=
    .delivered r block .idle none hat (Or.inl rfl) rfl
  unfold Client.deliverRecorded
  split
  · split
    · exact .failing r _ (Or.inr htarget) rfl
    · exact hreturn
  split
  · exact .failing r _ (Or.inr htarget) rfl
  split
  · exact hreturn
  split
  · split
    · exact .delivered r block _ _ hat (Or.inr ⟨_, rfl⟩) rfl
    · exact hreturn
  · exact .failing r _ (Or.inr htarget) rfl

theorem work_handleBatchDone (hidle : c.handler = .idle) (now : Nat) : Work cfg codec c
    (c.handleBatchDone now) := by
  unfold Client.handleBatchDone
  split
  · exact .idle _ hidle rfl
  rename_i r hhead
  dsimp only
  split
  · exact .failing r _ (Or.inl ⟨headForResponse_head hhead, by rw [hidle]; rfl⟩) rfl
  split
  · exact .failing r _ (Or.inl ⟨headForResponse_head hhead, by rw [hidle]; rfl⟩) rfl
  · exact .fencing r hidle (headForResponse_head hhead) (by grind) (by grind) rfl

/-! ## Every step -/

/-- The ways to take several requests off the queue at once. -/
inductive Removes (c : Client) : List Nat → Client → Prop where
  | watch (proto : Nat) :
      Removes c (c.ofProtocol proto) ((c.ofProtocol proto).foldl Client.removeLocked c)
  | drain : Removes c c.queue c.drainLocked
  | protocol (proto : Nat) : Removes c (c.ofProtocol proto) (c.dropProtocol proto)

inductive Effect (cfg : Config) (codec : Codec) (c : Client) (action : Action) (c' : Client) :
    Prop where
  /-- A watcher finds its request gone. -/
  | gone (eq : c' = c)
  | work (free : ∀ x, ¬ c.handler.Owns x) (work : Work cfg codec c c')
  /-- A handler takes the request off the queue to resolve it. -/
  | take (r : Nat) (outcome : ClientError) (ret : Option ClientError) (hmem : r ∈ c.queue)
      (at_ : ∀ x, c.handler.request = some x → x = r) (free : ∀ x, ¬ c.handler.Owns x)
      (eq : c' = { c.removeLocked r with handler := .resolving r (some outcome) ret })
  /-- The second critical section of `handleBatchDone`. -/
  | complete (r : Nat) (fenceErr : Option String) (fence : action = .fence fenceErr)
      (passed : (cfg.pipelineDelivery (c.request r).delivery && fenceErr.isSome) = false)
      (at_ : c.handler = .fencing r) (eq : c' = c.completeBatch cfg r)
  | report (r : Nat) (callbackErr : Option String) (at_ : c.handler = .reporting r)
      (eq : c' = c.reportBatch r callbackErr)
  | resolve (r : Nat) (outcome ret last : Option ClientError)
      (at_ : c.handler = .resolving r outcome ret)
      (eq : c' = (c.modify r (Client.afterResolve cfg outcome)).finish last)
  /-- A watcher or a shutdown path takes requests off the queue. -/
  | drop (entries : List Nat) (err : ClientError) (behindDelivery : Bool) (mid : Client)
      (removes : Removes c entries mid)
      (eq : c' = { mid with
        retiring := c.retiring ++ entries.map fun q => ⟨q, err, behindDelivery⟩ })
  | retire (i : Nat) (t : Retirement) (entry : c.retiring[i]? = some t)
      (eq : c' = { c.modify t.request (Client.afterResolve cfg (some t.err)) with
        retiring := c.retiring.eraseIdx i })
  | append (start endPoint : Point) (delivery : RequestDelivery) (pipelined estimated : Bool)
      (expectedBytes : UInt64) (protocol deadline : Nat)
      (reserves : pipelined = false → expectedBytes = 0)
      (reports : pipelined = true → cfg.rangeDoneFunc = true)
      (eq : c.sendRequestRange cfg start endPoint delivery pipelined expectedBytes estimated
        protocol deadline = some c')
  | messageSent (r : Nat) (at_ : c.sending = some r)
      (eq : c' = { c with sent := c.sent ++ [r], sending := none })
  | sendFailed (r : Nat) (at_ : c.sending = some r)
      (eq : c' = { c.removeLocked r with sending := none })

theorem effect_handlerStep {action : Action} (hstep : handlerStep cfg codec c action = some c') :
    Effect cfg codec c action c' := by
  unfold handlerStep at hstep
  split at hstep
  case h_8 => cases hstep
  all_goals
    split at hstep
    case h_2 => cases hstep
    rename_i hat
    cases hstep
  · exact .work (by rw [hat]; exact fun _ => id) (work_recordClaimed hat)
  · exact .work (by rw [hat]; exact fun _ => id) (work_deliverRecorded hat _)
  · rename_i fenceErr _ r
    have hcomplete (hpassed : (cfg.pipelineDelivery (c.request r).delivery && fenceErr.isSome) =
        false) : Effect cfg codec c (.fence fenceErr) (c.completeBatch cfg r) :=
      .complete r fenceErr rfl hpassed hat rfl
    unfold Client.fenceBatch
    cases hpipeline : cfg.pipelineDelivery (c.request r).delivery with
    | false => exact hcomplete (by rw [hpipeline]; rfl)
    | true =>
      cases fenceErr with
      | none => exact hcomplete (by rw [hpipeline]; rfl)
      | some err =>
        exact .work (by rw [hat]; exact fun _ => id)
          (.failing r _ (Or.inr (by rw [hat]; rfl)) rfl)
  · exact .report _ _ hat rfl
  · have hfree : ∀ x, ¬ c.handler.Owns x := by rw [hat]; exact fun _ => id
    unfold Client.failRequest
    split
    · exact .take _ _ _ (List.mem_of_mem_head? ‹_›) (by rw [hat]; rintro x ⟨⟩; rfl) hfree rfl
    · refine .work hfree (.returned _ ?_ rfl)
      rw [hat]
      rintro x ⟨⟩
      exact ⟨‹_›, _, rfl⟩
  · rename_i r outcome ret
    obtain ⟨last, heq⟩ := c.resolveAndReturn_eq cfg r outcome ret _
    exact .resolve r outcome ret last hat heq
  · exact .work (by rw [hat]; exact fun _ => id)
      (.returned none (by rw [hat]; exact nofun) rfl)

theorem step_effect {action : Action} (hstep : step cfg codec c action = some c') :
    Effect cfg codec c action c' := by
  unfold step at hstep
  split at hstep
  case h_1 =>
    unfold Client.requestRange at hstep
    split at hstep
    · cases hstep
    · exact .append _ _ _ _ _ _ _ _ (fun hp => absurd hp (by decide)) (by grind) hstep
  case h_2 => exact .append _ _ _ _ _ _ _ _ (fun _ => rfl) (fun hp => absurd hp (by decide)) hstep
  case h_3 => exact .append _ _ _ _ _ _ _ _ (fun _ => rfl) (fun hp => absurd hp (by decide)) hstep
  case h_4 =>
    unfold Client.messageSent at hstep
    split at hstep <;> cases hstep
    exact .messageSent _ ‹_› rfl
  case h_5 =>
    unfold Client.sendFailed at hstep
    split at hstep <;> cases hstep
    exact .sendFailed _ ‹_› rfl
  case h_11 =>
    cases hstep
    exact .drop _ _ _ _ .drain rfl
  case h_12 =>
    cases hstep
    exact .drop _ _ _ _ (.protocol _) rfl
  case h_13 =>
    obtain ⟨t, hi, heq⟩ := c.retire_eq hstep
    exact .retire _ t hi heq
  case h_14 => exact effect_handlerStep hstep
  case h_10 =>
    split at hstep <;> cases hstep
    unfold Client.watchRangeDeadline
    split
    · exact .drop _ _ _ _ (.watch _) rfl
    · exact .gone rfl
  all_goals
    split at hstep
    case isFalse => cases hstep
    rename_i hidle
    have hfree : ∀ x, ¬ c.handler.Owns x := by rw [hidle]; exact fun _ => id
    cases hstep
  · exact .work hfree (work_handleStartBatch hidle)
  · unfold Client.handleNoBlocks
    split
    · exact .work hfree (.idle _ hidle rfl)
    rename_i hhead
    split
    · exact .work hfree
        (.failing _ _ (Or.inl ⟨headForResponse_head hhead, by rw [hidle]; rfl⟩) rfl)
    · exact .take _ _ _ (mem_of_headForResponse hhead) (by rw [hidle]; exact nofun)
        hfree rfl
  · exact .work hfree (work_handleBlock hidle _ _)
  · exact .work hfree (work_handleBatchDone hidle _)

/-! ## What the groups leave alone -/

/-- The two records have the same terms and the same outcome so far. -/
structure SameOutcome (req req' : RangeRequest) : Prop where
  terms : req'.toRangeTerms = req.toRangeTerms
  resolved : req'.resolved = req.resolved
  reports : req'.reports = req.reports
  batchDoneReported : req'.batchDoneReported = req.batchDoneReported

theorem SameOutcome.refl (req : RangeRequest) : SameOutcome req req := ⟨rfl, rfl, rfl, rfl⟩

variable {req req' : RangeRequest}

theorem chargeBlock_eq_ok {now : Nat} {encodedBytes maxBlocks maxBytes : UInt64}
    (h : req.chargeBlock now encodedBytes maxBlocks maxBytes = .ok req') :
    req.blocksReceived < maxBlocks ∧ encodedBytes ≤ maxBytes - req.bytesReceived ∧
      req' = { req with
        blocksReceived := req.blocksReceived + 1
        bytesReceived := req.bytesReceived + encodedBytes } := by
  unfold RangeRequest.chargeBlock at h
  split at h
  · cases h
  split at h
  · cases h
  rename_i hblocks
  split at h
  · cases h
  rename_i hbytes
  cases h
  exact ⟨UInt64.not_le.mp hblocks, UInt64.not_lt.mp fun hover => hbytes (Or.inr hover), rfl⟩

/-- A first block is the start of the range; any other continues the one before, which is not the
end. -/
theorem recordBlock_eq_ok {point : Point} {prevHash : Ledger.ByteString}
    (h : req.recordBlock point prevHash = .ok req') :
    req' = { req with lastPoint := point, hasLastPoint := true } ∧
      pointInRange point req.start req.endPoint = true ∧
      (req.hasLastPoint = false → req.start.hash.isSome → pointsEqual point req.start = true) ∧
      (req.hasLastPoint = true →
        (req.endPoint.hash.isSome → pointsEqual req.lastPoint req.endPoint = false) ∧
        prevHash = req.lastPoint.bytes ∧ req.lastPoint.slot ≤ point.slot) := by
  unfold RangeRequest.recordBlock at h
  split at h
  · cases h
  rename_i hrange
  split at h
  · cases h
  rename_i hend
  cases hlast : req.hasLastPoint with
  | false =>
    rw [hlast] at h
    split at h
    · split at h
      · cases h
      rename_i hstart
      cases h
      exact ⟨rfl, by simpa using hrange, fun _ hhash => by simpa [hhash] using hstart, nofun⟩
    · contradiction
  | true =>
    rw [hlast] at h hend
    split at h
    · contradiction
    split at h
    · cases h
    split at h
    · cases h
    rename_i hslot
    split at h
    · cases h
    rename_i hprev
    cases h
    exact ⟨rfl, by simpa using hrange, nofun, fun _ => ⟨fun hhash => by simpa [hhash] using hend,
      not_not.mp hprev, UInt64.not_lt.mp hslot⟩⟩

theorem sameOutcome_chargeBlock {now : Nat} {encodedBytes maxBlocks maxBytes : UInt64}
    (h : req.chargeBlock now encodedBytes maxBlocks maxBytes = .ok req') :
    SameOutcome req req' := by
  rw [(chargeBlock_eq_ok h).2.2]
  exact ⟨rfl, rfl, rfl, rfl⟩

theorem sameOutcome_recordBlock {point : Point} {prevHash : Ledger.ByteString}
    (h : req.recordBlock point prevHash = .ok req') : SameOutcome req req' := by
  rw [(recordBlock_eq_ok h).1]
  exact ⟨rfl, rfl, rfl, rfl⟩

theorem sameOutcome_update (h : SameOutcome (c.request r) req)
    (x : Nat) : SameOutcome (c.request x) (Function.update c.request r req x) := by
  by_cases hx : x = r
  · subst hx
    rwa [Function.update_self]
  · rw [Function.update_of_ne hx]
    exact .refl _

theorem Work.same (h : Work cfg codec c c') (x : Nat) :
    SameOutcome (c.request x) (c'.request x) := by
  cases h with
  | returned ret at_ eq | failing r err at_ eq | fencing r idle head last ends eq =>
    exact eq ▸ .refl _
  | started r eq | delivered r block next mu at_ goes eq =>
    exact eq ▸ sameOutcome_update (by exact ⟨rfl, rfl, rfl, rfl⟩) x
  | refused r msg now req ret idle head charged eq =>
    exact eq ▸ sameOutcome_update (sameOutcome_chargeBlock charged) x
  | claimed r msg now req single idle head charged eq =>
    obtain ⟨hterms, hresolved, hreports, hflag⟩ := sameOutcome_chargeBlock charged
    exact eq ▸ sameOutcome_update (by exact ⟨hterms, hresolved, hreports, hflag⟩) x
  | recorded r msg info req at_ record eq =>
    exact eq ▸ sameOutcome_update (sameOutcome_recordBlock record) x

theorem Work.keeps (h : Work cfg codec c c') : c'.queue = c.queue ∧
    c'.inFlightBytes = c.inFlightBytes ∧ c'.count = c.count ∧ c'.sending = c.sending ∧
    c'.sent = c.sent ∧ c'.retiring = c.retiring := by
  cases h <;> rename_i eq <;> subst eq <;> exact ⟨rfl, rfl, rfl, rfl, rfl, rfl⟩

theorem Work.handler (h : Work cfg codec c c') (free : ∀ x, ¬ c.handler.Owns x) :
    (∀ x, ¬ c'.handler.Owns x) ∧
      ∀ x, c'.handler.request = some x → x ∈ c.queue ∨ c.handler.request = some x := by
  cases h with
  | started r eq => exact eq ▸ ⟨free, fun x hx => Or.inr hx⟩
  | returned ret at_ eq | refused r msg now req ret idle head charged eq =>
    subst eq
    cases ret <;> exact ⟨fun _ => id, nofun⟩
  | failing r err at_ eq => exact eq ▸ ⟨fun _ => id, fun x hx => by
      cases hx
      exact at_.imp_left fun h => List.mem_of_mem_head? h.1⟩
  | claimed r msg now req single idle head charged eq | fencing r idle head last ends eq =>
    exact eq ▸ ⟨fun _ => id, fun x hx => by cases hx; exact Or.inl (List.mem_of_mem_head? head)⟩
  | recorded r msg info req at_ record eq =>
    exact eq ▸ ⟨fun _ => id, fun x hx => by cases hx; exact Or.inr (by rw [at_]; rfl)⟩
  | delivered r block next mu at_ goes eq =>
    subst eq
    rcases goes with rfl | ⟨err, rfl⟩
    · exact ⟨fun _ => id, nofun⟩
    · exact ⟨fun _ => id, fun x hx => by cases hx; exact Or.inr (by rw [at_]; rfl)⟩

variable {entries : List Nat}

section

variable {mid : Client} (h : Removes c entries mid)
include h

theorem Removes.retains : Client.Retains c mid := by
  cases h with
  | watch proto => exact .foldl Client.retains_removeLocked _ _
  | drain => exact c.retains_drainLocked
  | protocol proto => exact c.retains_dropProtocol proto

theorem Removes.sublist : entries.Sublist c.queue := by
  cases h with
  | watch | protocol => exact List.filter_sublist
  | drain => exact List.Sublist.refl _

theorem Removes.mem_queue (hnodup : c.queue.Nodup) (x : Nat) :
    x ∈ mid.queue ↔ x ∈ c.queue ∧ x ∉ entries := by
  cases h with
  | watch proto => exact Client.mem_queue_foldl_removeLocked hnodup
  | drain => simp [Client.queue_drainLocked]
  | protocol proto =>
    change x ∈ c.queue.filter _ ↔ x ∈ c.queue ∧ x ∉ c.queue.filter _
    simp only [List.mem_filter, Bool.not_eq_eq_eq_not, Bool.not_true, decide_eq_false_iff_not,
      decide_eq_true_eq]
    tauto

end

theorem sendRequestRange_eq_some {start endPoint : Point} {delivery : RequestDelivery}
    {pipelined estimated : Bool} {expectedBytes : UInt64} {protocol deadline : Nat}
    (h : c.sendRequestRange cfg start endPoint delivery pipelined expectedBytes estimated
      protocol deadline = some c') :
    c.sending = none ∧ (pipelined → c.hasInFlightCapacityLocked cfg expectedBytes) ∧
      ∃ terms : RangeTerms, terms.pipelined = pipelined ∧ terms.reservedBytes = expectedBytes ∧
        terms.admittedEmpty = c.queue.isEmpty ∧ terms.start = start ∧ terms.endPoint = endPoint ∧
        c'.request = Function.update c.request c.count { toRangeTerms := terms } ∧
        c'.count = c.count + 1 ∧ c'.queue = c.queue ++ [c.count] ∧
        c'.inFlightBytes = saturatingAdd c.inFlightBytes expectedBytes ∧
        c'.sending = some c.count ∧ c'.sent = c.sent ∧ c'.handler = c.handler ∧
        c'.retiring = c.retiring := by
  unfold Client.sendRequestRange at h
  split at h
  · cases h
  rename_i htoken
  split at h
  · cases h
  cases h
  refine ⟨by simpa using htoken, by grind, _, ?_, ?_, ?_, ?_, ?_, rfl, rfl, rfl, rfl, rfl, rfl, rfl, rfl⟩
  all_goals rfl

end Gouroboros.Protocol.BlockFetch.Range

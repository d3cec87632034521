import Gouroboros.Protocol.BlockFetch.Range.InFlight

/-!
# The terminal outcome of a range request

Several threads can take a request off the queue and report how it ended. `resolveOnce` orders the
calls of `resolve`, so `RangeDoneFunc` is called once. `BatchDoneFunc` is also called outside of
`resolve`, by `handleBatchDone` after its second critical section, which does not look whether the
request is still queued. Where it is, `tokens` counts the calls still to be made, and never exceeds
one (`Single`). Where it is not, `BatchDoneFunc` can be called twice (`batch_done_twice`).
-/

namespace Gouroboros.Protocol.BlockFetch.Range

variable {cfg : Config} {codec : Codec} {c c' : Client}

/-! ## Requests that left the queue -/

/-- How many calls of `resolve` the watchers and shutdown paths still have to make for `r`. -/
def retirements (c : Client) (r : Nat) : Nat := c.retiring.countP (·.request = r)

/-- Some thread took the request off the queue and still has to resolve it. -/
def Owned (c : Client) (r : Nat) : Prop := c.handler.Owns r ∨ 0 < retirements c r

structure Tracked (cfg : Config) (c : Client) (r : Nat) : Prop where
  rangeDone : (c.request r).pipelined = true → cfg.rangeDoneFunc = true ∧
    (c.request r).reports = (c.request r).resolved.toList.map .rangeDone
  left : r ∈ c.sent ++ c.sending.toList → r ∉ c.queue →
    (c.request r).resolved.isSome = true ∨ Owned c r
  silent : (c.request r).pipelined = false → (c.request r).reportsBatchDone cfg = false →
    (c.request r).reports = []

structure Reported (cfg : Config) (c : Client) : Prop where
  accounted : Accounted cfg c
  retiring_lt : ∀ t ∈ c.retiring, t.request < c.count
  handler_lt : ∀ r, c.handler.request = some r → r < c.count
  reporting : ∀ r, c.handler = .reporting r →
    (c.request r).reportsBatchDone cfg = true ∧ (c.request r).batchDoneReported = true
  tracked : ∀ r < c.count, Tracked cfg c r

theorem reportsBatchDone_congr {req req' : RangeRequest}
    (h : req'.toRangeTerms = req.toRangeTerms) :
    req'.reportsBatchDone cfg = req.reportsBatchDone cfg := by
  unfold RangeRequest.reportsBatchDone
  rw [h]

theorem pipelined_of_reportsBatchDone {req : RangeRequest} (h : req.reportsBatchDone cfg) :
    req.pipelined = false := by
  cases hpipelined : req.pipelined with
  | false => rfl
  | true =>
    rw [RangeRequest.reportsBatchDone, hpipelined] at h
    cases h

variable {r : Nat}

theorem Tracked.congr (h : Tracked cfg c r)
    (hterms : (c'.request r).toRangeTerms = (c.request r).toRangeTerms)
    (hresolved : (c'.request r).resolved = (c.request r).resolved)
    (hreports : (c'.request r).reports = (c.request r).reports)
    (hleft : r ∈ c'.sent ++ c'.sending.toList → r ∉ c'.queue →
      (r ∈ c.sent ++ c.sending.toList ∧ r ∉ c.queue) ∨ Owned c' r)
    (howned : Owned c r → Owned c' r) : Tracked cfg c' r := by
  have hpipelined : (c'.request r).pipelined = (c.request r).pipelined :=
    congrArg RangeTerms.pipelined hterms
  constructor
  · rw [hpipelined, hreports, hresolved]
    exact h.rangeDone
  · intro hwire hout
    rcases hleft hwire hout with ⟨hwire, hout⟩ | hown
    · rw [hresolved]
      exact (h.left hwire hout).imp_right howned
    · exact Or.inr hown
  · rw [hpipelined, reportsBatchDone_congr hterms, hreports]
    exact h.silent

theorem reported_start : Reported cfg Client.start where
  accounted := accounted_start
  retiring_lt := fun _ ht => absurd ht List.not_mem_nil
  handler_lt := nofun
  reporting := nofun
  tracked := fun _ hr => absurd hr (Nat.not_lt_zero _)

/-! ## Resolving -/

theorem batchDoneReported_afterResolve (outcome : Option ClientError) (req : RangeRequest) :
    (Client.afterResolve cfg outcome req).batchDoneReported = req.batchDoneReported := by
  unfold Client.afterResolve
  split <;> rfl

theorem isSome_resolved_afterResolve (outcome : Option ClientError) (req : RangeRequest) :
    (Client.afterResolve cfg outcome req).resolved.isSome := by
  unfold Client.afterResolve
  split
  · assumption
  · rfl

section

variable {req : RangeRequest} {outcome : Option ClientError}

theorem resolveReport_of_pipelined (hpipelined : req.pipelined) (hfunc : cfg.rangeDoneFunc) :
    Client.resolveReport cfg req outcome = some (.rangeDone outcome) := by
  rw [Client.resolveReport, hpipelined, hfunc]
  rfl

theorem resolveReport_of_silent (hpipelined : req.pipelined = false)
    (hsilent : req.reportsBatchDone cfg = false) : Client.resolveReport cfg req outcome = none := by
  rw [Client.resolveReport, hpipelined, Bool.false_and, if_neg Bool.false_ne_true]
  refine if_neg fun hreports => ?_
  simp only [RangeRequest.reportsBatchDone, hpipelined, Bool.and_eq_true] at hsilent hreports
  simp [hreports] at hsilent

theorem resolveReport_of_reported (hpipelined : req.pipelined = false)
    (hflag : req.batchDoneReported) : Client.resolveReport cfg req outcome = none := by
  rw [Client.resolveReport, hpipelined, hflag]
  simp

end

theorem Tracked.resolve (h : Tracked cfg c r) (outcome : Option ClientError)
    (hreq : c'.request r = Client.afterResolve cfg outcome (c.request r)) : Tracked cfg c' r := by
  have hterms : (c'.request r).toRangeTerms = (c.request r).toRangeTerms :=
    hreq ▸ terms_afterResolve outcome _
  have hsame : (c'.request r).pipelined = (c.request r).pipelined :=
    congrArg RangeTerms.pipelined hterms
  constructor
  · rw [hsame, hreq, Client.afterResolve]
    intro hpipelined
    rcases h.rangeDone hpipelined with ⟨hfunc, hreports⟩
    refine ⟨hfunc, ?_⟩
    split
    · exact hreports
    · -- only the first call reports, and there was no report before it
      rename_i hopen
      rw [Bool.not_eq_true, Option.isSome_eq_false_iff, Option.isNone_iff_eq_none] at hopen
      rw [hopen] at hreports
      rw [hreports, resolveReport_of_pipelined hpipelined hfunc]
      rfl
  · exact fun _ _ => Or.inl (hreq ▸ isSome_resolved_afterResolve outcome _)
  · rw [hsame, reportsBatchDone_congr hterms, hreq, Client.afterResolve]
    intro hpipelined hsilent
    have hreports := h.silent hpipelined hsilent
    split
    · exact hreports
    · rw [hreports, resolveReport_of_silent hpipelined hsilent]
      rfl

/-! ## The steps keep track -/

theorem retirements_congr (h : c'.retiring = c.retiring) (r : Nat) :
    retirements c' r = retirements c r := by
  unfold retirements
  rw [h]

theorem retirements_drop {entries : List Nat} {err : ClientError} {behindDelivery : Bool}
    (hretiring : c'.retiring = c.retiring ++ entries.map fun q => ⟨q, err, behindDelivery⟩)
    (r : Nat) : retirements c' r = retirements c r + entries.count r := by
  rw [retirements, hretiring, List.countP_append, List.countP_map, List.count_eq_countP]
  congr 1

theorem retirements_eraseIdx {i : Nat} {t : Retirement} (hi : c.retiring[i]? = some t) (r : Nat) :
    retirements c r = (if t.request = r then 1 else 0) +
      (c.retiring.eraseIdx i).countP (·.request = r) := by
  obtain ⟨hlt, rfl⟩ := List.getElem?_eq_some_iff.mp hi
  have hperm := List.getElem_cons_eraseIdx_perm hlt
  rw [retirements, ← hperm.countP_eq, List.countP_cons, Nat.add_comm]
  simp

/-- The handler takes `r` off the queue, and owns it from then on. -/
structure Takes (cfg : Config) (c c' : Client) (r : Nat) : Prop where
  free : ∀ x, ¬ c.handler.Owns x
  queue : c'.queue = c.queue.erase r
  count : c'.count = c.count
  sending : c'.sending = c.sending
  sent : c'.sent = c.sent
  retiring : c'.retiring = c.retiring
  terms : ∀ x, (c'.request x).toRangeTerms = (c.request x).toRangeTerms
  resolved : ∀ x, (c'.request x).resolved = (c.request x).resolved
  reports : ∀ x, (c'.request x).reports = (c.request x).reports
  owns : c'.handler.Owns r
  reporting : ∀ x, c'.handler = .reporting x →
    (c'.request x).reportsBatchDone cfg = true ∧ (c'.request x).batchDoneReported = true

theorem takes_removeLocked (handler : Handler) (hfree : ∀ x, ¬ c.handler.Owns x)
    (howns : handler.Owns r)
    (hreporting : ∀ x, handler = .reporting x →
      (c.request x).reportsBatchDone cfg ∧ (c.request x).batchDoneReported) :
    Takes cfg c { c.removeLocked r with handler := handler } r := by
  have hretains := c.retains_removeLocked r
  refine ⟨hfree, c.queue_removeLocked r, hretains.count, hretains.sending, hretains.sent,
    hretains.retiring, ?_, ?_, ?_, howns, ?_⟩
  all_goals
    dsimp only
    rw [hretains.request]
  · exact fun _ => rfl
  · exact fun _ => rfl
  · exact fun _ => rfl
  · exact hreporting

theorem takes_completeBatch (hat : c.handler = .fencing r) :
    Takes cfg c (c.completeBatch cfg r) r := by
  have hfree : ∀ x, ¬ c.handler.Owns x := by rw [hat]; exact fun _ => id
  unfold Client.completeBatch
  split
  · rename_i hbatch
    let mark (req : RangeRequest) : RangeRequest := { req with batchDoneReported := true }
    have hflag : ∀ x, Handler.reporting r = .reporting x →
        ((c.modify r mark).request x).reportsBatchDone cfg ∧
          ((c.modify r mark).request x).batchDoneReported := by
      rintro x ⟨⟩
      rw [Client.modify_request_self]
      exact ⟨hbatch, rfl⟩
    have htakes := takes_removeLocked (c := c.modify r mark) (.reporting r) hfree rfl hflag
    have hsame : ∀ x, ((c.modify r mark).request x).toRangeTerms = (c.request x).toRangeTerms ∧
        ((c.modify r mark).request x).resolved = (c.request x).resolved ∧
        ((c.modify r mark).request x).reports = (c.request x).reports := by
      intro x
      by_cases heq : x = r
      · rw [heq, Client.modify_request_self]
        exact ⟨rfl, rfl, rfl⟩
      · rw [c.modify_request_of_ne heq]
        exact ⟨rfl, rfl, rfl⟩
    exact { htakes with
      terms := fun x => (htakes.terms x).trans (hsame x).1
      resolved := fun x => (htakes.resolved x).trans (hsame x).2.1
      reports := fun x => (htakes.reports x).trans (hsame x).2.2 }
  · exact takes_removeLocked _ hfree rfl nofun

theorem Reported.takes (h : Reported cfg c) (haccounted : Accounted cfg c') (hr : r < c.count)
    (takes : Takes cfg c c' r) : Reported cfg c' := by
  refine ⟨haccounted, ?_, ?_, takes.reporting, ?_⟩
  · rw [takes.retiring, takes.count]
    exact h.retiring_lt
  · intro x hx
    rw [takes.owns.request] at hx
    cases hx
    rw [takes.count]
    exact hr
  · intro x hx
    apply (h.tracked x (takes.count ▸ hx)).congr (takes.terms x) (takes.resolved x) (takes.reports x)
    · rw [takes.sent, takes.sending, takes.queue]
      intro hwire hout
      by_cases heq : x = r
      · exact Or.inr (Or.inl (heq ▸ takes.owns))
      · exact Or.inl ⟨hwire, fun hmem => hout ((List.mem_erase_of_ne heq).mpr hmem)⟩
    · rintro (hown | hretire)
      · exact absurd hown (takes.free x)
      · rw [← retirements_congr takes.retiring] at hretire
        exact Or.inr hretire

theorem Reported.resolves {outcome : Option ClientError} (h : Reported cfg c)
    (haccounted : Accounted cfg c')
    (hrequest : c'.request = (c.modify r (Client.afterResolve cfg outcome)).request)
    (hwire : c'.sent = c.sent ∧ c'.sending = c.sending) (hqueue : c'.queue = c.queue)
    (hcount : c'.count = c.count) (hretiring : ∀ t ∈ c'.retiring, t ∈ c.retiring)
    (hhandler : c'.handler = c.handler ∨ c'.handler.request = none)
    (howned : ∀ x, x ≠ r → Owned c x → Owned c' x) : Reported cfg c' := by
  have hself : c'.request r = Client.afterResolve cfg outcome (c.request r) := by
    rw [hrequest, Client.modify_request_self]
  have hother : ∀ x, x ≠ r → c'.request x = c.request x := by
    intro x hx
    rw [hrequest, c.modify_request_of_ne hx]
  -- a handler that is still at work is where it was
  have hat : ∀ x, c'.handler.request = some x → c'.handler = c.handler := by
    intro x hx
    rcases hhandler with hsame | hnone
    · exact hsame
    · rw [hnone] at hx
      cases hx
  refine ⟨haccounted, ?_, ?_, ?_, ?_⟩
  · rw [hcount]
    exact fun t ht => h.retiring_lt t (hretiring t ht)
  · intro x hx
    rw [hat x hx] at hx
    rw [hcount]
    exact h.handler_lt x hx
  · intro x hx
    have hsame : c.handler = .reporting x := (hat x (by rw [hx]; rfl)).symm.trans hx
    rcases h.reporting x hsame with ⟨hbatch, hflag⟩
    by_cases heq : x = r
    · rw [heq] at hbatch hflag ⊢
      rw [hself, reportsBatchDone_congr (terms_afterResolve _ _), batchDoneReported_afterResolve]
      exact ⟨hbatch, hflag⟩
    · rw [hother x heq]
      exact ⟨hbatch, hflag⟩
  · intro x hx
    have hbefore := h.tracked x (hcount ▸ hx)
    by_cases heq : x = r
    · subst heq
      exact hbefore.resolve outcome hself
    · have hsame := hother x heq
      refine hbefore.congr (by rw [hsame]) (by rw [hsame]) (by rw [hsame]) ?_ (howned x heq)
      rw [hwire.1, hwire.2, hqueue]
      exact fun hin hout => Or.inl ⟨hin, hout⟩

theorem Reported.frame (h : Reported cfg c) (haccounted : Accounted cfg c')
    (hhandler : c'.handler = c.handler) (hcount : c.count ≤ c'.count)
    (hrequest : ∀ x < c.count, c'.request x = c.request x)
    (hretiring : ∀ t ∈ c'.retiring, t ∈ c.retiring ∨ t.request ∈ c.queue)
    (hretire : ∀ x, retirements c x ≤ retirements c' x)
    (hleft : ∀ x < c.count, x ∈ c'.sent ++ c'.sending.toList → x ∉ c'.queue →
      (x ∈ c.sent ++ c.sending.toList ∧ x ∉ c.queue) ∨ Owned c' x)
    (hnew : ∀ x < c'.count, c.count ≤ x → Tracked cfg c' x) : Reported cfg c' := by
  refine ⟨haccounted, ?_, ?_, ?_, ?_⟩
  · intro t ht
    apply Nat.lt_of_lt_of_le _ hcount
    rcases hretiring t ht with hold | hmem
    · exact h.retiring_lt t hold
    · exact h.accounted.lt_count hmem
  · rw [hhandler]
    exact fun r hr => Nat.lt_of_lt_of_le (h.handler_lt r hr) hcount
  · rw [hhandler]
    intro r hr
    rw [hrequest r (h.handler_lt r (by rw [hr]; rfl))]
    exact h.reporting r hr
  · intro x hx
    rcases Nat.lt_or_ge x c.count with hlt | hge
    · have hsame := hrequest x hlt
      apply (h.tracked x hlt).congr (by rw [hsame]) (by rw [hsame]) (by rw [hsame]) (hleft x hlt)
      rintro (hown | hpos)
      · rw [← hhandler] at hown
        exact Or.inl hown
      · exact Or.inr (Nat.lt_of_lt_of_le hpos (hretire x))
    · exact hnew x hx hge

theorem Reported.step {action : Action} (h : Reported cfg c)
    (hstep : step cfg codec c action = some c') : Reported cfg c' := by
  have haccounted := h.accounted.step hstep
  -- most steps make no request
  have hold : c'.count = c.count → ∀ x < c'.count, c.count ≤ x → Tracked cfg c' x :=
    fun hcount x hx hge => absurd (hcount ▸ hx) (Nat.not_lt.mpr hge)
  cases step_effect hstep with
  | gone eq => exact eq ▸ h
  | work free work =>
    obtain ⟨hqueue, -, hcount, hsending, hsent, hretiring⟩ := work.keeps
    obtain ⟨hfree, htarget⟩ := work.handler free
    refine ⟨haccounted, ?_, ?_, ?_, ?_⟩
    · rw [hretiring, hcount]
      exact h.retiring_lt
    · intro r hr
      rcases htarget r hr with hmem | hsame
      · exact hcount ▸ h.accounted.lt_count hmem
      · exact hcount ▸ h.handler_lt r hsame
    · exact fun r hr => absurd (hr ▸ rfl : c'.handler.Owns r) (hfree r)
    · intro r hr
      have hsame := work.same r
      apply (h.tracked r (hcount ▸ hr)).congr hsame.terms hsame.resolved hsame.reports
      · rw [hsent, hsending, hqueue]
        exact fun hwire hout => Or.inl ⟨hwire, hout⟩
      · rintro (hown | hretire)
        · exact absurd hown (free r)
        · rw [← retirements_congr hretiring] at hretire
          exact Or.inr hretire
  | take r outcome ret hmem at_ free eq =>
    subst eq
    exact h.takes haccounted (h.accounted.lt_count hmem)
      (takes_removeLocked _ free rfl nofun)
  | complete r fenceErr fence passed at_ eq =>
    subst eq
    exact h.takes haccounted (h.handler_lt r (by rw [at_]; rfl)) (takes_completeBatch at_)
  | report r callbackErr at_ eq =>
    subst eq
    have hr : r < c.count := h.handler_lt r (by rw [at_]; rfl)
    have hbatch := (h.reporting r at_).1
    have hself := c.request_reportBatch_self r callbackErr
    refine ⟨haccounted, h.retiring_lt, ?_, nofun, ?_⟩
    · rintro x ⟨⟩
      exact hr
    · intro x hx
      by_cases heq : x = r
      · -- the report is due: the request is not pipelined, and reports
        subst heq
        have hpipelined := pipelined_of_reportsBatchDone hbatch
        constructor
        · rw [hself]
          exact fun hp => absurd (hpipelined.symm.trans hp) Bool.false_ne_true
        · exact fun _ _ => Or.inr (Or.inl rfl)
        · rw [hself]
          exact fun _ hsilent => absurd (hsilent.symm.trans hbatch) Bool.false_ne_true
      · have hsame := c.request_reportBatch_of_ne heq callbackErr
        refine (h.tracked x hx).congr (by rw [hsame]) (by rw [hsame]) (by rw [hsame])
          (fun hwire hout => Or.inl ⟨hwire, hout⟩) ?_
        rintro (hown | hretire)
        · exact absurd (at_ ▸ hown : Handler.Owns x (.reporting r)) (Ne.symm heq)
        · exact Or.inr hretire
  | resolve r outcome ret last at_ eq =>
    subst eq
    refine h.resolves haccounted rfl ⟨rfl, rfl⟩ rfl rfl (fun _ => id) ?_ ?_
    · cases last <;> exact Or.inr rfl
    · rintro x hne (hown | hretire)
      · exact absurd (at_ ▸ hown : Handler.Owns x (.resolving r outcome ret)) (Ne.symm hne)
      · exact Or.inr hretire
  | drop entries err behindDelivery mid removes eq =>
    have hretains := removes.retains
    have hretire (x : Nat) : retirements c' x = retirements c x + entries.count x := by
      rw [eq]
      exact retirements_drop rfl x
    subst eq
    refine h.frame haccounted hretains.handler (Nat.le_of_eq hretains.count.symm)
      (fun x _ => congrFun hretains.request x) ?_ ?_ ?_ (hold hretains.count)
    · intro t ht
      rcases List.mem_append.mp ht with hold | hnew
      · exact Or.inl hold
      · rcases List.mem_map.mp hnew with ⟨q, hq, rfl⟩
        exact Or.inr (removes.sublist.subset hq)
    · intro x
      rw [hretire]
      exact Nat.le_add_right ..
    · intro x _ hwire hout
      by_cases hmem : x ∈ entries
      · have hcount : 0 < entries.count x := List.count_pos_iff.mpr hmem
        rw [Owned, hretire]
        exact Or.inr (Or.inr (Nat.add_pos_right _ hcount))
      · rw [← hretains.sent, ← hretains.sending]
        exact Or.inl ⟨hwire, fun hqueued =>
          hout ((removes.mem_queue h.accounted.queue_nodup x).mpr ⟨hqueued, hmem⟩)⟩
  | retire i t entry eq =>
    subst eq
    refine h.resolves haccounted rfl ⟨rfl, rfl⟩ rfl rfl (fun _ => List.mem_of_mem_eraseIdx)
      (Or.inl rfl) ?_
    rintro x hne (hown | hretire)
    · exact Or.inl hown
    · rw [retirements_eraseIdx entry, if_neg (Ne.symm hne), Nat.zero_add] at hretire
      exact Or.inr hretire
  | append start endPoint delivery pipelined estimated bytes protocol deadline reserves reports eq =>
    obtain ⟨hsending, -, terms, hpipelined, -, -, -, -, hrequest, hcount, hqueue, -, hsending',
      hsent, hhandler, hretiring⟩ := sendRequestRange_eq_some eq
    refine h.frame haccounted hhandler (hcount ▸ Nat.le_succ _) ?_
      (fun t ht => Or.inl (hretiring ▸ ht))
      (fun x => Nat.le_of_eq (retirements_congr hretiring x).symm) ?_ ?_
    · intro x hx
      rw [hrequest]
      exact Function.update_of_ne (Nat.ne_of_lt hx) ..
    · rw [hsent, hsending, hsending', hqueue]
      intro x hx hwire hout
      rcases List.mem_append.mp hwire with hin | hnew
      · exact Or.inl ⟨List.mem_append_left _ hin, fun hmem => hout (List.mem_append_left _ hmem)⟩
      · exact absurd (List.mem_singleton.mp hnew) (Nat.ne_of_lt hx)
    · -- the new request has no outcome yet, and is queued
      intro x hx hge
      have heq : x = c.count := by omega
      have hnew : c'.request x = { toRangeTerms := terms } := by
        rw [heq, hrequest, Function.update_self]
      constructor
      · rw [hnew]
        exact fun hp => ⟨reports (hpipelined.symm.trans hp), rfl⟩
      · rw [hqueue, heq]
        exact fun _ hout => absurd (List.mem_append_right _ (List.mem_singleton_self _)) hout
      · rw [hnew]
        exact fun _ _ => rfl
  | messageSent r at_ eq =>
    subst eq
    refine h.frame haccounted rfl (Nat.le_refl _) (fun _ _ => rfl) (fun _ => Or.inl)
      (fun _ => Nat.le_refl _) ?_ (hold rfl)
    intro x _ hwire hout
    rw [at_]
    exact Or.inl ⟨by simpa using hwire, hout⟩
  | sendFailed r at_ eq =>
    subst eq
    have hretains := c.retains_removeLocked r
    refine h.frame haccounted hretains.handler (Nat.le_of_eq hretains.count.symm)
      (fun x _ => congrFun hretains.request x) (fun t ht => Or.inl (hretains.retiring ▸ ht))
      (fun x => Nat.le_of_eq (retirements_congr hretains.retiring x).symm) ?_ (hold hretains.count)
    -- the message of the request that is taken off was not sent
    intro x _ hwire hout
    have hsent : x ∈ c.sent := by
      rw [← hretains.sent]
      simpa using hwire
    have hne : x ≠ r := fun heq => h.accounted.not_sent at_ (heq ▸ hsent)
    refine Or.inl ⟨List.mem_append_left _ hsent, fun hmem => hout ?_⟩
    rw [c.queue_removeLocked]
    exact (List.mem_erase_of_ne hne).mpr hmem

theorem reported_of_run {actions : List Action}
    (hrun : Transition.run (step cfg codec) Client.start actions = some c) : Reported cfg c :=
  Transition.run_invariant (fun _ _ _ h hstep => h.step hstep) reported_start hrun

/-! ## At most one call of `BatchDoneFunc` -/

/-- The calls that the handler can still make for `r`. -/
def handlerTokens (req : RangeRequest) (r : Nat) : Handler → Nat
  | .reporting q => if q = r then 1 else 0
  | .resolving q _ _ => if q = r ∧ req.batchDoneReported = false then 1 else 0
  | _ => 0

/-- The calls of `BatchDoneFunc` that can still be made for `r`: a queued request has one to come,
whichever thread takes it off. -/
def tokens (c : Client) (r : Nat) : Nat :=
  (if r ∈ c.queue then 1 else 0) + retirements c r + handlerTokens (c.request r) r c.handler

def Single (cfg : Config) (c : Client) : Prop :=
  ∀ r < c.count, (c.request r).reportsBatchDone cfg = true →
    tokens c r + (c.request r).reports.length ≤ 1

theorem handlerTokens_le (req : RangeRequest) (r : Nat) (h : Handler) :
    handlerTokens req r h ≤ 1 := by
  cases h with
  | reporting q | resolving q outcome ret =>
    simp only [handlerTokens]
    split
    · exact Nat.le_refl 1
    · exact Nat.zero_le 1
  | idle | stopped | claimed | recorded | fencing | failing => exact Nat.zero_le 1

theorem handlerTokens_eq_zero {req : RangeRequest} {h : Handler} (hfree : ¬ h.Owns r) :
    handlerTokens req r h = 0 := by
  cases h with
  | reporting q => exact if_neg hfree
  | resolving q outcome ret => exact if_neg fun hq => hfree hq.1
  | idle | stopped | claimed | recorded | fencing | failing => rfl

theorem handlerTokens_congr {req req' : RangeRequest}
    (h : req'.batchDoneReported = req.batchDoneReported) (r : Nat) (handler : Handler) :
    handlerTokens req' r handler = handlerTokens req r handler := by
  unfold handlerTokens
  rw [h]

theorem tokens_of_not_owns (hfree : ¬ c.handler.Owns r) :
    tokens c r = (if r ∈ c.queue then 1 else 0) + retirements c r := by
  rw [tokens, handlerTokens_eq_zero hfree, Nat.add_zero]

theorem Single.takes (h : Single cfg c) (hnodup : c.queue.Nodup) (takes : Takes cfg c c' r)
    (hmem : (c.request r).reportsBatchDone cfg → r ∈ c.queue) : Single cfg c' := by
  intro x hx hbatch
  rw [reportsBatchDone_congr (takes.terms x)] at hbatch
  have hbefore := h x (takes.count ▸ hx) hbatch
  rw [tokens_of_not_owns (takes.free x)] at hbefore
  rw [takes.reports, tokens, takes.queue, retirements_congr takes.retiring]
  by_cases heq : x = r
  · subst heq
    rw [if_pos (hmem hbatch)] at hbefore
    rw [if_neg hnodup.not_mem_erase]
    have hle := handlerTokens_le (c'.request x) x c'.handler
    omega
  · have hfree : ¬ c'.handler.Owns x := by
      intro hown
      have hsame := hown.request.symm.trans takes.owns.request
      exact heq (Option.some.inj hsame)
    rw [handlerTokens_eq_zero hfree, Nat.add_zero]
    simp only [List.mem_erase_of_ne heq]
    exact hbefore

/-- One call of `resolve` makes at most one report, and none if `BatchDoneFunc` has been called. -/
theorem length_reports_afterResolve {outcome : Option ClientError} {req : RangeRequest}
    (hbatch : req.reportsBatchDone cfg) :
    (Client.afterResolve cfg outcome req).reports.length ≤
      req.reports.length + (if req.batchDoneReported = false then 1 else 0) := by
  unfold Client.afterResolve
  split
  · exact Nat.le_add_right ..
  · rw [List.length_append]
    apply Nat.add_le_add_left
    cases hflag : req.batchDoneReported with
    | true =>
      rw [resolveReport_of_reported (pipelined_of_reportsBatchDone hbatch) hflag]
      exact Nat.zero_le _
    | false => exact Option.length_toList_le

/-- The caller of `resolve` had a call to make for `r`, unless `BatchDoneFunc` had been called. -/
theorem Single.resolves {outcome : Option ClientError} (h : Single cfg c)
    (hrequest : c'.request = (c.modify r (Client.afterResolve cfg outcome)).request)
    (hcount : c'.count = c.count)
    (hself : tokens c' r + (if (c.request r).batchDoneReported = false then 1 else 0) ≤ tokens c r)
    (hother : ∀ x, x ≠ r → c'.request x = c.request x → tokens c' x = tokens c x) :
    Single cfg c' := by
  intro x hx hbatch
  by_cases heq : x = r
  · subst heq
    rw [hrequest, Client.modify_request_self] at hbatch ⊢
    rw [reportsBatchDone_congr (terms_afterResolve _ _)] at hbatch
    have hbefore := h x (hcount ▸ hx) hbatch
    have hreports : (Client.afterResolve cfg outcome (c.request x)).reports.length ≤ _ :=
      length_reports_afterResolve hbatch
    omega
  · have hsame : c'.request x = c.request x := by
      rw [hrequest, c.modify_request_of_ne heq]
    rw [hother x heq hsame, hsame]
    exact h x (hcount ▸ hx) (hsame ▸ hbatch)

theorem Single.frame (h : Single cfg c) (hrequest : c'.request = c.request)
    (hhandler : c'.handler = c.handler) (hcount : c'.count = c.count)
    (htokens : ∀ x, (if x ∈ c'.queue then 1 else 0) + retirements c' x ≤
      (if x ∈ c.queue then 1 else 0) + retirements c x) : Single cfg c' := by
  intro x hx hbatch
  rw [hrequest] at hbatch ⊢
  have hbefore := h x (hcount ▸ hx) hbatch
  have hle := htokens x
  unfold tokens at hbefore ⊢
  rw [hrequest, hhandler]
  omega

/-- When `handleBatchDone` enters its second critical section, a request for which it is to call
`BatchDoneFunc` is still queued. -/
def stillQueued (cfg : Config) (c : Client) (action : Action) : Bool :=
  match action, c.handler with
  | .fence fenceErr, .fencing r =>
    (cfg.pipelineDelivery (c.request r).delivery && fenceErr.isSome) ||
      !(c.request r).reportsBatchDone cfg || decide (r ∈ c.queue)
  | _, _ => true

theorem Single.step {action : Action} (h : Single cfg c) (hreported : Reported cfg c)
    (hqueued : stillQueued cfg c action) (hstep : step cfg codec c action = some c') :
    Single cfg c' := by
  have hnodup := hreported.accounted.queue_nodup
  cases step_effect hstep with
  | gone eq | messageSent r at_ eq => exact eq ▸ h
  | work free work =>
    obtain ⟨hqueue, -, hcount, -, -, hretiring⟩ := work.keeps
    obtain ⟨hfree, -⟩ := work.handler free
    intro r hr hbatch
    obtain ⟨hterms, -, hreports, -⟩ := work.same r
    have hbefore := h r (hcount ▸ hr) (reportsBatchDone_congr hterms ▸ hbatch)
    rw [tokens_of_not_owns (free r)] at hbefore
    rw [tokens_of_not_owns (hfree r), hqueue, retirements_congr hretiring, hreports]
    exact hbefore
  | take r outcome ret hmem at_ free eq =>
    subst eq
    exact h.takes hnodup (takes_removeLocked _ free rfl nofun) fun _ => hmem
  | complete r fenceErr fence passed at_ eq =>
    have hmem : (c.request r).reportsBatchDone cfg → r ∈ c.queue := by
      intro hbatch
      simpa [stillQueued, fence, at_, passed, hbatch] using hqueued
    subst eq
    exact h.takes hnodup (takes_completeBatch at_) hmem
  | report r callbackErr at_ eq =>
    subst eq
    have hflag := (hreported.reporting r at_).2
    intro x hx hbatch
    by_cases heq : x = r
    · subst heq
      have hreq := c.request_reportBatch_self x callbackErr
      rw [hreq] at hbatch ⊢
      have hbefore := h x hx hbatch
      have hnow : tokens c x = tokens (c.reportBatch x callbackErr) x + 1 := by
        have hhandler : handlerTokens (c.request x) x c.handler = 1 := at_ ▸ if_pos rfl
        have hafter : handlerTokens ((c.reportBatch x callbackErr).request x) x
            (c.reportBatch x callbackErr).handler = 0 := by
          rw [hreq]
          exact if_neg fun hq => absurd (hq.2.symm.trans hflag) Bool.false_ne_true
        unfold tokens
        rw [hhandler, hafter]
        rfl
      rw [List.length_append, List.length_singleton]
      omega
    · have hreq := c.request_reportBatch_of_ne heq callbackErr
      rw [hreq] at hbatch ⊢
      have hbefore := h x hx hbatch
      have hfree : ¬ c.handler.Owns x := by
        rw [at_]
        exact fun hown => heq hown.symm
      have hfree' : ¬ (c.reportBatch r callbackErr).handler.Owns x := fun hown => heq hown.symm
      rw [tokens_of_not_owns hfree] at hbefore
      rw [tokens_of_not_owns hfree']
      exact hbefore
  | resolve r outcome ret last at_ eq =>
    subst eq
    have hfree : ∀ x, ¬ ((c.modify r (Client.afterResolve cfg outcome)).finish last).handler.Owns
        x := by
      cases last <;> exact fun _ => id
    refine h.resolves rfl rfl ?_ ?_
    · have htoken : handlerTokens (c.request r) r c.handler =
          if (c.request r).batchDoneReported = false then 1 else 0 := by
        rw [at_]
        simp [handlerTokens]
      rw [tokens_of_not_owns (hfree r), tokens, htoken]
      exact Nat.le_refl _
    · intro x hne _
      have hother : ¬ c.handler.Owns x := by
        rw [at_]
        exact fun hown => hne hown.symm
      rw [tokens_of_not_owns (hfree x), tokens_of_not_owns hother]
      rfl
  | drop entries err behindDelivery mid removes eq =>
    subst eq
    have hretains := removes.retains
    refine h.frame hretains.request hretains.handler hretains.count fun x => ?_
    have hone : entries.count x = if x ∈ entries then 1 else 0 :=
      (hnodup.sublist removes.sublist).count
    rw [retirements_drop (c := c) rfl, hone]
    by_cases hentry : x ∈ entries
    · -- the call that was to come for the queue entry is now the dropping thread's
      have hgone : x ∉ mid.queue := fun hmem => ((removes.mem_queue hnodup x).mp hmem).2 hentry
      rw [if_pos hentry, if_neg hgone, if_pos (removes.sublist.subset hentry)]
      omega
    · have hstays : x ∈ mid.queue ↔ x ∈ c.queue :=
        (removes.mem_queue hnodup x).trans (and_iff_left hentry)
      rw [if_neg hentry]
      simp only [hstays]
      exact Nat.le_refl _
  | retire i t entry eq =>
    subst eq
    have hretire := retirements_eraseIdx entry
    refine h.resolves rfl rfl ?_ ?_
    · have hone : (if (c.request t.request).batchDoneReported = false then 1 else 0) ≤ 1 := by
        split <;> omega
      have hhandler : handlerTokens ((c.modify t.request (Client.afterResolve cfg
          (some t.err))).request t.request) t.request c.handler =
          handlerTokens (c.request t.request) t.request c.handler :=
        handlerTokens_congr (by rw [Client.modify_request_self, batchDoneReported_afterResolve]) ..
      rw [tokens, tokens, hretire, if_pos rfl]
      change (if t.request ∈ c.queue then 1 else 0) + (c.retiring.eraseIdx i).countP _ +
        handlerTokens ((c.modify t.request _).request t.request) t.request c.handler + _ ≤ _
      omega
    · intro x hne hsame
      rw [tokens, tokens, hretire, if_neg (Ne.symm hne), hsame, Nat.zero_add]
      rfl
  | append start endPoint delivery pipelined estimated bytes protocol deadline reserves reports eq =>
    obtain ⟨-, -, terms, -, -, -, -, -, hrequest, hcount, hqueue, -, -, -, hhandler, hretiring⟩ :=
      sendRequestRange_eq_some eq
    intro x hx hbatch
    by_cases heq : x = c.count
    · -- no thread knows the new request yet
      subst heq
      have hfree : ¬ c'.handler.Owns c.count := by
        rw [hhandler]
        exact fun hown => Nat.lt_irrefl _ (hreported.handler_lt _ hown.request)
      have hretire : retirements c' c.count = 0 := by
        rw [retirements_congr hretiring, retirements, List.countP_eq_zero]
        intro t ht
        simpa using Nat.ne_of_lt (hreported.retiring_lt t ht)
      rw [tokens_of_not_owns hfree, hretire, hrequest, Function.update_self]
      split <;> simp
    · have hsame : c'.request x = c.request x := by
        rw [hrequest]
        exact Function.update_of_ne heq ..
      have hbefore := h x (by omega) (hsame ▸ hbatch)
      have hmem : x ∈ c'.queue ↔ x ∈ c.queue := by
        rw [hqueue]
        simp [heq]
      unfold tokens at hbefore ⊢
      rw [hsame, hhandler, retirements_congr hretiring]
      simp only [hmem]
      exact hbefore
  | sendFailed r at_ eq =>
    have hretains := c.retains_removeLocked r
    subst eq
    refine h.frame hretains.request hretains.handler hretains.count fun x => ?_
    have hretire : retirements { c.removeLocked r with sending := none } x = retirements c x :=
      retirements_congr hretains.retiring x
    rw [hretire, c.queue_removeLocked]
    by_cases hmem : x ∈ c.queue.erase r
    · rw [if_pos hmem, if_pos (List.mem_of_mem_erase hmem)]
    · rw [if_neg hmem]
      omega

theorem single_of_run {actions : List Action}
    (hmeet : Transition.StepsMeet (step cfg codec) (stillQueued cfg · ·) Client.start actions)
    (hrun : Transition.run (step cfg codec) Client.start actions = some c) : Single cfg c := by
  have hstart : Reported cfg Client.start ∧ Single cfg Client.start :=
    ⟨reported_start, fun _ hr => absurd hr (Nat.not_lt_zero _)⟩
  have h := Transition.run_invariant_of_stepsMeet
    (P := fun c => Reported cfg c ∧ Single cfg c)
    (fun _ _ _ h hqueued hstep => ⟨h.1.step hstep, h.2.step h.1 hqueued hstep⟩) hstart hmeet hrun
  exact h.2

/-! ## The result -/

def Report.isRangeDone : Report → Bool
  | rangeDone _ => true
  | batchDone _ => false

def Report.isBatchDone : Report → Bool
  | rangeDone _ => false
  | batchDone _ => true

def Report.outcome : Report → Option ClientError
  | rangeDone outcome | batchDone outcome => outcome

/-- No handler is at work, and every call of `resolve` and every send has been made. -/
def Finished (c : Client) : Prop := c.handler.request = none ∧ c.retiring = [] ∧ c.sending = none

/-- The completion callbacks that were called for the request. -/
structure ReportedOnce (c : Client) (r : Nat) : Prop where
  rangeDone : (c.request r).pipelined = true →
    (c.request r).reports.countP Report.isRangeDone ≤ 1
  rangeDone_finished : (c.request r).pipelined = true → r ∈ c.sent → r ∉ c.queue → Finished c →
    (c.request r).reports.countP Report.isRangeDone = 1
  batchDone : (c.request r).pipelined = false → (c.request r).delivery = .deliveryCallback →
    (c.request r).reports.countP Report.isBatchDone ≤ 1
  agreed : ∀ a ∈ (c.request r).reports, a.outcome = none →
    ∀ b ∈ (c.request r).reports, b.outcome = none

theorem reportedOnce_of_length (h : (c.request r).reports.length ≤ 1)
    (hfinished : (c.request r).pipelined → r ∈ c.sent → r ∉ c.queue → Finished c →
      (c.request r).reports.countP Report.isRangeDone = 1) :
    ReportedOnce c r where
  rangeDone := fun _ => Nat.le_trans List.countP_le_length h
  rangeDone_finished := hfinished
  batchDone := fun _ _ => Nat.le_trans List.countP_le_length h
  agreed := by
    match hlist : (c.request r).reports with
    | [] => exact fun a ha => absurd ha List.not_mem_nil
    | [only] =>
      intro a ha hnone b hb
      rw [List.mem_singleton.mp hb, ← List.mem_singleton.mp ha, hnone]
    | first :: second :: rest =>
      rw [hlist, List.length_cons, List.length_cons] at h
      omega

section

variable {r : Nat} (h : Reported cfg c) (hr : r < c.count) (hpipelined : (c.request r).pipelined)
include h hr hpipelined

theorem Reported.length_of_pipelined : (c.request r).reports.length ≤ 1 := by
  rw [((h.tracked r hr).rangeDone hpipelined).2, List.length_map]
  exact Option.length_toList_le

theorem Reported.rangeDone_finished (hsent : r ∈ c.sent) (hout : r ∉ c.queue)
    (hfinished : Finished c) : (c.request r).reports.countP Report.isRangeDone = 1 := by
  obtain ⟨hhandler, hretiring, hsending⟩ := hfinished
  have hleft := (h.tracked r hr).left (List.mem_append_left _ hsent) hout
  have hfree : ¬ Owned c r := by
    rintro (hown | hretire)
    · exact absurd (hown.request.symm.trans hhandler) (Option.some_ne_none r)
    · rw [retirements, hretiring] at hretire
      exact Nat.lt_irrefl 0 hretire
  obtain ⟨outcome, hresolved⟩ := Option.isSome_iff_exists.mp (hleft.resolve_right hfree)
  rw [((h.tracked r hr).rangeDone hpipelined).2, hresolved]
  rfl

end

/-- Every request made through `RequestRange` has `RangeDoneFunc` called once, in every run. In every
run in which `handleBatchDone` finds its request still queued, every request has at most one
completion callback. -/
theorem range_outcome_reported_once {actions : List Action} {r : Nat}
    (hrun : Transition.run (step cfg codec) Client.start actions = some c) (hr : r < c.count)
    (hcond : (c.request r).pipelined = true ∨
      Transition.StepsMeet (step cfg codec) (stillQueued cfg · ·) Client.start actions) :
    ReportedOnce c r := by
  have h := reported_of_run hrun
  apply reportedOnce_of_length _ (h.rangeDone_finished hr)
  cases hpipelined : (c.request r).pipelined with
  | true => exact h.length_of_pipelined hr hpipelined
  | false =>
    have hmeet := hcond.resolve_left (by rw [hpipelined]; exact Bool.false_ne_true)
    cases hbatch : (c.request r).reportsBatchDone cfg with
    | true =>
      have hsingle := single_of_run hmeet hrun r hr hbatch
      omega
    | false =>
      rw [(h.tracked r hr).silent hpipelined hbatch]
      exact Nat.zero_le _

/-- One block, received in full, and the end of its batch. -/
def batchRun : List Action :=
  [.getBlockRange (samplePoint 1 1) (samplePoint 1 1) 0 10, .messageSent, .startBatch,
    .block ⟨0, [1, 1, 0]⟩ 1, .record, .deliver ⟨false, none⟩, .batchDone 9]

theorem range_outcome_reported_once_batch :
    ∃ c, Transition.run (step sampleConfig sampleCodec) Client.start
        (batchRun ++ [.fence none, .report none, .resolve none]) = some c ∧
      (c.request 0).reports = [.batchDone none] ∧ ReportedOnce c 0 := by
  have hmeet : Transition.StepsMeet (step sampleConfig sampleCodec) (stillQueued sampleConfig · ·)
      Client.start (batchRun ++ [.fence none, .report none, .resolve none]) := by
    decide
  have hrun : Transition.run (step sampleConfig sampleCodec) Client.start
      (batchRun ++ [.fence none, .report none, .resolve none]) = some _ := rfl
  exact ⟨_, hrun, rfl, range_outcome_reported_once hrun Nat.zero_lt_one (Or.inr hmeet)⟩

/-- The deadline passes between the two critical sections of `handleBatchDone`: the watcher reports
the timeout, and the handler reports success after it. -/
theorem batch_done_twice :
    ∃ c, Transition.run (step sampleConfig sampleCodec) Client.start
        (batchRun ++ [.deadline 0 10, .retire 0 none, .fence none, .report none]) = some c ∧
      (c.request 0).reports.map Report.outcome = [some (.rangeTimeoutAfter 1 "1m0s"), none] ∧
      ¬ ReportedOnce c 0 := by
  refine ⟨_, rfl, rfl, fun h => ?_⟩
  exact absurd (h.batchDone rfl rfl) (by decide)

end Gouroboros.Protocol.BlockFetch.Range

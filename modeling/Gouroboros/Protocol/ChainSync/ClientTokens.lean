import Mathlib.Order.Nat
import Gouroboros.Protocol.ChainSync.Client

/-!
# The tokens of the chain-sync client

A request is a token from the moment it is sent, through its reply and handler,
until the sync loop takes its ready signal. The loop waits for
`syncPipelinedRequestNext + 1` of them and sends a new batch only when there are
none (`Balanced`), so there are never more than the limit. A handler that fails
may lose its token, but then the protocol ends.

Beside the tokens the invariant says what each call has established on its way
through `quiesceSync`: the loop it waited for is gone, and no request is
outstanding. It is kept by every step (`Inv.step`).
-/

namespace Gouroboros.Protocol.ChainSync.Client

/-- The handler has a token that it has not signalled. -/
def unsignalled : HandlerPc → Nat
  | .callback => 1
  | .lockForSignal .. => 1
  | .signalling .. => 1
  | _ => 0

/-- The handler has a request that it has not retired. -/
def unretired : HandlerPc → Nat
  | .idle => 0
  | _ => 1

/-- The holder of `busyMutex` has counted a request that it has not sent. -/
def unsent : BusyPc → Nat
  | .loop (.send _) => 1
  | .op .initialSend => 1
  | _ => 0

def tokens (c : Client) : Nat := c.ready.length + unsignalled c.handler + c.unanswered

/-- The protocol has ended, or ends when the handler returns. -/
def Failing (c : Client) : Prop := c.done = true ∨ c.handler = .retire true

/-- There are `n` tokens, unless the protocol is failing. -/
def Balanced (c : Client) (n : Nat) : Prop := c.tokens ≤ n ∧ (c.tokens = n ∨ c.Failing)

/-- No loop is running. -/
def LoopGone (c : Client) : Prop := c.loop = .none ∨ c.loop = .exited

/-- The tokens that the sync loop waits for, wherever it is. -/
def LoopInv (limit : Nat) (c : Client) : LoopPc → BusyPc → Prop
  | .none, _ | .exited, _ => c.tokens ≤ limit
  | .select, _ =>
    c.syncPipelinedRequestNext + 1 ≤ limit ∧ c.Balanced (c.syncPipelinedRequestNext + 1)
  | .lockBusy, _ | .holding, .loop .check =>
    c.syncPipelinedRequestNext + 1 ≤ limit ∧ c.Balanced c.syncPipelinedRequestNext
  | .holding, .loop (.count remaining) | .holding, .loop (.send remaining) =>
    1 ≤ remaining ∧ remaining ≤ limit ∧ c.Balanced (limit - remaining)
  | .holding, .loop .finish => c.Balanced limit
  | .holding, _ => False

/-- What a call that holds `busyMutex` has established. -/
def OpBusyInv (c : Client) : OpBusy → Prop
  | .recheck _ generation =>
    generation ≤ c.loopGeneration ∧ (generation = c.loopGeneration → c.LoopGone)
  | .countOutstanding _ => c.LoopGone
  | .awaitDrained _ =>
    c.LoopGone ∧ (c.drainPending = true → 0 < c.outstandingRequestNext) ∧
      (c.drainPending = false → c.outstandingRequestNext = 0)
  | .drainSignals _ | .setStopping | .sendDone => c.LoopGone ∧ c.outstandingRequestNext = 0
  | .checkStopped _ | .sendFindIntersect | .awaitIntersect | .initialCheck | .initialCount =>
    c.LoopGone ∧ c.outstandingRequestNext = 0 ∧ c.ready = []
  | .initialSend => c.LoopGone ∧ c.outstandingRequestNext = 1 ∧ c.ready = []
  | .startLoop => c.LoopGone ∧ c.Balanced 1

def BusyInv (c : Client) : BusyPc → Prop
  | .free => True
  | .loop _ => c.loop = .holding
  | .op pc => c.OpBusyInv pc

/-- What a call knows of the loop whose stop channel it read. -/
def OpInv (c : Client) : OpPc → Prop
  | .awaitLoop _ generation => 1 ≤ generation ∧ generation ≤ c.loopGeneration
  | .lockBusy _ generation =>
    generation ≤ c.loopGeneration ∧ (generation = c.loopGeneration → c.LoopGone)
  | _ => True

structure Inv (limit : Nat) (c : Client) : Prop where
  outstanding : c.outstandingRequestNext = c.unanswered + unretired c.handler + unsent c.busy
  generation : c.loop = .none ↔ c.loopGeneration = 0
  closed : c.readyClosed = true → c.done = true
  loop : c.LoopInv limit c.loop c.busy
  busy : c.BusyInv c.busy
  ops : ∀ op ∈ c.ops, c.OpInv op

variable {limit : Nat} {c c' : Client}

theorem inv_start (limit : Nat) : Inv limit {} where
  outstanding := rfl
  generation := ⟨fun _ => rfl, fun _ => rfl⟩
  closed := nofun
  loop := Nat.zero_le _
  busy := ⟨.inl rfl, rfl, rfl⟩
  ops := nofun

theorem LoopInv.tokens_le {loop : LoopPc} {busy : BusyPc} (h : c.LoopInv limit loop busy) :
    c.tokens ≤ limit := by
  cases loop with
  | none | exited => exact h
  | select => exact Nat.le_trans h.2.1 h.1
  | lockBusy => exact Nat.le_trans h.2.1 (Nat.le_of_succ_le h.1)
  | holding =>
    cases busy with
    | free | op => exact h.elim
    | loop pc =>
      cases pc with
      | check => exact Nat.le_trans h.2.1 (Nat.le_of_succ_le h.1)
      | count remaining | send remaining => exact Nat.le_trans h.2.2.1 (Nat.sub_le ..)
      | finish => exact h.1

theorem Inv.tokens_le (h : Inv limit c) : c.tokens ≤ limit := h.loop.tokens_le

theorem Inv.opBusyInv {pc : OpBusy} (h : Inv limit c) (hpc : c.busy = .op pc) : c.OpBusyInv pc := by
  have hbusy := h.busy
  rw [hpc] at hbusy
  exact hbusy

theorem Inv.quiet (h : Inv limit c) (hzero : c.outstandingRequestNext = unsent c.busy) :
    c.unanswered = 0 ∧ c.handler = .idle := by
  have houtstanding := h.outstanding
  cases hplace : c.handler with
  | idle =>
    rw [hplace, unretired] at houtstanding
    exact ⟨by omega, rfl⟩
  | callback | lockForSignal | signalling | retire =>
    rw [hplace, unretired] at houtstanding
    · omega
    · exact nofun

theorem OpInv.congr {op : OpPc} (h : c.OpInv op)
    (hgeneration : c'.loopGeneration = c.loopGeneration) (hgone : c.LoopGone → c'.LoopGone) :
    c'.OpInv op := by
  cases op with
  | reintersectCalled | closeLoopStop | closeReady => trivial
  | awaitLoop kind generation => exact ⟨h.1, hgeneration ▸ h.2⟩
  | lockBusy kind generation =>
    exact ⟨hgeneration ▸ h.1, fun heq => hgone (h.2 (heq.trans hgeneration))⟩

/-- From `c` to `c'` no token appears, and none is lost unless the protocol fails. -/
structure Keeps (c c' : Client) : Prop where
  pipelined : c'.syncPipelinedRequestNext = c.syncPipelinedRequestNext
  tokens_le : c'.tokens ≤ c.tokens
  tokens_eq : c'.tokens = c.tokens ∨ c'.Failing
  failing : c.Failing → c'.Failing

theorem Balanced.shift {n m t : Nat} (h : c.Balanced n) (ht : t + n = c.tokens + m)
    (htokens : c'.tokens = t) (hfailing : c.Failing → c'.Failing) : c'.Balanced m := by
  have hle := h.1
  rw [Balanced, htokens]
  refine ⟨by omega, h.2.imp (fun heq => ?_) hfailing⟩
  omega

theorem Keeps.balanced {n : Nat} (h : Keeps c c') (hbalanced : c.Balanced n) : c'.Balanced n := by
  refine ⟨Nat.le_trans h.tokens_le hbalanced.1, ?_⟩
  rcases hbalanced.2 with heq | hfailing
  · exact h.tokens_eq.imp_left fun hsame => hsame.trans heq
  · exact Or.inr (h.failing hfailing)

theorem Keeps.loopInv {loop : LoopPc} {busy : BusyPc} (h : Keeps c c')
    (hloop : c.LoopInv limit loop busy) : c'.LoopInv limit loop busy := by
  cases loop with
  | none | exited => exact Nat.le_trans h.tokens_le hloop
  | select | lockBusy =>
    rw [LoopInv, h.pipelined]
    exact ⟨hloop.1, h.balanced hloop.2⟩
  | holding =>
    cases busy with
    | free | op => exact hloop
    | loop pc =>
      cases pc with
      | check =>
        rw [LoopInv, h.pipelined]
        exact ⟨hloop.1, h.balanced hloop.2⟩
      | count remaining | send remaining => exact ⟨hloop.1, hloop.2.1, h.balanced hloop.2.2⟩
      | finish => exact h.balanced hloop

variable {action : Action}

section

variable (h : Inv limit c)
include h

/-! ## The handlers -/

/-- What a step of a handler does: only `requestNextAnswered` moves the counter. -/
structure Handled (c c' : Client) : Prop where
  active : 0 < c.unanswered + unretired c.handler
  keeps : Keeps c c'
  loop : c'.loop = c.loop
  generation : c'.loopGeneration = c.loopGeneration
  busy : c'.busy = c.busy
  ops : c'.ops = c.ops
  closed : c'.readyClosed = true → c.readyClosed = true
  done : c.done = true → c'.done = true
  outstanding : c'.outstandingRequestNext + (c.unanswered + unretired c.handler) =
    c.outstandingRequestNext + (c'.unanswered + unretired c'.handler)
  drained : c.drainPending = true → (c'.drainPending = true ↔ 0 < c'.outstandingRequestNext)

/-- A handler passes its token on, or loses it while the protocol fails. -/
theorem Inv.handled (hstep : c.handlerStep limit action = some c') : Handled c c' := by
  have houtstanding := h.outstanding
  -- from the reply to the retirement the counter stays
  have hmove {handler : HandlerPc} {unanswered stops : Nat} {ready : List Bool}
      (hplace : c.handler ≠ .retire true) (hactive : 0 < c.unanswered + unretired c.handler)
      (hsame : unanswered + unretired handler = c.unanswered + unretired c.handler)
      (hle : ready.length + unsignalled handler + unanswered ≤ c.tokens)
      (heq : ready.length + unsignalled handler + unanswered = c.tokens ∨
        c.done = true ∨ handler = .retire true) :
      Handled c { c with handler, unanswered, ready, syncStopRequests := stops } := by
    have hpos : 0 < c.outstandingRequestNext := by omega
    refine ⟨hactive, ⟨rfl, hle, heq, ?_⟩, rfl, rfl, rfl, rfl, id, id, ?_, ?_⟩
    · exact fun hfailing => .inl (hfailing.resolve_right hplace)
    · exact congrArg (c.outstandingRequestNext + ·) hsame.symm
    · exact fun hpending => iff_of_true hpending hpos
  unfold Client.handlerStep at hstep
  cases action with
  | reply =>
    rcases Option.ite_none_right_eq_some.mp hstep with ⟨⟨hplace, hpos, -⟩, hstep⟩
    cases hstep
    refine hmove (by rw [hplace]; exact nofun) (by omega) ?_ ?_ (.inl ?_)
    all_goals
      simp only [tokens, hplace, unsignalled, unretired]
      omega
  | callbackReturns outcome =>
    dsimp only at hstep
    split at hstep
    case h_1 ready failed hplace =>
      cases hstep
      refine hmove (by rw [hplace]; exact nofun) ?_ ?_ ?_ (.inl ?_)
      all_goals simp [tokens, hplace, unsignalled, unretired]
    case h_2 hplace =>
      cases hstep
      refine hmove (by rw [hplace]; exact nofun) ?_ ?_ ?_ (.inr (.inr rfl))
      all_goals simp [tokens, hplace, unsignalled, unretired]
    case h_3 => cases hstep
  | handlerStep =>
    dsimp only at hstep
    split at hstep
    case h_1 ready failed hplace =>
      cases hstep
      by_cases hclosed : c.readyClosed
      · -- the ready channel is closed only when the protocol has ended
        rw [if_pos hclosed]
        refine hmove (by rw [hplace]; exact nofun) ?_ ?_ ?_ (.inr (.inl (h.closed hclosed)))
        all_goals simp [tokens, hplace, unsignalled, unretired]
      · rw [if_neg hclosed]
        refine hmove (by rw [hplace]; exact nofun) ?_ ?_ ?_ (.inl ?_)
        all_goals simp [tokens, hplace, unsignalled, unretired]
    case h_2 ready failed hplace =>
      rcases Option.ite_none_right_eq_some.mp hstep with ⟨-, hstep⟩
      cases hstep
      refine hmove (by rw [hplace]; exact nofun) ?_ ?_ ?_ (.inl ?_)
      all_goals simp [tokens, hplace, unsignalled, unretired]
    case h_3 failed hplace =>
      cases hstep
      have hone : unretired c.handler = 1 := by rw [hplace, unretired]; exact nofun
      have htokens : c.tokens = c.ready.length + 0 + c.unanswered := by
        rw [tokens, hplace]
        rfl
      refine ⟨by omega, ⟨rfl, htokens.ge, .inl htokens.symm, ?_⟩, rfl, rfl, rfl, rfl, id, ?_, ?_, ?_⟩
      · rintro (hdone | hretire)
        · exact .inl (by simp [hdone])
        · rw [hplace] at hretire
          cases hretire
          exact .inl (Bool.or_true _)
      · intro hdone
        simp [hdone]
      · show c.outstandingRequestNext - 1 + (c.unanswered + unretired c.handler) =
          c.outstandingRequestNext + (c.unanswered + 0)
        omega
      · intro hpending
        simp [requestNextAnswered, hpending]
    case h_4 => cases hstep
  | handlerDone =>
    dsimp only at hstep
    split at hstep
    case h_1 ready failed hplace =>
      rcases Option.ite_none_right_eq_some.mp hstep with ⟨hdone, hstep⟩
      cases hstep
      refine hmove (by rw [hplace]; exact nofun) ?_ ?_ ?_ (.inr (.inl hdone))
      all_goals simp [tokens, hplace, unsignalled, unretired]
    case h_2 => cases hstep
  | _ => cases hstep

theorem Inv.handlerStep (hstep : c.handlerStep limit action = some c') : Inv limit c' := by
  have hh := h.handled hstep
  have houtstanding := h.outstanding
  have hactive := hh.active
  have hgone : c'.LoopGone ↔ c.LoopGone := by
    unfold LoopGone
    rw [hh.loop]
  refine ⟨?_, ?_, fun hclosed => hh.done (h.closed (hh.closed hclosed)), ?_, ?_, ?_⟩
  · have hmoved := hh.outstanding
    rw [hh.busy]
    omega
  · rw [hh.loop, hh.generation]
    exact h.generation
  · rw [hh.loop, hh.busy]
    exact hh.keeps.loopInv h.loop
  · rw [hh.busy]
    have hbusy := h.busy
    cases hplace : c.busy with
    | free => trivial
    | loop pc =>
      rw [hplace] at hbusy
      exact hh.loop.trans hbusy
    | op pc =>
      -- while a request is on its way, no call is past its drain
      rw [hplace] at hbusy houtstanding
      cases pc with
      | recheck kind generation =>
        exact ⟨hh.generation ▸ hbusy.1, fun heq => hgone.mpr (hbusy.2 (heq.trans hh.generation))⟩
      | countOutstanding kind => exact hgone.mpr hbusy
      | awaitDrained kind =>
        have hpending : c.drainPending = true := by
          cases hpending : c.drainPending with
          | true => rfl
          | false =>
            have hzero := hbusy.2.2 hpending
            omega
        have hdrained := hh.drained hpending
        refine ⟨hgone.mpr hbusy.1, hdrained.mp, fun hnot => ?_⟩
        rw [hnot] at hdrained
        simpa using hdrained
      | startLoop => exact ⟨hgone.mpr hbusy.1, hh.keeps.balanced hbusy.2⟩
      | drainSignals _ | setStopping | sendDone =>
        have hzero := hbusy.2
        omega
      | checkStopped _ | sendFindIntersect | awaitIntersect | initialCheck | initialCount =>
        have hzero := hbusy.2.1
        omega
      | initialSend =>
        have hone := hbusy.2.1
        simp only [unsent] at houtstanding
        omega
  · rw [hh.ops]
    exact fun op hop => (h.ops op hop).congr hh.generation hgone.mpr

/-! ## The sync loop -/

omit h in
/-- A call that holds `busyMutex` while a loop runs has read an older loop's channel. -/
theorem BusyInv.of_running {busy : BusyPc} (hbusy : c.BusyInv busy) (hrunning : ¬ c.LoopGone)
    (hloop : c.loop ≠ .holding) : busy = .free ∨
      ∃ kind generation, busy = .op (.recheck kind generation) ∧ generation < c.loopGeneration := by
  cases busy with
  | free => exact .inl rfl
  | loop pc => exact absurd hbusy hloop
  | op pc =>
    cases pc with
    | recheck kind generation =>
      exact .inr ⟨kind, generation, rfl, Nat.lt_of_le_of_ne hbusy.1 fun heq => hrunning (hbusy.2 heq)⟩
    | countOutstanding kind => exact absurd hbusy hrunning
    | _ => exact absurd hbusy.1 hrunning

omit h in
theorem not_loopGone {pc : LoopPc} (hplace : c.loop = pc) (hnone : pc ≠ .none)
    (hexited : pc ≠ .exited) : ¬ c.LoopGone := by
  rw [LoopGone, hplace]
  exact fun hgone => hgone.elim hnone hexited

theorem Inv.generation_ne_zero (hrunning : ¬ c.LoopGone) : c.loopGeneration ≠ 0 :=
  fun hzero => hrunning (.inl (h.generation.mpr hzero))

theorem Inv.loopStep (hstep : c.loopStep action = some c') : Inv limit c' := by
  -- a loop that waits for a signal takes one, or leaves
  have hgoes {ready : List Bool} {loop : LoopPc} (hselect : c.loop = .select) (hnone : loop ≠ .none)
      (hinv : LoopInv limit { c with ready, loop } loop c.busy) : Inv limit { c with ready, loop } := by
    have hrunning : ¬ c.LoopGone := not_loopGone hselect nofun nofun
    refine ⟨h.outstanding, iff_of_false hnone (h.generation_ne_zero hrunning), h.closed, hinv, ?_,
      fun op hop => (h.ops op hop).congr rfl fun hgone => absurd hgone hrunning⟩
    show BusyInv _ c.busy
    rcases h.busy.of_running hrunning (by rw [hselect]; exact nofun) with
      hfree | ⟨kind, generation, hrecheck, hlt⟩
    · rw [hfree]
      trivial
    · rw [hrecheck]
      exact ⟨Nat.le_of_lt hlt, fun heq => absurd heq (Nat.ne_of_lt hlt)⟩
  have hloop := h.loop
  unfold Client.loopStep at hstep
  cases action with
  | loopSignal =>
    dsimp only at hstep
    split at hstep
    case h_2 => cases hstep
    case h_1 ready rest hselect hready =>
      cases hstep
      rw [hselect] at hloop
      have htokens : rest.length + unsignalled c.handler + c.unanswered + 1 = c.tokens := by
        rw [tokens, hready, List.length_cons]
        omega
      cases ready with
      | true =>
        refine hgoes hselect nofun ⟨hloop.1, ?_⟩
        exact hloop.2.shift (t := rest.length + unsignalled c.handler + c.unanswered)
          (m := c.syncPipelinedRequestNext) (by omega) rfl id
      | false => exact hgoes hselect nofun (Nat.le_trans (Nat.le_of_succ_le htokens.le) h.tokens_le)
  | loopStopped =>
    rcases Option.ite_none_right_eq_some.mp hstep with ⟨hcond, hstep⟩
    cases hstep
    exact hgoes hcond.1 nofun h.tokens_le
  | loopLock =>
    rcases Option.ite_none_right_eq_some.mp hstep with ⟨⟨hlock, hfree⟩, hstep⟩
    cases hstep
    have houtstanding := h.outstanding
    rw [hfree] at houtstanding
    rw [hlock] at hloop
    have hrunning : ¬ c.LoopGone := not_loopGone hlock nofun nofun
    exact ⟨houtstanding, iff_of_false nofun (h.generation_ne_zero hrunning), h.closed, hloop, rfl,
      fun op hop => (h.ops op hop).congr rfl fun hgone => absurd hgone hrunning⟩
  | _ => cases hstep

theorem Inv.loopBusyStep {pc : LoopBusy} (hlimit : 0 < limit)
    (hpc : c.busy = .loop pc) : Inv limit (c.loopBusyStep limit pc) := by
  have hmax : max limit 1 = limit := Nat.max_eq_left hlimit
  have hholding : c.loop = .holding := by
    have hbusy := h.busy
    rw [hpc] at hbusy
    exact hbusy
  have hrunning : ¬ c.LoopGone := not_loopGone hholding nofun nofun
  have hstarted := h.generation_ne_zero hrunning
  have houtstanding := h.outstanding
  have hloop := h.loop
  rw [hpc] at houtstanding hloop
  rw [hholding] at hloop
  have hops {c' : Client} (hgeneration : c'.loopGeneration = c.loopGeneration) :
      ∀ op ∈ c.ops, c'.OpInv op :=
    fun op hop => (h.ops op hop).congr hgeneration fun hgone => absurd hgone hrunning
  -- the loop gives the mutex back
  have hleaves {loop : LoopPc} {n : Nat} (hunsent : unsent (.loop pc) = 0) (hnone : loop ≠ .none)
      (hinv : LoopInv limit { c with syncPipelinedRequestNext := n, loop, busy := .free } loop .free) :
      Inv limit { c with syncPipelinedRequestNext := n, loop, busy := .free } := by
    rw [hunsent] at houtstanding
    exact ⟨houtstanding, iff_of_false hnone hstarted, h.closed, hinv, trivial, hops rfl⟩
  cases pc with
  | check =>
    dsimp only [Client.loopBusyStep]
    split
    · exact hleaves rfl nofun h.tokens_le
    · split
      · rename_i hpos
        refine hleaves rfl nofun ?_
        rw [LoopInv, Nat.sub_add_cancel hpos]
        exact ⟨Nat.le_of_succ_le hloop.1, hloop.2⟩
      · -- no token is left, and a new batch begins
        rename_i hzero
        refine ⟨houtstanding, h.generation, h.closed, ?_, hholding, hops rfl⟩
        show LoopInv limit _ c.loop _
        rw [hholding, hmax]
        exact ⟨hlimit, Nat.le_refl _, hloop.2.shift (t := c.tokens) (by omega) rfl id⟩
  | count remaining =>
    refine ⟨?_, h.generation, h.closed, ?_, hholding, hops rfl⟩
    · exact congrArg (· + 1) houtstanding
    · show LoopInv limit _ c.loop _
      rw [hholding]
      exact hloop
  | send remaining =>
    dsimp only [Client.loopBusyStep]
    split
    · -- the send fails, and its request is retired
      refine ⟨?_, iff_of_false nofun hstarted, h.closed, h.tokens_le, trivial, hops rfl⟩
      show c.outstandingRequestNext - 1 = _
      rw [houtstanding]
      rfl
    · -- the request is a new token
      have hsent (next : LoopBusy) (hunsent : unsent (.loop next) = 0)
          (hinv : LoopInv limit { c with unanswered := c.unanswered + 1 } .holding (.loop next)) :
          Inv limit { c with unanswered := c.unanswered + 1, busy := .loop next } := by
        refine ⟨?_, h.generation, h.closed, ?_, hholding, hops rfl⟩
        · show c.outstandingRequestNext = c.unanswered + 1 + unretired c.handler + unsent _
          rw [hunsent, houtstanding, unsent]
          omega
        · show LoopInv limit _ c.loop _
          rw [hholding]
          exact hinv
      rcases hloop with ⟨hpos, hle, hbalanced⟩
      have htokens : c.ready.length + unsignalled c.handler + (c.unanswered + 1) = c.tokens + 1 := rfl
      by_cases hlast : remaining = 1
      · rw [if_pos hlast]
        exact hsent .finish rfl (hbalanced.shift (m := limit) (by omega) htokens id)
      · rw [if_neg hlast]
        exact hsent (.count (remaining - 1)) rfl
          ⟨by omega, by omega, hbalanced.shift (by omega) htokens id⟩
  | finish =>
    dsimp only [Client.loopBusyStep]
    split
    · exact hleaves rfl nofun h.tokens_le
    · refine hleaves rfl nofun ?_
      rw [LoopInv, hmax, Nat.sub_add_cancel hlimit]
      exact ⟨Nat.le_refl _, hloop⟩

/-! ## The calls -/

omit h in
theorem LoopGone.loopInv {busy : BusyPc} (hgone : c.LoopGone) (hle : c.tokens ≤ limit) :
    c.LoopInv limit c.loop busy := by
  rcases hgone with hgone | hgone
  · rw [hgone]
    exact hle
  · rw [hgone]
    exact hle

theorem Inv.loopInv_of_not_loop (hbusy : ∀ pc, c.busy ≠ .loop pc) (busy : BusyPc) :
    c.LoopInv limit c.loop busy := by
  have hloop := h.loop
  cases hplace : c.loop with
  | holding =>
    rw [hplace] at hloop
    cases hholder : c.busy with
    | loop pc => exact absurd hholder (hbusy pc)
    | free | op =>
      rw [hholder] at hloop
      exact hloop.elim
  | none | exited | select | lockBusy =>
    rw [hplace] at hloop
    exact hloop

/-- A call that holds `busyMutex` goes on, or gives it back. -/
theorem Inv.goesOn {pc : OpBusy} (hpc : c.busy = .op pc) {busy : BusyPc} {pending stopping : Bool}
    {ops : List OpPc} (hunsent : unsent busy = unsent (.op pc))
    (hnext : BusyInv { c with drainPending := pending } busy) (hops : ∀ op ∈ ops, c.OpInv op) :
    Inv limit { c with busy, ops, stopping, drainPending := pending } := by
  have houtstanding := h.outstanding
  rw [hpc, ← hunsent] at houtstanding
  exact ⟨houtstanding, h.generation, h.closed,
    h.loopInv_of_not_loop (by rw [hpc]; exact nofun) busy, hnext, hops⟩

theorem Inv.opBusyStep {pc : OpBusy} (hlimit : 0 < limit)
    (hpc : c.busy = .op pc) (hstep : c.opBusyStep pc = some c') : Inv limit c' := by
  have hbusy := h.opBusyInv hpc
  have houtstanding := h.outstanding
  rw [hpc] at houtstanding
  have hgoes {busy : BusyPc} (hunsent : unsent busy = unsent (.op pc)) (hnext : c.BusyInv busy) :
      Inv limit { c with busy } :=
    h.goesOn hpc hunsent hnext h.ops
  have hgives (op : OpPc) (hop : c.OpInv op) (hunsent : 0 = unsent (.op pc)) :
      Inv limit { c with busy := .free, ops := c.ops ++ [op] } := by
    refine h.goesOn hpc hunsent trivial fun other hmem => ?_
    rcases List.mem_append.mp hmem with hold | hnew
    · exact h.ops other hold
    · rw [List.mem_singleton.mp hnew]
      exact hop
  have hdrained (kind : OpKind) (hunsent : 0 = unsent (.op pc)) (hgone : c.LoopGone)
      (hzero : c.outstandingRequestNext = 0) : Inv limit { c with busy := afterDrain kind } := by
    cases kind with
    | reintersect | stopAfterDrain => exact hgoes hunsent ⟨hgone, hzero⟩
  cases pc with
  | recheck kind generation =>
    cases hstep
    split
    · rename_i heq
      exact hgoes rfl (hbusy.2 heq)
    · exact hgives _ trivial rfl
  | countOutstanding kind =>
    cases hstep
    split
    · rename_i hpos
      exact h.goesOn hpc rfl ⟨hbusy, fun _ => hpos, nofun⟩ h.ops
    · exact hdrained kind rfl hbusy (by omega)
  | awaitDrained kind =>
    dsimp only [Client.opBusyStep] at hstep
    split at hstep
    · cases hstep
    · rename_i hpending
      cases hstep
      exact hdrained kind rfl hbusy.1 (hbusy.2.2 (Bool.not_eq_true _ ▸ hpending))
  | drainSignals stopsBefore =>
    dsimp only [Client.opBusyStep] at hstep
    split at hstep
    · -- a signal that nobody waits for is taken, and its token goes
      rename_i signal rest hready
      cases hstep
      have hle : rest.length + unsignalled c.handler + c.unanswered ≤ c.tokens := by
        rw [tokens, hready, List.length_cons]
        omega
      refine ⟨h.outstanding, h.generation, h.closed, ?_, ?_, h.ops⟩
      · exact LoopGone.loopInv (c := { c with ready := rest }) hbusy.1 (Nat.le_trans hle h.tokens_le)
      · show BusyInv _ c.busy
        rw [hpc]
        exact hbusy
    · rename_i hready
      cases hstep
      split
      · exact hgoes rfl trivial
      · exact hgoes rfl ⟨hbusy.1, hbusy.2, hready⟩
  | checkStopped | sendFindIntersect | initialCheck =>
    cases hstep
    split
    · exact hgoes rfl trivial
    · exact hgoes rfl hbusy
  | awaitIntersect => cases hstep
  | initialCount =>
    cases hstep
    have hone : c.outstandingRequestNext + 1 = 1 := congrArg (· + 1) hbusy.2.1
    exact ⟨congrArg (· + 1) houtstanding, h.generation, h.closed, hbusy.1.loopInv h.tokens_le,
      ⟨hbusy.1, hone, hbusy.2.2⟩, h.ops⟩
  | initialSend =>
    cases hstep
    rcases h.quiet (by rw [hpc]; exact hbusy.2.1) with ⟨hunanswered, hidle⟩
    split
    · refine ⟨?_, h.generation, h.closed, hbusy.1.loopInv h.tokens_le, trivial, h.ops⟩
      show c.outstandingRequestNext - 1 = c.unanswered + unretired c.handler + 0
      rw [hbusy.2.1, hunanswered, hidle]
      rfl
    · -- the request is the only token
      have hone : c.ready.length + unsignalled c.handler + (c.unanswered + 1) = 1 := by
        rw [hbusy.2.2, hunanswered, hidle]
        rfl
      refine ⟨?_, h.generation, h.closed, ?_, ⟨hbusy.1, hone.le, .inl hone⟩, h.ops⟩
      · show c.outstandingRequestNext = c.unanswered + 1 + unretired c.handler + 0
        rw [hbusy.2.1, hunanswered, hidle]
        rfl
      · exact LoopGone.loopInv (c := { c with unanswered := c.unanswered + 1 }) hbusy.1
          (Nat.le_trans hone.le hlimit)
  | startLoop =>
    cases hstep
    split
    · exact hgoes rfl trivial
    · refine ⟨houtstanding, iff_of_false nofun (Nat.succ_ne_zero _), h.closed, ⟨hlimit, hbusy.2⟩,
        trivial, fun op hop => ?_⟩
      have hbefore := h.ops op hop
      cases op with
      | reintersectCalled | closeLoopStop | closeReady => trivial
      | awaitLoop kind generation => exact ⟨hbefore.1, Nat.le_succ_of_le hbefore.2⟩
      | lockBusy kind generation =>
        exact ⟨Nat.le_succ_of_le hbefore.1, fun heq => absurd (heq ▸ hbefore.1) (Nat.not_succ_le_self _)⟩
  | setStopping =>
    cases hstep
    split
    · exact hgoes rfl trivial
    · exact h.goesOn hpc rfl hbusy h.ops
  | sendDone =>
    cases hstep
    exact hgives _ trivial rfl

theorem Inv.busyStep (hlimit : 0 < limit)
    (hstep : c.busyStep limit action = some c') : Inv limit c' := by
  unfold Client.busyStep at hstep
  cases action with
  | busyStep =>
    rcases Option.ite_none_left_eq_some.mp hstep with ⟨-, hstep⟩
    split at hstep
    case h_1 => cases hstep
    case h_2 pc hplace =>
      cases hstep
      exact h.loopBusyStep hlimit hplace
    case h_3 pc hplace => exact h.opBusyStep hlimit hplace hstep
  | busyAbandon =>
    dsimp only at hstep
    split at hstep
    case h_1 kind hplace =>
      split at hstep
      · cases hstep
        exact h.goesOn hplace rfl trivial h.ops
      · rcases Option.ite_none_right_eq_some.mp hstep with ⟨-, hstep⟩
        cases hstep
        exact h.goesOn hplace rfl trivial h.ops
    case h_2 hplace =>
      rcases Option.ite_none_right_eq_some.mp hstep with ⟨-, hstep⟩
      cases hstep
      exact h.goesOn hplace rfl trivial h.ops
    case h_3 => cases hstep
  | intersectReply found =>
    rcases Option.ite_none_right_eq_some.mp hstep with ⟨⟨hplace, -⟩, hstep⟩
    cases hstep
    cases found with
    | false => exact h.goesOn hplace rfl trivial h.ops
    | true => exact h.goesOn hplace rfl (h.opBusyInv hplace) h.ops
  | _ => cases hstep

theorem Inv.ends {ops : List OpPc} {closed : Bool}
    (hops : ∀ op ∈ ops, op ∈ c.ops) :
    Inv limit { c with done := true, readyClosed := closed, ops := ops } := by
  have hkeeps : Keeps c { c with done := true, readyClosed := closed, ops := ops } :=
    ⟨rfl, Nat.le_refl _, .inl rfl, fun _ => .inl rfl⟩
  refine ⟨h.outstanding, h.generation, fun _ => rfl, hkeeps.loopInv h.loop, ?_,
    fun op hop => (h.ops op (hops op hop)).congr rfl id⟩
  show BusyInv _ c.busy
  have hbusy := h.busy
  cases hplace : c.busy with
  | free => trivial
  | loop pc =>
    rw [hplace] at hbusy
    exact hbusy
  | op pc =>
    rw [hplace] at hbusy
    cases pc with
    | startLoop => exact ⟨hbusy.1, hkeeps.balanced hbusy.2⟩
    | _ => exact hbusy

theorem Inv.of_ops {ops : List OpPc} {loopStop : Bool}
    (hops : ∀ op ∈ ops, c.OpInv op) : Inv limit { c with ops := ops, loopStop := loopStop } :=
  ⟨h.outstanding, h.generation, h.closed, h.loop, h.busy, hops⟩

theorem Inv.opStep {op : OpPc} {others : List OpPc} (hop : c.OpInv op)
    (hothers : ∀ other ∈ others, other ∈ c.ops) (hstep : c.opStep others op = some c') :
    Inv limit c' := by
  have hothers' : ∀ other ∈ others, c.OpInv other := fun other hmem => h.ops other (hothers other hmem)
  have hnext {loopStop : Bool} {new : OpPc} (hnew : c.OpInv new) :
      Inv limit { c with ops := new :: others, loopStop := loopStop } :=
    h.of_ops (List.forall_mem_cons.mpr ⟨hnew, hothers'⟩)
  unfold Client.opStep at hstep
  cases op with
  | reintersectCalled =>
    rcases Option.ite_none_left_eq_some.mp hstep with ⟨-, hstep⟩
    cases hstep
    exact hnext trivial
  | closeLoopStop kind =>
    rcases Option.ite_none_left_eq_some.mp hstep with ⟨-, hstep⟩
    split at hstep
    · -- no loop was ever started
      rename_i hzero
      cases hstep
      exact hnext ⟨Nat.zero_le _, fun _ => .inl (h.generation.mpr hzero)⟩
    · rename_i hstarted
      cases hstep
      exact hnext ⟨Nat.pos_of_ne_zero hstarted, Nat.le_refl _⟩
  | awaitLoop kind generation =>
    -- the loop is an older one, or has exited
    rcases Option.ite_none_right_eq_some.mp hstep with ⟨hover, hstep⟩
    cases hstep
    exact hnext ⟨hop.2, fun heq => .inr (hover.resolve_left (Nat.not_lt.mpr heq.ge))⟩
  | lockBusy kind generation =>
    rcases Option.ite_none_right_eq_some.mp hstep with ⟨hfree, hstep⟩
    cases hstep
    have houtstanding := h.outstanding
    rw [hfree] at houtstanding
    exact ⟨houtstanding, h.generation, h.closed,
      h.loopInv_of_not_loop (by rw [hfree]; exact nofun) _, hop, hothers'⟩
  | closeReady =>
    rcases Option.ite_none_left_eq_some.mp hstep with ⟨-, hstep⟩
    cases hstep
    exact h.ends hothers

theorem Inv.step (hlimit : 0 < limit) (hstep : c.step limit action = some c') : Inv limit c' := by
  have hcall (pc : OpPc) (hpc : c.OpInv pc) (hstep : c.call pc = some c') : Inv limit c' := by
    rcases Option.ite_none_left_eq_some.mp hstep with ⟨-, hstep⟩
    cases hstep
    exact h.of_ops (List.forall_mem_cons.mpr ⟨hpc, h.ops⟩)
  cases action with
  | callReintersect | callStopAfterDrain =>
    simp only [Client.step] at hstep
    exact hcall _ (by trivial) hstep
  | opStep index =>
    obtain ⟨op, hop, hstep⟩ := Option.bind_eq_some_iff.mp hstep
    exact h.opStep (h.ops op (List.mem_of_getElem? hop)) (fun _ => List.mem_of_mem_eraseIdx) hstep
  | opAbandon index =>
    obtain ⟨op, hop, hstep⟩ := Option.bind_eq_some_iff.mp hstep
    unfold Client.opAbandon at hstep
    split at hstep
    case h_3 => cases hstep
    all_goals
      rcases Option.ite_none_right_eq_some.mp hstep with ⟨-, hstep⟩
      cases hstep
      exact h.of_ops fun other hmem => h.ops other (List.mem_of_mem_eraseIdx hmem)
  | busyStep | busyAbandon | intersectReply =>
    simp only [Client.step] at hstep
    exact h.busyStep hlimit hstep
  | loopSignal | loopStopped | loopLock =>
    simp only [Client.step] at hstep
    exact h.loopStep hstep
  | reply | callbackReturns | handlerStep | handlerDone =>
    simp only [Client.step] at hstep
    exact h.handlerStep hstep
  | connectionLost =>
    cases hstep
    have hends : Inv limit { c with done := true, readyClosed := c.readyClosed, ops := c.ops } :=
      h.ends fun _ hop => hop
    exact hends

end

theorem newClientLimit_pos (pipelineLimit : Nat) : 0 < newClientLimit pipelineLimit := by
  unfold newClientLimit
  split
  · decide
  · omega

theorem inv_of_run {actions : List Action} (hlimit : 0 < limit)
    (hrun : Transition.run (step limit) {} actions = some c) : Inv limit c :=
  Transition.run_invariant (fun _ _ _ hinv hstep => hinv.step hlimit hstep) (inv_start limit) hrun

end Gouroboros.Protocol.ChainSync.Client

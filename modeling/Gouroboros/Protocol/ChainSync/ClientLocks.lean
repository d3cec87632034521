import Gouroboros.Protocol.ChainSync.ClientTokens

/-!
# The client never blocks while it holds its lifecycle lock

In every state that the client reaches after `Start` and `Sync` a handler that
holds `lifecycleMutex` finds a free slot in the ready channel, and someone can go
on unless everything has come to rest (`client_never_blocks`).

A handler that has its own token still to signal leaves a slot free. For each
goroutine that waits there is one that does not: a call waits for the loop, the
loop for a token, and a token that is not in the channel is with a handler or
with the server.

With a limit of zero the bound is not `max 0 1`, because `NewClient` puts the
default of 75 in its place (`unanswered_exceeds_zero_limit`).
-/

namespace Gouroboros.Protocol.ChainSync

/-- What the goroutines and the server do by themselves. Giving up a wait counts
once the protocol is done; new calls and a lost connection do not. -/
def Action.goesOn (done : Bool) : Action → Bool
  | .callReintersect | .callStopAfterDrain | .connectionLost => false
  | .opAbandon _ | .busyAbandon => done
  | _ => true

namespace Client

variable {limit : Nat} {c : Client}

/-- Nothing is left to do: no call, no loop and no handler is on its way. -/
def AtRest (c : Client) : Prop := c.handler = .idle ∧ c.busy = .free ∧ c.ops = [] ∧ c.LoopGone

/-- Some goroutine, or the server, can go on. -/
def CanMove (limit : Nat) (c : Client) : Prop :=
  ∃ action, action.goesOn c.done = true ∧ (c.step limit action).isSome = true

/-! ## The signalling handler -/

theorem Inv.slot_free {ready failed : Bool} (h : Inv limit c)
    (hhandler : c.handler = .signalling ready failed) : c.ready.length < limit := by
  have hle := h.tokens_le
  have hone : unsignalled c.handler = 1 := by rw [hhandler]; rfl
  unfold tokens at hle
  omega

theorem Inv.canMove_of_handler (h : Inv limit c) (hhandler : c.handler ≠ .idle) :
    CanMove limit c := by
  cases hplace : c.handler with
  | idle => exact absurd hplace hhandler
  | callback =>
    refine ⟨.callbackReturns .error, rfl, ?_⟩
    simp only [Client.step, Client.handlerStep, hplace, Option.isSome_some]
  | lockForSignal | retire =>
    refine ⟨.handlerStep, rfl, ?_⟩
    simp only [Client.step, Client.handlerStep, hplace, Option.isSome_some]
  | signalling ready failed =>
    refine ⟨.handlerStep, rfl, ?_⟩
    simp only [Client.step, Client.handlerStep, hplace, h.slot_free hplace, if_true, Option.isSome_some]

/-! ## With the handlers idle -/

theorem canMove_of_unanswered (hidle : c.handler = .idle) (hdone : c.done = false)
    (hpos : 0 < c.unanswered) : CanMove limit c := by
  refine ⟨.reply, rfl, ?_⟩
  simp only [step, handlerStep, hidle, hdone, hpos, and_self, if_true, Option.isSome_some]

theorem lifecycleHeld_of_idle (hidle : c.handler = .idle) : c.lifecycleHeld = false := by
  unfold lifecycleHeld
  rw [hidle]

section

variable (h : Inv limit c)
include h

section

variable (hidle : c.handler = .idle)
include hidle

theorem Inv.canMove_of_awaitDrained {kind : OpKind} (hpc : c.busy = .op (.awaitDrained kind)) :
    CanMove limit c := by
  obtain ⟨-, hpending, -⟩ := h.opBusyInv hpc
  cases hdrain : c.drainPending with
  | false =>
    refine ⟨.busyStep, rfl, ?_⟩
    simp [Client.step, Client.busyStep, Client.opBusyStep, hpc, hdrain, lifecycleHeld_of_idle hidle]
  | true =>
    have houtstanding := h.outstanding
    have hpos := hpending hdrain
    rw [hidle, hpc] at houtstanding
    have hunretired : unretired .idle = 0 := rfl
    have hunsent : unsent (.op (.awaitDrained kind)) = 0 := rfl
    cases hdone : c.done with
    | false => exact canMove_of_unanswered hidle hdone (by omega)
    | true =>
      refine ⟨.busyAbandon, hdone, ?_⟩
      simp only [Client.step, Client.busyStep, hpc, hdone, Bool.true_or, if_true]
      split <;> rfl

theorem Inv.canMove_of_busy (hbusy : c.busy ≠ .free) : CanMove limit c := by
  have hheld := lifecycleHeld_of_idle hidle
  cases hplace : c.busy with
  | free => exact absurd hplace hbusy
  | loop pc =>
    refine ⟨.busyStep, rfl, ?_⟩
    simp [Client.step, Client.busyStep, hplace, hheld]
  | op pc =>
    cases pc with
    | awaitDrained kind => exact h.canMove_of_awaitDrained hidle hplace
    | awaitIntersect =>
      cases hdone : c.done with
      | false =>
        refine ⟨.intersectReply true, rfl, ?_⟩
        simp [Client.step, Client.busyStep, hplace, hidle, hdone]
      | true =>
        refine ⟨.busyAbandon, hdone, ?_⟩
        simp [Client.step, Client.busyStep, hplace, hdone]
    | drainSignals stopsBefore =>
      refine ⟨.busyStep, rfl, ?_⟩
      simp only [Client.step, Client.busyStep, hplace, hheld, Client.opBusyStep]
      cases c.ready with
      | nil | cons => rfl
    | recheck | countOutstanding | checkStopped | sendFindIntersect | initialCheck
    | initialCount | initialSend | startLoop | setStopping | sendDone =>
      refine ⟨.busyStep, rfl, ?_⟩
      simp [Client.step, Client.busyStep, hplace, hheld, Client.opBusyStep]

theorem Inv.canMove_of_select (hloop : c.loop = .select) : CanMove limit c := by
  have hinv := h.loop
  rw [hloop] at hinv
  obtain ⟨-, -, htokens⟩ := hinv
  cases hdone : c.done with
  | true =>
    refine ⟨.loopStopped, rfl, ?_⟩
    simp [Client.step, Client.loopStep, hloop, hdone]
  | false =>
    rcases htokens with htokens | hfailing
    · cases hready : c.ready with
      | nil =>
        unfold tokens at htokens
        rw [hready, hidle] at htokens
        have hzero : unsignalled .idle = 0 := rfl
        exact canMove_of_unanswered hidle hdone (by rw [List.length_nil] at htokens; omega)
      | cons signal rest =>
        refine ⟨.loopSignal, rfl, ?_⟩
        simp only [Client.step, Client.loopStep, hloop, hready, Option.isSome_some]
    · rcases hfailing with hended | hretire
      · rw [hdone] at hended
        cases hended
      · rw [hidle] at hretire
        cases hretire

theorem Inv.canMove_of_ops {op : OpPc} {rest : List OpPc} (hfree : c.busy = .free)
    (hgone : c.LoopGone) (hops : c.ops = op :: rest) : CanMove limit c := by
  refine ⟨.opStep 0, rfl, ?_⟩
  have hheld := lifecycleHeld_of_idle hidle
  have hop := h.ops op (by rw [hops]; exact List.mem_cons_self)
  cases op with
  | reintersectCalled | closeReady => simp [Client.step, Client.opStep, hops, hheld]
  | closeLoopStop kind =>
    simp only [Client.step, Client.opStep, hops, hheld, List.getElem?_cons_zero, Option.bind_some]
    by_cases hzero : c.loopGeneration = 0
    · simp [hzero]
    · simp [hzero]
  | lockBusy kind generation => simp [Client.step, Client.opStep, hops, hfree]
  | awaitLoop kind generation =>
    have hexited : c.loop = .exited := by
      rcases hgone with hnone | hexited
      · -- No loop was ever started, so there is none to wait for.
        have hzero := h.generation.mp hnone
        have hpos := hop.1
        have hle := hop.2
        omega
      · exact hexited
    simp [Client.step, Client.opStep, hops, hexited]

end

/-- No reachable state is a deadlock. -/
theorem Inv.canMove : c.AtRest ∨ CanMove limit c := by
  by_cases hidle : c.handler = .idle
  · by_cases hfree : c.busy = .free
    · cases hloop : c.loop with
      | holding =>
        have hinv := h.loop
        rw [hloop, hfree] at hinv
        exact hinv.elim
      | select => exact .inr (h.canMove_of_select hidle hloop)
      | lockBusy =>
        refine .inr ⟨.loopLock, rfl, ?_⟩
        simp [Client.step, Client.loopStep, hloop, hfree]
      | none | exited =>
        have hgone : c.LoopGone := by unfold LoopGone; rw [hloop]; simp
        cases hops : c.ops with
        | nil => exact .inl ⟨hidle, hfree, hops, hgone⟩
        | cons op rest => exact .inr (h.canMove_of_ops hidle hfree hgone hops)
    · exact .inr (h.canMove_of_busy hidle hfree)
  · exact .inr (h.canMove_of_handler hidle)

theorem Inv.quiet_of_sendFindIntersect
    (hpc : c.busy = .op .sendFindIntersect) : c.unanswered = 0 ∧ c.ready = [] := by
  obtain ⟨-, hzero, hready⟩ := h.opBusyInv hpc
  obtain ⟨hunanswered, -⟩ := h.quiet (by rw [hzero, hpc]; rfl)
  exact ⟨hunanswered, hready⟩

end

/-- The client never blocks while it holds `lifecycleMutex`, and respects the limit
in force. -/
theorem client_never_blocks (pipelineLimit : Nat) (actions : List Action) (c : Client)
    (hrun : Transition.run (step (newClientLimit pipelineLimit)) {} actions = some c) :
    (∀ ready failed, c.handler = .signalling ready failed →
      c.ready.length < newClientLimit pipelineLimit) ∧
    (c.AtRest ∨ CanMove (newClientLimit pipelineLimit) c) ∧
    c.unanswered ≤ newClientLimit pipelineLimit ∧
    (c.busy = .op .sendFindIntersect → c.unanswered = 0 ∧ c.ready = []) := by
  have hinv := inv_of_run (newClientLimit_pos pipelineLimit) hrun
  refine ⟨fun _ _ hhandler => hinv.slot_free hhandler, hinv.canMove, ?_,
    hinv.quiet_of_sendFindIntersect⟩
  have hle := hinv.tokens_le
  unfold tokens at hle
  omega

/-- `Sync` finds its intersection and starts the loop, and the first reply is handled. -/
def firstBlock : List Action :=
  [.busyStep, .intersectReply true, .busyStep, .busyStep, .busyStep, .busyStep,
    .reply, .callbackReturns (.signal true false), .handlerStep]

/-- At the smallest limit, with the handler at its send. -/
theorem client_never_blocks_firstBlock :
    ∃ c, Transition.run (step (newClientLimit 1)) {} firstBlock = some c ∧
      c.handler = .signalling true false ∧ c.ready.length < newClientLimit 1 := by
  have hrun : Transition.run (step (newClientLimit 1)) {} firstBlock = some _ := rfl
  exact ⟨_, hrun, rfl, (client_never_blocks 1 firstBlock _ hrun).1 true false rfl⟩

/-- With a configured limit of zero the loop sends a second request at once. -/
theorem unanswered_exceeds_zero_limit :
    ∃ actions c, Transition.run (step (newClientLimit 0)) {} actions = some c ∧
      max 0 1 < c.unanswered := by
  refine ⟨firstBlock ++ [.handlerStep, .handlerStep, .loopSignal, .loopLock, .busyStep, .busyStep,
    .busyStep, .busyStep, .busyStep], _, rfl, by decide⟩

end Client

end Gouroboros.Protocol.ChainSync

import Gouroboros.Lib.Transition
import Gouroboros.Protocol.BlockFetch.Receive

/-!
# Block-fetch request pipelining keeps client and server in step

The application queues a list of requests, and the server answers each with
NoBlocks or a batch. No message is turned away and no transition fails, except in a
flush of deferred requests (`pipelining_in_step`, `flush_refuses_second`).
-/

namespace Gouroboros.Protocol.BlockFetch

variable {requests : List Message} {c c' : Client}

theorem inv_of_run {actions : List (Action Message)} (hrequests : ∀ m ∈ requests, IsRequest m)
    (hrun : Transition.run (System.step config) (System.start config requests) actions = some c) :
    Inv requests c :=
  Transition.run_invariant (fun _ _ _ h hstep => h.step hrequests hstep) (inv_start requests) hrun

/-! ## Transition requests -/

/-- A transition request is refused only inside a flush, after the first one of it. -/
theorem Inv.asks {m : Message} {reply request : Bool} (h : Inv requests c)
    (hrequests : ∀ m ∈ requests, IsRequest m) (hasks : c.Asks m reply request) :
    (applyTransition config c.shared m reply request).isSome ∨ c.FlushGoesOn := by
  have hplace := h.place
  cases hasks with
  | agency hpc hbacklog =>
    rw [hpc] at hplace
    have hm : IsRequest m := h.deferred m (by rw [hbacklog]; exact List.mem_cons_self)
    left
    rw [applyTransition_request hm hplace.2.1]
    rfl
  | flush hpc hbacklog =>
    rename_i held rest before
    rw [hpc] at hplace
    have hm : IsRequest m := h.deferred m (by rw [hbacklog]; exact List.mem_cons_self)
    rcases Nat.lt_or_eq_of_le hplace.1 with hless | hfirst
    · exact .inr ⟨held, before, hpc, hless⟩
    · left
      rw [applyTransition_request hm (hplace.2.1 hfirst)]
      rfl
  | write hpc =>
    have hm : IsRequest m := h.isRequest hrequests (by rw [hpc]; exact List.mem_cons_self)
    rw [hpc] at hplace
    left
    rw [applyTransition_request hm hplace.2.1]
    rfl
  | inbound hpc =>
    obtain ⟨shared, happly, -⟩ := h.recvTransition hpc
    left
    rw [happly]
    rfl

theorem Inv.not_denied {initial : State} {initialGeneration : Nat} {hadUnreserved : Bool}
    (h : Inv requests c)
    (hread : c.readPc = .snapshotted initial initialGeneration hadUnreserved) (t : MessageType) :
    reserveInboundAdmission config c.shared t initial initialGeneration hadUnreserved ≠ .denied := by
  rcases h.admission_answer hread t with ⟨-, hanswer⟩ | ⟨-, hanswer⟩
  · rw [hanswer]
    split
    · exact nofun
    · exact nofun
  · rw [hanswer]
    exact nofun

/-! ## Where a run ends -/

/-- No loop, nor the server or the application, can go on. -/
def Stuck (c : Client) : Prop := ∀ action, System.step config c action = none

section

variable (h : Inv requests c)
include h

/-- `sendLoop` stands still only while it waits for the server's turn to end, with nothing
in its batch, or when there is nothing left to send. -/
theorem Inv.send_stuck (hstuck : Stuck c) :
    (c.shared.currentState.isPeer ∧ c.sendLoop.payload = []) ∨
      (c.shared.currentState = .idle ∧ c.sendLoop.queuedStateTransitions = [] ∧
        c.sendLoop.pc = .readSendQueue false ∧ c.sendLoop.pipelinedOutbound = none ∧
        c.sendQueue = []) := by
  have hstill := hstuck
  simp only [Stuck, System.step, if_neg h.running] at hstill
  have hsendStep : c.sendStep config = none := hstill .sendStep
  have hsendToken : c.sendToken = none := hstill .sendToken
  have hsendBreak : c.sendLoop.pc ≠ .batched := by
    intro hpc
    simpa [hpc] using hstill .sendBreak
  have hplace := h.place
  unfold System.sendStep at hsendStep
  unfold System.sendToken at hsendToken
  generalize c.sendLoop.pc = pc at hsendStep hsendToken hsendBreak hplace ⊢
  cases pc with
  | top | resolve | flush | postFlush | agency | recheck | write | sendSegments => cases hsendStep
  | batched => exact absurd rfl hsendBreak
  | drainToken m =>
    dsimp only at hsendStep
    rw [if_pos hplace.1] at hsendStep
    cases hsendStep
  | awaitToken | selectPipelined =>
    by_cases hpeer : c.shared.currentState.isPeer
    · first
        | exact .inl ⟨hpeer, hplace.2⟩
        | exact .inl ⟨hpeer, hplace.2.1⟩
    · rw [if_pos (hplace.1.mpr (h.idle_of_not_isPeer hpeer))] at hsendToken
      cases hsendToken
  | readSendQueue queueTransition =>
    dsimp only at hsendStep
    unfold System.sendRead at hsendStep
    split at hsendStep
    · cases hsendStep
    · cases hsendStep
    · rename_i hout hqueue
      cases queueTransition with
      | true => exact absurd hqueue (hplace.2 hout)
      | false => exact .inr ⟨hplace.2.1, hplace.2.2, rfl, hout, hqueue⟩

theorem Inv.recv_stuck (hstuck : Stuck c) :
    c.recvPc = .idle ∨
      (∃ m reserved, c.recvPc = .waiting m reserved) ∧ ¬ c.shared.currentState.isPeer := by
  have hrecvStep : c.recvStep config = none := by
    simpa only [System.step, if_neg h.running] using hstuck .recvStep
  unfold System.recvStep at hrecvStep
  generalize c.recvPc = pc at hrecvStep ⊢
  cases pc with
  | idle => exact .inl rfl
  | waiting m reserved =>
    refine .inr ⟨⟨m, reserved, rfl⟩, fun hpeer => ?_⟩
    dsimp only at hrecvStep
    rw [if_pos (peerHasAgency_iff.mpr hpeer)] at hrecvStep
    cases hrecvStep
  | transition m reserved =>
    dsimp only at hrecvStep
    split at hrecvStep <;> cases hrecvStep
  | handle m => cases hrecvStep

theorem Inv.receive_stuck (hstuck : Stuck c)
    (hpeer : c.shared.currentState.isPeer) : admitted c = [] ∧ c.toClient = [] := by
  have hstill := hstuck
  simp only [Stuck, System.step, if_neg h.running] at hstill
  have hrecvTake : c.recvTake = none := hstill .recvTake
  have hpush : c.push = none := hstill .push
  have hsnapshot : c.snapshot = none := hstill .snapshot
  have hadmission : c.admission config = none := hstill .admission
  have hrecvPc : c.recvPc = .idle := (h.recv_stuck hstuck).resolve_right fun hidle => hidle.2 hpeer
  have hrecvQueue : c.recvQueue = [] := by
    unfold System.recvTake at hrecvTake
    rw [hrecvPc] at hrecvTake
    cases hqueue : c.recvQueue with
    | nil => rfl
    | cons entry rest =>
      rw [hqueue] at hrecvTake
      cases hrecvTake
  have hinRead : inRead c.readPc = [] := by
    unfold System.push at hpush
    cases hread : c.readPc with
    | idle | snapshotted => rfl
    | admitted m reserved =>
      rw [hread] at hpush
      cases hpush
  have hempty : admitted c = [] := by
    rw [admitted, hrecvPc, hrecvQueue, hinRead]
    rfl
  refine ⟨hempty, ?_⟩
  have hreserved := h.reserved
  rw [hempty] at hreserved
  cases htoClient : c.toClient with
  | nil => rfl
  | cons m rest =>
    cases hread : c.readPc with
    | idle =>
      -- No reply is reserved, so the snapshot is taken.
      unfold System.snapshot at hsnapshot
      rw [hread, htoClient] at hsnapshot
      dsimp only [currentInboundSnapshot] at hsnapshot
      rw [hreserved.1] at hsnapshot
      simp at hsnapshot
    | snapshotted initial initialGeneration hadUnreserved =>
      have hfree : ¬ c.shared.peerAgencyReserved := by
        rcases hreserved.2 with ⟨-, -, hfree⟩ | ⟨-, hiff, -⟩
        · rw [hfree]
          simp
        · exact fun hagency => hiff.mp hagency rfl
      unfold System.admission at hadmission
      rw [hread, htoClient] at hadmission
      dsimp only at hadmission
      rcases h.admission_answer hread (config.messageType m) with ⟨-, hanswer⟩ | ⟨-, hanswer⟩
      · rw [hanswer, if_neg hfree] at hadmission
        cases hadmission
      · rw [hanswer] at hadmission
        cases hadmission
    | admitted m reserved =>
      rw [hread] at hinRead
      cases hinRead

theorem Inv.server_stuck (hstuck : Stuck c) : c.server = .idle ∧ c.toServer = [] := by
  have hstill := hstuck
  simp only [Stuck, System.step, if_neg h.running] at hstill
  have hserverReceive : c.serverReceive config = none := hstill .serverReceive
  have hserverSend : ∀ m, c.serverSend config m = none := fun m => hstill (.serverSend m)
  have hidle : c.server = .idle := by
    rcases h.link.server_core (h.reserved.2.imp (·.1) (·.1)) with hidle | hpeer
    · exact hidle
    · cases hserver : c.server with
      | idle => rfl
      | done =>
        rw [hserver] at hpeer
        cases hpeer
      | busy =>
        have hsend := hserverSend .noBlocks
        unfold System.serverSend at hsend
        rw [hserver] at hsend
        cases hsend
      | streaming =>
        have hsend := hserverSend .batchDone
        unfold System.serverSend at hsend
        rw [hserver] at hsend
        cases hsend
  refine ⟨hidle, ?_⟩
  cases htoServer : c.toServer with
  | nil => rfl
  | cons m rest =>
    have hm : IsRequest m := h.wire m (by rw [htoServer]; exact List.mem_cons_self)
    unfold System.serverReceive at hserverReceive
    rw [htoServer, hidle] at hserverReceive
    dsimp only at hserverReceive
    rw [if_pos (holder_eq_ours.mpr rfl), nextState_idle_request hm] at hserverReceive
    cases hserverReceive

theorem Inv.complete (hstuck : Stuck c) :
    c.written = requests ∧ c.handled = c.sent ∧ c.sendLoop.queuedStateTransitions = [] ∧
      c.shared.currentState = .idle ∧ c.server = .idle := by
  obtain ⟨hserver, htoServer⟩ := h.server_stuck hstuck
  have hlink := h.link
  rw [hserver, unread, htoServer] at hlink
  rcases h.send_stuck hstuck with ⟨hpeer, hpayload⟩ | ⟨hidle, hbacklog, hpc, hout, hqueue⟩
  · -- The client waits for a server that has nothing to answer.
    obtain ⟨hadmitted, htoClient⟩ := h.receive_stuck hstuck hpeer
    rw [hadmitted, htoClient, hpayload] at hlink
    rcases hlink with ⟨hcount, -⟩ | ⟨rest, -, hreplay⟩
    · simp at hcount
    · rw [(hreplay.peer_nil hpeer).2] at hpeer
      cases hpeer
  · rw [hidle, hbacklog] at hlink
    obtain ⟨hunread, hreplies, -⟩ := hlink.run_unsent
    have happlication : c.application = [] := by
      have henqueue := hstuck .enqueue
      simp only [System.step, if_neg h.running] at henqueue
      split at henqueue
      · assumption
      · cases henqueue
    have hpayload : c.sendLoop.payload = [] := List.length_eq_zero_iff.mp hunread
    have hhistory := h.history
    have horder := h.order
    rw [List.append_assoc, hreplies, List.append_nil] at hhistory
    rw [hpayload, hpc, hout, hqueue, happlication] at horder
    refine ⟨by simpa [inHand] using horder, ?_, hbacklog, hidle, hserver⟩
    rcases h.recv_stuck hstuck with hrecvPc | ⟨⟨m, reserved, hrecvPc⟩, -⟩
    · rw [hrecvPc] at hhistory
      simpa [handling] using hhistory
    · rw [hrecvPc] at hhistory
      simpa [handling] using hhistory

end

/-- In every run the server's messages are admitted, the transition requests succeed
outside a flush that goes on, the client handles what the server sent in that order
and sends what the application queued in that order; a run that can go no further has
done all of it, and both ends are idle. -/
theorem pipelining_in_step {actions : List (Action Message)}
    (hrequests : ∀ m ∈ requests, IsRequest m)
    (hrun : Transition.run (System.step config) (System.start config requests) actions = some c) :
    (∀ initial generation hadUnreserved t, c.readPc = .snapshotted initial generation hadUnreserved →
      reserveInboundAdmission config c.shared t initial generation hadUnreserved ≠ .denied) ∧
    (∀ m reply request, c.Asks m reply request →
      (applyTransition config c.shared m reply request).isSome = true ∨ c.FlushGoesOn) ∧
    c.failure = none ∧
    c.handled ++ handling c.recvPc ++ (admitted c).map Prod.fst ++ c.toClient = c.sent ∧
    c.written ++ c.sendLoop.payload ++ inHand c.sendLoop.pc ++ c.sendLoop.pipelinedOutbound.toList ++
      c.sendQueue ++ c.application = requests ∧
    (Stuck c → c.written = requests ∧ c.handled = c.sent ∧
      c.sendLoop.queuedStateTransitions = [] ∧ c.shared.currentState = .idle ∧ c.server = .idle) := by
  have h := inv_of_run hrequests hrun
  exact ⟨fun _ _ _ t hread => h.not_denied hread t, fun _ _ _ hasks => h.asks hrequests hasks,
    h.noFailure, h.history, h.order, h.complete⟩

/-- Two requests go out in one batch and the first reply is handled. -/
theorem pipelining_in_step_twoRequests :
    ∃ c, Transition.run (System.step config)
        (System.start config [.requestRange 1, .requestRange 2])
        [.enqueue, .enqueue, .sendStep, .sendToken, .sendStep, .sendStep, .sendStep, .sendMore,
          .sendStep, .sendStep, .sendStep, .sendBreak, .sendStep, .serverReceive,
          .serverSend .startBatch, .snapshot, .admission, .push, .recvTake, .recvStep, .recvStep,
          .recvStep] = some c ∧
      c.written = [.requestRange 1, .requestRange 2] ∧ c.handled = [.startBatch] ∧
      c.failure = none := by
  have hrequests : ∀ m ∈ [Message.requestRange 1, .requestRange 2], IsRequest m := by
    intro m hm
    rcases List.mem_pair.mp hm with rfl | rfl
    · exact ⟨1, rfl⟩
    · exact ⟨2, rfl⟩
  refine ⟨?_, ?hrun, ?_, ?_, (pipelining_in_step hrequests ?hrun).2.2.1⟩
  case hrun => rfl
  · rfl
  · rfl

/-- The client has two deferred requests and takes a third from its queue when the reply to
the one before them has made it idle. The flush runs the first deferred request, and
asks for the second while the server has its turn again. -/
theorem flush_refuses_second :
    ∃ c m, Transition.run (System.step config)
        (System.start config [.requestRange 1, .requestRange 2, .requestRange 3, .requestRange 4])
        [.enqueue, .sendStep, .sendToken, .sendStep, .sendStep, .sendStep, .sendBreak, .sendStep,
          .enqueue, .enqueue, .sendStep, .sendDequeue, .sendStep, .sendStep, .sendStep, .sendMore,
          .sendStep, .sendStep, .sendStep, .sendBreak, .sendStep, .sendStep, .serverReceive,
          .serverSend .noBlocks, .snapshot, .admission, .push, .recvTake, .recvStep, .recvStep,
          .enqueue, .sendDequeue, .sendStep, .sendStep, .sendStep] = some c ∧
      c.Asks m false true ∧ applyTransition config c.shared m false true = none := by
  refine ⟨_, .requestRange 3, rfl, ?_, ?_⟩
  · exact .flush rfl rfl
  · exact applyTransition_request_peer ⟨3, rfl⟩ rfl true

end Gouroboros.Protocol.BlockFetch

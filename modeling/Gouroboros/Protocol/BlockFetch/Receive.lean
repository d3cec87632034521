import Gouroboros.Protocol.BlockFetch.Invariant

/-!
# Block-fetch request pipelining: the receiving side

The steps of `readLoop`, `recvLoop`, the server and the application keep the
invariant, and so does every step (`Inv.step`).
-/

namespace Gouroboros.Protocol.BlockFetch

variable {requests : List Message} {c c' : Client}

/-! ## The receiving side -/

variable {ready reserved : Bool}

theorem Place.reply {state s' : State} {queue : List Message} {loop : SendLoop Message}
    {pc : SendPc Message} (h : Place state ready queue loop pc) (hpeer : state.isPeer) :
    Place s' (ready || decide (s' = .idle)) queue loop pc := by
  have hne : state ≠ .idle := by
    intro hidle
    rw [hidle] at hpeer
    cases hpeer
  have htoken : (ready ↔ state = .idle) →
      ((ready || decide (s' = .idle)) = true ↔ s' = .idle) := by
    intro hiff
    have hready : ready = false := by
      rw [← Bool.not_eq_true, hiff]
      exact hne
    rw [hready, Bool.false_or, decide_eq_true_iff]
  cases pc with
  | top | awaitToken | selectPipelined | resolve | recheck | batched => exact ⟨htoken h.1, h.2⟩
  | sendSegments => exact htoken h
  | drainToken | agency => exact absurd h.2.1 hne
  | flush m before =>
    obtain ⟨hle, hfirst, hrest⟩ := h
    exact ⟨hle, fun heq => absurd (hfirst heq) hne, hrest⟩
  | postFlush => exact h
  | readSendQueue queueTransition | write m queueTransition =>
    cases queueTransition with
    | true => exact ⟨htoken h.1, h.2⟩
    | false => exact absurd h.2.1 hne

section

variable {state s' : State} {replies : Nat} {agencyReserved : Bool} {m : Message} {reserved : Bool}
  {rest : List (Message × Bool)}

theorem Reserved.tail (h : Reserved state replies agencyReserved ((m, reserved) :: rest)) :
    AllReserved rest ∧ (if reserved then replies - 1 else replies) = rest.countP (·.2) := by
  obtain ⟨hcount, hcases⟩ := h
  rw [List.countP_cons] at hcount
  constructor
  · rcases hcases with ⟨-, hall, -⟩ | ⟨-, -, hall | ⟨m', hone⟩⟩
    · exact fun entry hentry => hall entry (List.mem_cons_of_mem _ hentry)
    · exact fun entry hentry => hall entry (List.mem_cons_of_mem _ hentry)
    · injection hone with _ hnil
      rw [hnil]
      intro entry hentry
      cases hentry
  · cases reserved with
    | true =>
      rw [if_pos rfl] at hcount ⊢
      omega
    | false => simpa using hcount

theorem Reserved.reply (h : Reserved state replies agencyReserved ((m, reserved) :: rest))
    (hs' : s' = .idle ∨ s'.isPeer) :
    Reserved s' (if reserved then replies - 1 else replies)
      (s'.isPeer && decide (0 < if reserved then replies - 1 else replies)) rest := by
  obtain ⟨hall, hcount⟩ := h.tail
  rw [hcount]
  refine ⟨rfl, ?_⟩
  rcases hs' with hidle | hpeer
  · rw [hidle]
    exact .inl ⟨rfl, hall, rfl⟩
  · refine .inr ⟨hpeer, ?_, .inl hall⟩
    rw [hpeer, Bool.true_and, decide_eq_true_iff]
    exact countP_pos_iff hall

theorem Snapshotted.reply {generation pending : Nat} {toClient : List Message}
    {pc : ReadPc State Message}
    (h : Snapshotted state generation pending replies ((m, reserved) :: rest) toClient pc)
    (hcount : replies = ((m, reserved) :: rest).countP (·.2))
    (hnext : nextState config state m = some s') :
    Snapshotted s' (generation + 1) pending (if reserved then replies - 1 else replies) rest
      toClient pc := by
  cases pc with
  | idle | admitted => trivial
  | snapshotted initial initialGeneration hadUnreserved =>
    cases hadUnreserved with
    | true =>
      obtain ⟨hne, hle, hcases⟩ := h
      have hless : (if reserved then replies - 1 else replies) < pending := by
        rcases hcases with hlt | ⟨-, hall⟩
        · split <;> omega
        · -- The message took a reply's place, which is free again.
          have hreserved : reserved := hall _ List.mem_cons_self
          rw [hreserved, List.countP_cons_of_pos (by rfl)] at hcount
          rw [hreserved, if_pos rfl]
          omega
      exact ⟨hne, Nat.le_of_lt hless, .inl hless⟩
    | false =>
      obtain ⟨hne, hinitial, ⟨hgeneration, -, hnil | ⟨m', mid, hone, hmid, hpeer⟩⟩ | ⟨-, -, hnil⟩⟩ := h
      · cases hnil
      · injection hone with heq hnil
        injection heq with hm _
        rw [← hm, hnext] at hmid
        injection hmid with hmid
        rw [hmid]
        exact ⟨hne, hinitial, .inr ⟨by omega, hpeer, hnil⟩⟩
      · cases hnil

end

theorem Inv.of_receive {readPc : ReadPc State Message} {recvPc : RecvPc Message}
    {recvQueue : List (Message × Bool)} {handled : List Message} (h : Inv requests c)
    (hadmitted : inReceive recvPc ++ recvQueue ++ inRead readPc = admitted c)
    (hhandled : handled ++ handling recvPc = c.handled ++ handling c.recvPc)
    (htransition : ∀ m reserved, recvPc = .transition m reserved →
      c.shared.currentState.isPeer)
    (hsnapshotted : Snapshotted c.shared.currentState c.shared.currentStateGeneration
      c.shared.pendingPipelinedRequests c.shared.pendingPipelinedReplies (admitted c) c.toClient
      readPc) :
    Inv requests { c with
      readPc := readPc, recvPc := recvPc, recvQueue := recvQueue, handled := handled } := by
  have hsame : admitted { c with
      readPc := readPc, recvPc := recvPc, recvQueue := recvQueue, handled := handled } =
      admitted c := hadmitted
  refine { h with
    history := ?_, link := ?_, reserved := ?_, transition := htransition, snapshotted := ?_ }
  · rw [hsame]
    rw [hhandled]
    exact h.history
  · rw [hsame]
    exact h.link
  · rw [hsame]
    exact h.reserved
  · rw [hsame]
    exact hsnapshotted

theorem Inv.push (h : Inv requests c) (hstep : c.push = some c') : Inv requests c' := by
  unfold System.push at hstep
  split at hstep
  · rename_i m reserved hread
    cases hstep
    refine h.of_receive ?_ rfl h.transition trivial
    rw [admitted, hread]
    simp [inRead]
  · cases hstep

theorem Inv.recvTake (h : Inv requests c) (hstep : c.recvTake = some c') : Inv requests c' := by
  unfold System.recvTake at hstep
  split at hstep
  · rename_i m reserved rest hpc hqueue
    cases hstep
    refine h.of_receive ?_ ?_ nofun h.snapshotted
    · rw [admitted, hpc, hqueue]
      rfl
    · rw [hpc]
      rfl
  · cases hstep

variable {m : Message}

section

variable (h : Inv requests c)
include h

theorem Inv.recvTransition (hpc : c.recvPc = .transition m reserved) :
    ∃ shared, applyTransition config c.shared m reserved false = some shared ∧
      Inv requests { c with shared := shared, recvPc := .handle m } := by
  have hpeer := h.transition m reserved hpc
  have hadmitted : admitted c = (m, reserved) :: (c.recvQueue ++ inRead c.readPc) := by
    rw [admitted, hpc]
    rfl
  have hhistory := h.history
  have hlink := h.link
  have hreserved := h.reserved
  have hsnapshotted := h.snapshotted
  rw [hadmitted] at hhistory hlink hreserved hsnapshotted
  obtain ⟨s', hnext, hlink⟩ := hlink.next hpeer
  refine ⟨_, applyTransition_reply reserved hpeer hnext h.types, ?_⟩
  refine { h with
    place := h.place.reply hpeer, history := ?_, link := hlink
    reserved := hreserved.reply (nextState_reply hpeer hnext)
    transition := nofun
    snapshotted := hsnapshotted.reply hreserved.1 hnext }
  rw [hpc] at hhistory
  simpa [handling, admitted, inReceive] using hhistory

theorem Inv.recvStep (hstep : c.recvStep config = some c') : Inv requests c' := by
  unfold System.recvStep at hstep
  generalize hpc : c.recvPc = pc at hstep
  cases pc with
  | idle => cases hstep
  | waiting m reserved =>
    dsimp only at hstep
    split at hstep
    · rename_i hpeer
      cases hstep
      refine h.of_receive ?_ ?_ (fun _ _ _ => peerHasAgency_iff.mp hpeer) h.snapshotted
      · rw [admitted, hpc]
        rfl
      · rw [hpc]
        rfl
    · cases hstep
  | transition m reserved =>
    obtain ⟨shared, happly, hinv⟩ := h.recvTransition hpc
    dsimp only at hstep
    rw [happly] at hstep
    cases hstep
    exact hinv
  | handle m =>
    cases hstep
    refine h.of_receive ?_ ?_ nofun h.snapshotted
    · rw [admitted, hpc]
      rfl
    · rw [hpc]
      simp [handling]

/-- `readLoop` takes its snapshot. Without a request that lacks a reply the client cannot
be idle, since a message is on its way. -/
theorem Inv.snapshot (hstep : c.snapshot = some c') : Inv requests c' := by
  unfold System.snapshot at hstep
  split at hstep
  · rename_i m rest hread htoClient
    dsimp only [currentInboundSnapshot] at hstep
    split at hstep
    · rename_i htaken
      cases hstep
      refine h.of_receive (by rw [admitted, hread]; rfl) rfl h.transition ?_
      have hne : c.toClient ≠ [] := by
        rw [htoClient]
        exact List.cons_ne_nil _ _
      by_cases hlt : c.shared.pendingPipelinedReplies < c.shared.pendingPipelinedRequests
      · rw [decide_eq_true hlt]
        exact ⟨hne, Nat.le_of_lt hlt, .inl hlt⟩
      · have hzero : c.shared.pendingPipelinedReplies = 0 := by simpa [hlt] using htaken
        have hbacklog : c.sendLoop.queuedStateTransitions.length = 0 := by
          rw [← h.pending]
          omega
        have hlink := h.link
        have hreserved := h.reserved
        rw [hbacklog, htoClient] at hlink
        rw [decide_eq_false hlt]
        obtain ⟨hcount, ⟨hidle, -, -⟩ | ⟨hpeer, -, hqueue⟩⟩ := hreserved
        · rw [hidle] at hlink
          cases hadmitted : admitted c with
          | nil | cons =>
            rw [hadmitted] at hlink
            exact absurd hlink.backlog_pos (Nat.lt_irrefl 0)
        · refine ⟨hne, hpeer, .inl ⟨rfl, rfl, ?_⟩⟩
          rcases hqueue with hall | ⟨m', hone⟩
          · left
            by_contra hcontra
            have hpos := (countP_pos_iff hall).mpr hcontra
            omega
          · right
            rw [hone] at hlink
            obtain ⟨mid, hnext, -⟩ := hlink.next hpeer
            exact ⟨m', mid, hone, hnext, hlink.next_isPeer hpeer hnext⟩
    · cases hstep
  · cases hstep

/-- What `reserveInboundAdmission` answers: it waits for the message before, or admits the
next one, in the server's turn or against a pipelined request. -/
theorem Inv.admission_answer {initial : State} {initialGeneration : Nat} {hadUnreserved : Bool}
    (hread : c.readPc = .snapshotted initial initialGeneration hadUnreserved) (t : MessageType) :
    (c.shared.currentState.isPeer ∧
        reserveInboundAdmission config c.shared t initial initialGeneration hadUnreserved =
          if c.shared.peerAgencyReserved then .wait
          else .granted false { c.shared with peerAgencyReserved := true }) ∨
      (c.shared.currentState = .idle ∧
        reserveInboundAdmission config c.shared t initial initialGeneration hadUnreserved =
          .granted true { c.shared with
            pendingPipelinedReplies := c.shared.pendingPipelinedReplies + 1 }) := by
  have hsnapshotted := h.snapshotted
  rw [hread] at hsnapshotted
  by_cases hpeer : c.shared.currentState.isPeer
  · refine .inl ⟨hpeer, reserveInboundAdmission_peer (holder_eq_peer.mpr hpeer) ?_⟩
    cases hadUnreserved with
    | true => exact .inr (.inr rfl)
    | false =>
      obtain ⟨-, hinitial, ⟨hsame, -⟩ | ⟨hnext, -⟩⟩ := hsnapshotted
      · exact .inl hsame
      · exact .inr (.inl ⟨hnext, holder_eq_peer.mpr hinitial⟩)
  · have hidle := h.idle_of_not_isPeer hpeer
    have htype : t ∉ (config.stateMap c.shared.currentState).pipelinedMessageTypes := by
      rw [hidle]
      exact List.not_mem_nil
    refine .inr ⟨hidle, ?_⟩
    cases hadUnreserved with
    | true =>
      obtain ⟨-, -, hlt | ⟨hcontra, -⟩⟩ := hsnapshotted
      · exact reserveInboundAdmission_ours (holder_eq_ours.mpr hidle) htype hlt
      · exact absurd hcontra hpeer
    | false =>
      obtain ⟨-, hinitial, ⟨-, hstate, -⟩ | ⟨-, hcontra, -⟩⟩ := hsnapshotted
      · rw [← hstate] at hinitial
        exact absurd hinitial hpeer
      · exact absurd hcontra hpeer

theorem Inv.of_admission {rest : List Message} {agencyReserved : Bool} {replies : Nat}
    (hread : inRead c.readPc = []) (htoClient : c.toClient = m :: rest)
    (hreserved : Reserved c.shared.currentState replies agencyReserved (admitted c ++ [(m, reserved)])) :
    Inv requests { c with
      shared := { c.shared with
        pendingPipelinedReplies := replies, peerAgencyReserved := agencyReserved }
      readPc := .admitted m reserved, toClient := rest } := by
  have hmoved : inReceive c.recvPc ++ c.recvQueue ++ inRead (.admitted m reserved) =
      admitted c ++ [(m, reserved)] := by
    rw [admitted, hread, List.append_nil]
    rfl
  have hreplies : (admitted c ++ [(m, reserved)]).map Prod.fst ++ rest =
      (admitted c).map Prod.fst ++ c.toClient := by
    rw [htoClient]
    simp
  refine { h with history := ?_, link := ?_, reserved := ?_, snapshotted := trivial }
  · have hhistory := h.history
    rw [List.append_assoc, ← hreplies, ← hmoved, ← List.append_assoc] at hhistory
    exact hhistory
  · have hlink := h.link
    rw [← hreplies, ← hmoved] at hlink
    exact hlink
  · rw [← hmoved] at hreserved
    exact hreserved

theorem Inv.admission (hstep : c.admission config = some c') : Inv requests c' := by
  unfold System.admission at hstep
  split at hstep
  · rename_i initial initialGeneration hadUnreserved m rest hread htoClient
    have hinRead : inRead c.readPc = [] := by
      rw [hread]
      rfl
    obtain ⟨hcount, hreserved⟩ := h.reserved
    rcases h.admission_answer hread (config.messageType m) with ⟨hpeer, hanswer⟩ | ⟨hidle, hanswer⟩
    · rw [hanswer] at hstep
      by_cases hagency : c.shared.peerAgencyReserved
      · rw [if_pos hagency] at hstep
        cases hstep
      · rw [if_neg hagency] at hstep
        cases hstep
        refine h.of_admission hinRead htoClient ?_
        -- Nothing is admitted yet, so this is the one message of the server's turn.
        have hempty : admitted c = [] := by
          rcases hreserved with ⟨hidle, -⟩ | ⟨-, hiff, -⟩
          · rw [hidle] at hpeer
            cases hpeer
          · by_contra hne
            exact hagency (hiff.mpr hne)
        rw [hempty] at hcount ⊢
        exact ⟨hcount, .inr ⟨hpeer, by simp, .inr ⟨m, rfl⟩⟩⟩
    · rw [hanswer] at hstep
      cases hstep
      refine h.of_admission hinRead htoClient ?_
      rcases hreserved with ⟨-, hall, hfree⟩ | ⟨hpeer, -⟩
      · refine ⟨?_, .inl ⟨hidle, ?_, hfree⟩⟩
        · rw [List.countP_append, ← hcount]
          rfl
        · intro entry hentry
          rcases List.mem_append.mp hentry with hold | hnew
          · exact hall entry hold
          · rw [List.mem_singleton.mp hnew]
      · rw [hidle] at hpeer
        cases hpeer
  · cases hstep

end

/-! ## The server and the application -/

theorem Snapshotted.send {state : State} {generation pending replies : Nat}
    {queue : List (Message × Bool)} {toClient : List Message} {pc : ReadPc State Message}
    (h : Snapshotted state generation pending replies queue toClient pc) :
    Snapshotted state generation pending replies queue (toClient ++ [m]) pc := by
  have hne : toClient ++ [m] ≠ [] := List.append_ne_nil_of_right_ne_nil _ (List.cons_ne_nil _ _)
  cases pc with
  | idle | admitted => trivial
  | snapshotted initial initialGeneration hadUnreserved =>
    cases hadUnreserved with
    | true | false => exact ⟨hne, h.2⟩

theorem Inv.serverReceive (h : Inv requests c) (hstep : c.serverReceive config = some c') :
    Inv requests c' := by
  unfold System.serverReceive at hstep
  split at hstep
  · cases hstep
  · rename_i m rest htoServer
    split at hstep
    · rename_i hours
      have hidle := holder_eq_ours.mp hours
      have hm : IsRequest m := h.wire m (by rw [htoServer]; exact List.mem_cons_self)
      have hlink := h.link
      rw [hidle, nextState_idle_request hm] at hstep
      cases hstep
      refine { h with wire := fun m' hm' => ?_, link := ?_ }
      · exact h.wire m' (by rw [htoServer]; exact List.mem_cons_of_mem _ hm')
      · rw [unread, htoServer, List.length_cons, ← Nat.add_assoc, hidle] at hlink
        exact hlink.receive
    · cases hstep

theorem Inv.serverSend (h : Inv requests c)
    (hstep : c.serverSend config m = some c') : Inv requests c' := by
  unfold System.serverSend at hstep
  split at hstep
  · rename_i hholder
    have hpeer := holder_eq_peer.mp hholder
    obtain ⟨server, hnext, hstep⟩ := Option.map_eq_some_iff.mp hstep
    rw [← hstep]
    have hlink := h.link.send hpeer hnext
    refine { h with history := ?_, link := ?_, snapshotted := h.snapshotted.send }
    · rw [← h.history]
      simp only [List.append_assoc]
      rfl
    · rw [List.append_assoc] at hlink
      exact hlink
  · cases hstep

theorem Place.enqueue {state : State} {queue : List Message} {loop : SendLoop Message}
    {pc : SendPc Message} (h : Place state ready queue loop pc) :
    Place state ready (queue ++ [m]) loop pc := by
  cases pc with
  | readSendQueue queueTransition =>
    cases queueTransition with
    | true => exact ⟨h.1, fun _ => List.append_ne_nil_of_right_ne_nil _ (List.cons_ne_nil _ _)⟩
    | false => exact h
  | write m queueTransition => cases queueTransition <;> exact h
  | _ => exact h

theorem Inv.step {action : Action Message} (h : Inv requests c)
    (hrequests : ∀ m ∈ requests, IsRequest m) (hstep : System.step config c action = some c') :
    Inv requests c' := by
  unfold System.step at hstep
  rw [if_neg h.running] at hstep
  cases action with
  | enqueue =>
    dsimp only at hstep
    split at hstep
    · cases hstep
    · rename_i m rest happ
      cases hstep
      have horder := h.order
      refine { h with order := ?_, place := h.place.enqueue }
      rw [happ] at horder
      simpa using horder
  | sendStep => exact h.sendStep hrequests hstep
  | sendToken => exact h.sendToken hstep
  | sendDequeue => exact h.sendDequeue hstep
  | sendMore =>
    dsimp only at hstep
    split at hstep
    · rename_i hpc
      have hplace := h.place
      rw [hpc] at hplace
      split at hstep
      · rename_i hqueue
        cases hstep
        exact h.of_send (by rw [hpc]; rfl) ⟨hplace.1, fun _ => hqueue.2⟩
      · cases hstep
    · cases hstep
  | sendBreak =>
    dsimp only at hstep
    split at hstep
    · rename_i hpc
      have hplace := h.place
      rw [hpc] at hplace
      cases hstep
      exact h.of_send (by rw [hpc]; rfl) hplace.1
    · cases hstep
  | snapshot => exact h.snapshot hstep
  | admission => exact h.admission hstep
  | push => exact h.push hstep
  | recvTake => exact h.recvTake hstep
  | recvStep => exact h.recvStep hstep
  | serverReceive => exact h.serverReceive hstep
  | serverSend m => exact h.serverSend hstep

end Gouroboros.Protocol.BlockFetch

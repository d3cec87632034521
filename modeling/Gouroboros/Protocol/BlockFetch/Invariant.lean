import Gouroboros.Protocol.BlockFetch.StateMap

/-!
# The invariant of block-fetch request pipelining

What holds between the loops of a block-fetch client with request pipelining and
a server that follows the state map, and that every step of `sendLoop` keeps it.
-/

namespace Gouroboros.Protocol.BlockFetch

/-! ## The invariant -/

/-- The message that `sendLoop` has taken and not yet put into its batch. -/
def inHand : SendPc Message → List Message
  | .resolve m | .drainToken m | .flush m _ | .postFlush m _ | .recheck m | .write m _ => [m]
  | _ => []

/-- The message whose transition has run and whose handler has not. -/
def handling : RecvPc Message → List Message
  | .handle m => [m]
  | _ => []

def inReceive : RecvPc Message → List (Message × Bool)
  | .waiting m reserved | .transition m reserved => [(m, reserved)]
  | _ => []

def inRead : ReadPc State Message → List (Message × Bool)
  | .admitted m reserved => [(m, reserved)]
  | _ => []

/-- The messages that have been admitted and whose transitions have not run, with whether
each took the place of a pipelined reply. -/
def admitted (c : Client) : List (Message × Bool) :=
  inReceive c.recvPc ++ c.recvQueue ++ inRead c.readPc

/-- The requests that have gone into a batch and that the server has not taken. -/
def unread (c : Client) : Nat := c.sendLoop.payload.length + c.toServer.length

/-- Where `sendLoop` relies on what. The token is there exactly in the idle state, unless
the loop has taken it, in which case nothing else can leave that state, or is in a
flush, which may leave a token behind. -/
def Place (state : State) (ready : Bool) (queue : List Message) (loop : SendLoop Message) :
    SendPc Message → Prop
  | .top | .awaitToken => (ready = true ↔ state = .idle) ∧ loop.payload = []
  | .selectPipelined | .resolve _ =>
    (ready = true ↔ state = .idle) ∧ loop.payload = [] ∧ loop.pipelinedOutbound = none
  | .drainToken _ =>
    ready = true ∧ state = .idle ∧ loop.payload = [] ∧ loop.pipelinedOutbound = none
  | .flush _ before =>
    loop.queuedStateTransitions.length ≤ before ∧
      (loop.queuedStateTransitions.length = before → state = .idle) ∧
      loop.payload = [] ∧ loop.pipelinedOutbound = none
  | .postFlush _ before =>
    (loop.queuedStateTransitions = [] ∨ loop.queuedStateTransitions.length < before) ∧
      loop.payload = [] ∧ loop.pipelinedOutbound = none
  | .agency => ready = false ∧ state = .idle ∧ loop.payload = []
  | .readSendQueue true =>
    (ready = true ↔ state = .idle) ∧ (loop.pipelinedOutbound = none → queue ≠ [])
  | .readSendQueue false => ready = false ∧ state = .idle ∧ loop.queuedStateTransitions = []
  | .recheck _ | .write _ true | .batched =>
    (ready = true ↔ state = .idle) ∧ loop.pipelinedOutbound = none
  | .write _ false =>
    ready = false ∧ state = .idle ∧ loop.queuedStateTransitions = [] ∧
      loop.pipelinedOutbound = none
  | .sendSegments => ready = true ↔ state = .idle

/-- Every message in `queue` took the place of a pipelined reply. -/
def AllReserved (queue : List (Message × Bool)) : Prop := ∀ entry ∈ queue, entry.2 = true

/-- What has been admitted in the idle state is charged to pipelined requests. While the
server has agency either that is still all there is, or one message of its turn. -/
def Reserved (state : State) (replies : Nat) (agencyReserved : Bool)
    (queue : List (Message × Bool)) : Prop :=
  replies = queue.countP (·.2) ∧
    ((state = .idle ∧ AllReserved queue ∧ agencyReserved = false) ∨
      (state.isPeer = true ∧ (agencyReserved = true ↔ queue ≠ []) ∧
        (AllReserved queue ∨ ∃ m, queue = [(m, false)])))

/-- What `readLoop` knows of the next message since it took its snapshot. With a request
that lacked a reply there is one for this message whenever the client is idle. Without
one, the message belongs to the server's turn at the time, perhaps behind one other. -/
def Snapshotted (state : State) (generation requests replies : Nat)
    (queue : List (Message × Bool)) (toClient : List Message) : ReadPc State Message → Prop
  | .snapshotted _ _ true =>
    toClient ≠ [] ∧ replies ≤ requests ∧
      (replies < requests ∨ (state.isPeer = true ∧ AllReserved queue))
  | .snapshotted initial initialGeneration false =>
    toClient ≠ [] ∧ initial.isPeer = true ∧
      ((generation = initialGeneration ∧ state = initial ∧
          (queue = [] ∨ ∃ m mid, queue = [(m, false)] ∧ nextState config state m = some mid ∧
            mid.isPeer = true)) ∨
        (generation = initialGeneration + 1 ∧ state.isPeer = true ∧ queue = []))
  | _ => True

structure Inv (requests : List Message) (c : Client) : Prop where
  noFailure : c.failure = none
  order : c.written ++ c.sendLoop.payload ++ inHand c.sendLoop.pc ++
    c.sendLoop.pipelinedOutbound.toList ++ c.sendQueue ++ c.application = requests
  deferred : ∀ m ∈ c.sendLoop.queuedStateTransitions, IsRequest m
  wire : ∀ m ∈ c.toServer, IsRequest m
  pending : c.shared.pendingPipelinedRequests = c.sendLoop.queuedStateTransitions.length
  place : Place c.shared.currentState c.shared.sendReady c.sendQueue c.sendLoop c.sendLoop.pc
  history : c.handled ++ handling c.recvPc ++ (admitted c).map Prod.fst ++ c.toClient = c.sent
  link : Link c.shared.currentState ((admitted c).map Prod.fst ++ c.toClient)
    c.sendLoop.queuedStateTransitions.length (unread c) c.server
  reserved : Reserved c.shared.currentState c.shared.pendingPipelinedReplies
    c.shared.peerAgencyReserved (admitted c)
  transition : ∀ m reserved, c.recvPc = .transition m reserved →
    c.shared.currentState.isPeer = true
  snapshotted : Snapshotted c.shared.currentState c.shared.currentStateGeneration
    c.shared.pendingPipelinedRequests c.shared.pendingPipelinedReplies (admitted c) c.toClient
    c.readPc
  types : c.shared.pipelinedTypeGenerations = fun _ => none

theorem inv_start (requests : List Message) : Inv requests (System.start config requests) where
  noFailure := rfl
  order := rfl
  deferred := nofun
  wire := nofun
  pending := rfl
  place := ⟨⟨fun _ => rfl, fun _ => rfl⟩, rfl⟩
  history := rfl
  link := .inr ⟨0, rfl, .done .idle⟩
  reserved := ⟨rfl, .inl ⟨rfl, nofun, rfl⟩⟩
  transition := nofun
  snapshotted := trivial
  types := by
    funext t
    rfl

variable {requests : List Message} {c c' : Client}

/-! ## Steps of the send loop that run no transition -/

theorem Inv.of_send {pc : SendPc Message} {out : Option Message} {queue : List Message}
    {ready : Bool} {refused : Nat} (h : Inv requests c)
    (horder : inHand pc ++ out.toList ++ queue =
      inHand c.sendLoop.pc ++ c.sendLoop.pipelinedOutbound.toList ++ c.sendQueue)
    (hplace : Place c.shared.currentState ready queue
      { c.sendLoop with pc := pc, pipelinedOutbound := out } pc) :
    Inv requests { c with
      sendLoop := { c.sendLoop with pc := pc, pipelinedOutbound := out }
      sendQueue := queue, refused := refused, shared := { c.shared with sendReady := ready } } where
  __ := h
  order := by
    have horder' := h.order
    simp only [List.append_assoc] at horder horder' ⊢
    rw [← List.append_assoc out.toList, ← List.append_assoc (inHand _), horder]
    simp only [List.append_assoc]
    exact horder'
  place := hplace

variable {m : Message}

section

variable (h : Inv requests c)
include h

theorem Inv.running : ¬ c.failure.isSome := by simp [h.noFailure]

theorem Inv.isRequest (hrequests : ∀ m ∈ requests, IsRequest m)
    (hm : m ∈ inHand c.sendLoop.pc ++ c.sendLoop.pipelinedOutbound.toList ++ c.sendQueue) :
    IsRequest m := by
  apply hrequests
  rw [← h.order]
  simp only [List.mem_append] at hm ⊢
  tauto

theorem Inv.sendTop (hpc : c.sendLoop.pc = .top) : Inv requests (c.sendTop config) := by
  have hplace := h.place
  rw [hpc] at hplace
  unfold System.sendTop
  split
  · exact h.of_send (by rw [hpc]; rfl) hplace
  · rename_i hout
    split
    · exact h.of_send (by rw [hpc]; rfl)
        ⟨hplace.1, hplace.2, Option.not_isSome_iff_eq_none.mp hout⟩
    · exact h.of_send (by rw [hpc]; rfl) hplace

theorem Inv.takeAgency (hempty : inHand c.sendLoop.pc = [])
    (htoken : c.shared.currentState = .idle) (hpayload : c.sendLoop.payload = []) :
    Inv requests (c.takeToken.sendTo .agency) :=
  h.of_send (by rw [hempty]; rfl) ⟨rfl, htoken, hpayload⟩

theorem Inv.sendToken (hstep : c.sendToken = some c') : Inv requests c' := by
  have hplace := h.place
  unfold System.sendToken at hstep
  generalize hpc : c.sendLoop.pc = pc at hstep hplace
  cases pc with
  | awaitToken | selectPipelined =>
    dsimp only at hstep
    split at hstep
    · rename_i hready
      cases hstep
      refine h.takeAgency (by rw [hpc]; rfl) (hplace.1.mp hready) ?_
      first
        | exact hplace.2
        | exact hplace.2.1
    · cases hstep
  | _ => cases hstep

theorem Inv.sendDequeue (hstep : c.sendDequeue = some c') : Inv requests c' := by
  have hplace := h.place
  unfold System.sendDequeue at hstep
  split at hstep
  · rename_i m rest hpc hqueue
    rw [hpc] at hplace
    cases hstep
    refine h.of_send ?_ hplace
    rw [hpc, hqueue, hplace.2.2]
    rfl
  · cases hstep

theorem Inv.idle_of_not_isPeer
    (hpeer : ¬ c.shared.currentState.isPeer) : c.shared.currentState = .idle := by
  rcases h.reserved.2 with ⟨hidle, -⟩ | ⟨hcontra, -⟩
  · exact hidle
  · exact absurd hcontra hpeer

theorem Inv.sendResolve (hm : IsRequest m)
    (hpc : c.sendLoop.pc = .resolve m) : Inv requests (c.sendResolve config m) := by
  have hplace := h.place
  rw [hpc] at hplace
  obtain ⟨htoken, hpayload, hout⟩ := hplace
  have horder : inHand c.sendLoop.pc ++ c.sendLoop.pipelinedOutbound.toList ++ c.sendQueue =
      m :: c.sendQueue := by
    rw [hpc, hout]
    rfl
  unfold System.sendResolve
  dsimp only
  rw [fits_request hm]
  split
  · exact h.of_send horder.symm ⟨htoken, nofun⟩
  · rename_i hpeer
    have hidle := h.idle_of_not_isPeer hpeer
    rw [roleHasAgency_iff.mpr hidle]
    refine h.of_send ?_ ⟨htoken.mpr hidle, hidle, hpayload, hout⟩
    rw [horder]
    rw [hout]
    rfl

theorem Inv.sendDrain (hpc : c.sendLoop.pc = .drainToken m) :
    Inv requests (c.takeToken.sendTo (.flush m c.sendLoop.queuedStateTransitions.length)) := by
  have hplace := h.place
  rw [hpc] at hplace
  obtain ⟨-, hidle, hpayload, hout⟩ := hplace
  exact h.of_send (by rw [hpc]; rfl) ⟨Nat.le_refl _, fun _ => hidle, hpayload, hout⟩

end

variable {before replies generation pending : Nat}

theorem Inv.sendPostFlush {m : Message} {before : Nat} (h : Inv requests c) (hm : IsRequest m)
    (hpc : c.sendLoop.pc = .postFlush m before) : Inv requests (c.sendPostFlush config m before) := by
  have hplace := h.place
  rw [hpc] at hplace
  obtain ⟨hbacklog, hpayload, hout⟩ := hplace
  have horder : inHand c.sendLoop.pc ++ c.sendLoop.pipelinedOutbound.toList ++ c.sendQueue =
      m :: c.sendQueue := by
    rw [hpc, hout]
    rfl
  unfold System.sendPostFlush
  dsimp only [System.takeToken]
  rw [fits_request hm]
  split
  · rename_i hpeer
    refine h.of_send horder.symm ⟨⟨nofun, fun hidle => ?_⟩, nofun⟩
    rw [hidle] at hpeer
    cases hpeer
  · rename_i hpeer
    have hidle := h.idle_of_not_isPeer hpeer
    rw [roleHasAgency_iff.mpr hidle]
    by_cases hempty : c.sendLoop.queuedStateTransitions = []
    · have hnext : (nextState config c.shared.currentState m).isSome := by
        rw [hidle, nextState_idle_request hm]
        rfl
      rw [if_neg (by simp), if_pos hempty, if_pos hnext]
      exact h.of_send horder.symm ⟨rfl, hidle, hempty⟩
    · -- Some deferred request has run, so the flush goes on.
      have hless := hbacklog.resolve_left hempty
      rw [if_neg (by simp), if_neg hempty, if_pos hless]
      refine h.of_send ?_ ⟨Nat.le_refl _, fun _ => hidle, hpayload, hout⟩
      rw [horder]
      rw [hout]
      rfl

/-! ## Requests run -/

variable {queue : List (Message × Bool)}

theorem countP_pos_iff (h : AllReserved queue) : 0 < queue.countP (·.2) ↔ queue ≠ [] := by
  rw [List.countP_pos_iff]
  constructor
  · rintro ⟨entry, hentry, -⟩ hnil
    rw [hnil] at hentry
    cases hentry
  · intro hne
    obtain ⟨entry, hentry⟩ := List.exists_mem_of_ne_nil _ hne
    exact ⟨entry, hentry, h entry hentry⟩

theorem Reserved.run_request {agencyReserved : Bool}
    (h : Reserved .idle replies agencyReserved queue) :
    Reserved .busy replies (decide (0 < replies)) queue := by
  obtain ⟨hcount, ⟨-, hall, -⟩ | ⟨hpeer, -⟩⟩ := h
  · refine ⟨hcount, .inr ⟨rfl, ?_, .inl hall⟩⟩
    rw [decide_eq_true_iff, hcount]
    exact countP_pos_iff hall
  · cases hpeer

theorem Snapshotted.run_request {pending' : Nat} {toClient : List Message}
    {pc : ReadPc State Message} (h : Snapshotted .idle generation pending replies queue toClient pc)
    (hqueue : AllReserved queue) (hpending : pending ≤ pending' + 1) :
    Snapshotted .busy (generation + 1) pending' replies queue toClient pc := by
  cases pc with
  | idle | admitted => trivial
  | snapshotted initial initialGeneration hadUnreserved =>
    cases hadUnreserved with
    | true =>
      obtain ⟨hne, hle, hlt | ⟨hpeer, -⟩⟩ := h
      · exact ⟨hne, by omega, .inr ⟨rfl, hqueue⟩⟩
      · cases hpeer
    | false =>
      obtain ⟨-, hinitial, ⟨-, hstate, -⟩ | ⟨-, hpeer, -⟩⟩ := h
      · rw [← hstate] at hinitial
        cases hinitial
      · cases hpeer

theorem Reserved.allReserved_of_idle {agencyReserved : Bool}
    (h : Reserved .idle replies agencyReserved queue) : AllReserved queue := by
  obtain ⟨-, ⟨-, hall, -⟩ | ⟨hpeer, -⟩⟩ := h
  · exact hall
  · cases hpeer

theorem Inv.run_deferred {rest : List Message} (h : Inv requests c) (pc : SendPc Message)
    (hidle : c.shared.currentState = .idle)
    (hbacklog : c.sendLoop.queuedStateTransitions = m :: rest)
    (hhand : inHand pc = inHand c.sendLoop.pc)
    (hplace : Place .busy c.shared.sendReady c.sendQueue
      { c.sendLoop with pc := pc, queuedStateTransitions := rest } pc) :
    ∃ shared, applyTransition config c.shared m false true = some shared ∧
      Inv requests { c with
        shared := shared
        sendLoop := { c.sendLoop with pc := pc, queuedStateTransitions := rest } } := by
  have hm : IsRequest m := h.deferred m (by rw [hbacklog]; exact List.mem_cons_self)
  have hreserved := h.reserved
  have hsnapshotted := h.snapshotted
  have hlink := h.link
  have hpending := h.pending
  rw [hidle] at hreserved hsnapshotted hlink
  rw [hbacklog, List.length_cons] at hlink hpending
  refine ⟨_, applyTransition_request hm hidle true, ?_⟩
  refine { h with
    order := ?_, deferred := fun m' hm' => ?_, pending := ?_, place := hplace
    link := hlink.run_deferred, reserved := hreserved.run_request
    transition := fun _ _ _ => rfl, snapshotted := ?_ }
  · rw [hhand]
    exact h.order
  · exact h.deferred m' (by rw [hbacklog]; exact List.mem_cons_of_mem _ hm')
  · rw [if_pos rfl, hpending]
    rfl
  · refine hsnapshotted.run_request hreserved.allReserved_of_idle ?_
    dsimp only
    rw [if_pos rfl]
    omega

theorem Inv.sendFlush (h : Inv requests c)
    (hpc : c.sendLoop.pc = .flush m before) : Inv requests (c.sendFlush config m before) := by
  have hplace := h.place
  rw [hpc] at hplace
  obtain ⟨hle, hfirst, hpayload, hout⟩ := hplace
  unfold System.sendFlush
  cases hbacklog : c.sendLoop.queuedStateTransitions with
  | nil => exact h.of_send (by rw [hpc]; rfl) ⟨.inl hbacklog, hpayload, hout⟩
  | cons deferred rest =>
    rw [hbacklog, List.length_cons] at hle hfirst
    dsimp only
    by_cases hpeer : c.shared.currentState.isPeer
    · -- The server has its turn, so the rest of the backlog stays deferred.
      have hm : IsRequest deferred :=
        h.deferred deferred (by rw [hbacklog]; exact List.mem_cons_self)
      rw [applyTransition_request_peer hm hpeer]
      refine h.of_send (by rw [hpc]; rfl) ⟨.inr ?_, hpayload, hout⟩
      show c.sendLoop.queuedStateTransitions.length < before
      rw [hbacklog, List.length_cons]
      refine Nat.lt_of_le_of_ne hle fun heq => ?_
      rw [hfirst heq] at hpeer
      cases hpeer
    · have hidle := h.idle_of_not_isPeer hpeer
      obtain ⟨shared, happly, hinv⟩ := h.run_deferred (.flush m before) hidle hbacklog
        (by rw [hpc]) ⟨by dsimp only; omega, fun heq => by dsimp only at heq; omega, hpayload, hout⟩
      rw [happly]
      rw [← hpc] at hinv
      exact hinv

theorem Inv.sendAgency (h : Inv requests c) (hpc : c.sendLoop.pc = .agency) :
    Inv requests (c.sendAgency config) := by
  have hplace := h.place
  rw [hpc] at hplace
  obtain ⟨htoken, hidle, hpayload⟩ := hplace
  unfold System.sendAgency
  cases hbacklog : c.sendLoop.queuedStateTransitions with
  | nil => exact h.of_send (by rw [hpc]; rfl) ⟨htoken, hidle, hbacklog⟩
  | cons deferred rest =>
    obtain ⟨shared, happly, hinv⟩ := h.run_deferred .top hidle hbacklog (by rw [hpc]; rfl)
      ⟨by rw [htoken]; simp, hpayload⟩
    dsimp only
    rw [happly]
    exact hinv

theorem Snapshotted.defer {state : State} {toClient : List Message} {pc : ReadPc State Message}
    (h : Snapshotted state generation pending replies queue toClient pc) :
    Snapshotted state generation (pending + 1) replies queue toClient pc := by
  cases pc with
  | idle | admitted => trivial
  | snapshotted initial initialGeneration hadUnreserved =>
    cases hadUnreserved with
    | true =>
      obtain ⟨hne, hle, hlt⟩ := h
      exact ⟨hne, by omega, .inl (by omega)⟩
    | false => exact h

section

variable (h : Inv requests c)
include h

theorem Inv.sendWrite_deferred (hm : IsRequest m)
    (hpc : c.sendLoop.pc = .write m true) : Inv requests (c.sendWrite config m true) := by
  have hplace := h.place
  have horder := h.order
  have hlink := h.link
  rw [hpc] at hplace horder
  unfold System.sendWrite
  rw [if_pos rfl]
  refine { h with
    order := ?_, deferred := fun m' hm' => ?_, pending := ?_, place := hplace, link := ?_
    snapshotted := h.snapshotted.defer }
  · simpa [inHand] using horder
  · rcases List.mem_append.mp hm' with hold | hnew
    · exact h.deferred m' hold
    · rw [List.mem_singleton.mp hnew]
      exact hm
  · simp [h.pending]
  · have hunread : unread (c.sendWrite config m true) = unread c + 1 := by
      simp [unread, System.sendWrite]
      omega
    unfold System.sendWrite at hunread
    rw [if_pos rfl] at hunread
    rw [hunread]
    rw [List.length_append, List.length_singleton]
    exact hlink.defer

theorem Inv.sendWrite_now (hm : IsRequest m)
    (hpc : c.sendLoop.pc = .write m false) : Inv requests (c.sendWrite config m false) := by
  have hplace := h.place
  have horder := h.order
  have hlink := h.link
  have hreserved := h.reserved
  have hsnapshotted := h.snapshotted
  rw [hpc] at hplace horder
  obtain ⟨hready, hidle, hempty, hout⟩ := hplace
  rw [hidle] at hlink hreserved hsnapshotted
  rw [hempty] at hlink
  obtain ⟨hunread, -, hlink⟩ := hlink.run_unsent
  unfold System.sendWrite
  rw [if_neg (by simp), applyTransition_request hm hidle false]
  refine { h with
    order := ?_, place := ⟨?_, hout⟩, link := ?_, reserved := hreserved.run_request
    transition := fun _ _ _ => rfl
    snapshotted := hsnapshotted.run_request hreserved.allReserved_of_idle (Nat.le_succ _) }
  · simpa [inHand] using horder
  · rw [hready]
    simp
  · have hone : unread { c with
        sendLoop := { c.sendLoop with pc := .batched, payload := c.sendLoop.payload ++ [m] } } = 1 := by
      unfold unread at hunread ⊢
      dsimp only
      rw [List.length_append, List.length_singleton]
      omega
    rw [← hone] at hlink
    rw [hempty]
    exact hlink

theorem Inv.sendRead {queueTransition : Bool} (hpc : c.sendLoop.pc = .readSendQueue queueTransition)
    (hstep : c.sendRead queueTransition = some c') : Inv requests c' := by
  have hplace := h.place
  rw [hpc] at hplace
  unfold System.sendRead at hstep
  split at hstep
  · rename_i m _ hout
    cases hstep
    refine h.of_send (by rw [hpc, hout]; rfl) ?_
    cases queueTransition with
    | true => exact ⟨hplace.1, rfl⟩
    | false => exact ⟨hplace.1, hplace.2.1, hplace.2.2, rfl⟩
  · rename_i m rest hout hqueue
    cases hstep
    cases queueTransition with
    | true =>
      refine h.of_send ?_ ⟨hplace.1, hout⟩
      rw [hpc, hout, hqueue]
      rfl
    | false =>
      refine h.of_send ?_ ⟨hplace.1, hplace.2.1, hplace.2.2, hout⟩
      rw [hpc, hout, hqueue]
      rfl
  · cases hstep

theorem Inv.sendRecheck (hm : IsRequest m)
    (hpc : c.sendLoop.pc = .recheck m) : Inv requests (c.sendRecheck config m) := by
  have hplace := h.place
  rw [hpc] at hplace
  obtain ⟨htoken, hout⟩ := hplace
  unfold System.sendRecheck
  dsimp only
  split
  · rename_i hagency
    exact h.of_send (by rw [hpc]; rfl)
      ⟨rfl, roleHasAgency_iff.mp hagency.2, hagency.1, hout⟩
  · split
    · exact h.of_send (by rw [hpc]; rfl) ⟨htoken, hout⟩
    · unfold System.holdForAgency
      rw [if_pos (request_hasAgencyTransition hm)]
      exact h.of_send (by rw [hpc, hout]; rfl) htoken

theorem Inv.sendSegments (hrequests : ∀ m ∈ requests, IsRequest m)
    (hpc : c.sendLoop.pc = .sendSegments) : Inv requests c.sendSegments := by
  have hplace := h.place
  have horder := h.order
  have hlink := h.link
  rw [hpc] at hplace horder
  refine { h with order := ?_, wire := fun m hm => ?_, place := ⟨hplace, rfl⟩, link := ?_ }
  · simpa [System.sendSegments, inHand] using horder
  · rcases List.mem_append.mp hm with hwire | hpayload
    · exact h.wire m hwire
    · apply hrequests
      rw [← horder]
      simp only [List.mem_append]
      tauto
  · have hunread : unread c.sendSegments = unread c := by
      simp [unread, System.sendSegments]
      omega
    rw [hunread]
    exact hlink

theorem Inv.sendStep (hrequests : ∀ m ∈ requests, IsRequest m)
    (hstep : c.sendStep config = some c') : Inv requests c' := by
  have hhand : ∀ m, inHand c.sendLoop.pc = [m] → IsRequest m := fun m hm =>
    h.isRequest hrequests (by rw [hm]; exact List.mem_cons_self)
  unfold System.sendStep at hstep
  generalize hpc : c.sendLoop.pc = pc at hstep
  cases pc with
  | awaitToken | selectPipelined | batched => cases hstep
  | readSendQueue queueTransition => exact h.sendRead hpc hstep
  | drainToken m =>
    dsimp only at hstep
    split at hstep
    · cases hstep
      exact h.sendDrain hpc
    · cases hstep
  | top | agency | sendSegments =>
    cases hstep
    first
      | exact h.sendTop hpc
      | exact h.sendAgency hpc
      | exact h.sendSegments hrequests hpc
  | resolve m | recheck m =>
    cases hstep
    first
      | exact h.sendResolve (hhand m (by rw [hpc]; rfl)) hpc
      | exact h.sendRecheck (hhand m (by rw [hpc]; rfl)) hpc
  | flush m before =>
    cases hstep
    exact h.sendFlush hpc
  | postFlush m before =>
    cases hstep
    exact h.sendPostFlush (hhand m (by rw [hpc]; rfl)) hpc
  | write m queueTransition =>
    cases hstep
    have hm := hhand m (by rw [hpc]; rfl)
    cases queueTransition with
    | true => exact h.sendWrite_deferred hm hpc
    | false => exact h.sendWrite_now hm hpc

end

end Gouroboros.Protocol.BlockFetch

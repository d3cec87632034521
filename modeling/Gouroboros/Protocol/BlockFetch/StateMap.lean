import Gouroboros.Protocol.Loops

/-!
# The block-fetch state map

`StateMap` of `protocol/blockfetch` for a client with request pipelining, and how
far such a client can be behind its server. Every request runs the same
transition at both ends, and so does every reply, so what lies between the two
states is a list of replies and a number of requests that the client has still
to go through (`Replay`). The one exception is a request that the client has run
and the server has not taken (`Link`).
-/

namespace Gouroboros.Protocol.BlockFetch

inductive MessageType where
  | requestRange
  | clientDone
  | startBatch
  | noBlocks
  | block
  | batchDone
deriving DecidableEq

/-- Requests and blocks are told apart by a number. -/
inductive Message where
  | requestRange (request : Nat)
  | clientDone
  | startBatch
  | noBlocks
  | block (block : Nat)
  | batchDone
deriving DecidableEq

inductive State where
  | idle
  | busy
  | streaming
  | done
deriving DecidableEq

def Message.type : Message → MessageType
  | .requestRange _ => .requestRange
  | .clientDone => .clientDone
  | .startBatch => .startBatch
  | .noBlocks => .noBlocks
  | .block _ => .block
  | .batchDone => .batchDone

/-- `StateMap`, as `protocolStateMap` sets it for a client with RequestPipelining. -/
def stateMap : State → StateMapEntry State MessageType Message
  | .idle =>
    { agency := .client
      transitions :=
        [{ msgType := .requestRange, newState := .busy },
          { msgType := .clientDone, newState := .done }] }
  | .busy =>
    { agency := .server
      allowPipelinedSend := true
      pipelinedMessageTypes := [.requestRange]
      transitions :=
        [{ msgType := .startBatch, newState := .streaming },
          { msgType := .noBlocks, newState := .idle }] }
  | .streaming =>
    { agency := .server
      allowPipelinedSend := true
      pipelinedMessageTypes := [.requestRange]
      transitions :=
        [{ msgType := .block, newState := .streaming },
          { msgType := .batchDone, newState := .idle }] }
  | .done => { agency := .none }

def config : ProtocolConfig State MessageType Message where
  stateMap := stateMap
  states := [.idle, .busy, .streaming, .done]
  messageType := Message.type
  initialState := .idle

abbrev Client := System State MessageType Message

/-! ## The state map, read off -/

def State.isPeer : State → Bool
  | .busy | .streaming => true
  | .idle | .done => false

def IsRequest (m : Message) : Prop := ∃ r, m = .requestRange r

variable {s s' : State}

theorem holder_eq_peer : agencyHolderFor (config.stateMap s) = .peer ↔ s.isPeer := by
  cases s <;> decide

theorem holder_eq_ours : agencyHolderFor (config.stateMap s) = .ours ↔ s = .idle := by
  cases s <;> decide

theorem roleHasAgency_iff : roleHasAgency (config.stateMap s) ↔ s = .idle := by
  cases s <;> decide

variable {m : Message}

theorem fits_request (hm : IsRequest m) :
    pipelinedMessageFits config (config.stateMap s) m = s.isPeer := by
  obtain ⟨r, rfl⟩ := hm
  cases s <;> rfl

theorem request_hasAgencyTransition (hm : IsRequest m) : messageHasAgencyTransition config m := by
  obtain ⟨r, rfl⟩ := hm
  rfl

theorem nextState_idle_request (hm : IsRequest m) : nextState config .idle m = some .busy := by
  obtain ⟨r, rfl⟩ := hm
  rfl

theorem nextState_peer_request (hs : s.isPeer)
    (hm : IsRequest m) : nextState config s m = none := by
  obtain ⟨r, rfl⟩ := hm
  cases s with
  | busy | streaming => rfl
  | idle | done => cases hs

theorem nextState_reply (hs : s.isPeer)
    (h : nextState config s m = some s') : s' = .idle ∨ s'.isPeer := by
  cases s with
  | idle | done => cases hs
  | busy | streaming =>
    cases m <;> simp [nextState, config, stateMap, Message.type] at h <;> simp [← h, State.isPeer]

variable {shared : Shared State MessageType}

theorem peerHasAgency_iff : peerHasAgency config shared ↔ shared.currentState.isPeer := by
  unfold peerHasAgency
  rw [decide_eq_true_iff, holder_eq_peer]

theorem applyTransition_request (hm : IsRequest m) (hidle : shared.currentState = .idle)
    (consumes : Bool) :
    applyTransition config shared m false consumes = some
      { shared with
        currentState := .busy
        currentStateGeneration := shared.currentStateGeneration + 1
        pendingPipelinedRequests :=
          if consumes then shared.pendingPipelinedRequests - 1
          else shared.pendingPipelinedRequests
        peerAgencyReserved := decide (0 < shared.pendingPipelinedReplies) } := by
  unfold applyTransition
  rw [hidle, nextState_idle_request hm]
  cases consumes <;> rfl

theorem applyTransition_request_peer (hm : IsRequest m) (hpeer : shared.currentState.isPeer)
    (consumes : Bool) : applyTransition config shared m false consumes = none := by
  unfold applyTransition
  rw [nextState_peer_request hpeer hm]
  rfl

theorem applyTransition_reply (reserved : Bool) (hpeer : shared.currentState.isPeer)
    (hnext : nextState config shared.currentState m = some s')
    (hnone : shared.pipelinedTypeGenerations = fun _ => none) :
    applyTransition config shared m reserved false = some
      { shared with
        currentState := s'
        currentStateGeneration := shared.currentStateGeneration + 1
        pendingPipelinedReplies :=
          if reserved then shared.pendingPipelinedReplies - 1
          else shared.pendingPipelinedReplies
        peerAgencyReserved := s'.isPeer && decide (0 < if reserved then
          shared.pendingPipelinedReplies - 1 else shared.pendingPipelinedReplies)
        sendReady := shared.sendReady || decide (s' = .idle) } := by
  unfold applyTransition
  rw [hnext]
  rcases nextState_reply hpeer hnext with rfl | hs'
  · simp [signalState, countTransition, config, stateMap, roleHasAgency, agencyHolderFor,
      State.isPeer, hnone]
  · cases s' with
    | busy | streaming =>
      simp [signalState, countTransition, config, stateMap, roleHasAgency, agencyHolderFor,
        State.isPeer]
    | idle | done => cases hs'

/-! ## What the client has still to go through -/

/-- The client's state machine, from `s`, goes through the replies `replies` and `requests`
requests, each in its idle state, and is then in `s'`. -/
inductive Replay : State → List Message → Nat → State → Prop where
  | done (s : State) : Replay s [] 0 s
  | request {replies : List Message} {requests : Nat} {s : State}
      (h : Replay .busy replies requests s) : Replay .idle replies (requests + 1) s
  | reply {s mid s' : State} {m : Message} {replies : List Message} {requests : Nat}
      (hpeer : s.isPeer = true) (hnext : nextState config s m = some mid)
      (h : Replay mid replies requests s') : Replay s (m :: replies) requests s'

variable {s s' mid : State} {m : Message} {replies : List Message} {requests : Nat}

theorem Replay.receive (h : Replay s replies requests .idle) :
    Replay s replies (requests + 1) .busy := by
  generalize hend : State.idle = last at h
  induction h with
  | done s =>
    rw [← hend]
    exact .request (.done .busy)
  | request _ ih => exact .request (ih hend)
  | reply hpeer hnext _ ih => exact .reply hpeer hnext (ih hend)

theorem Replay.send (h : Replay s replies requests mid) (hpeer : mid.isPeer)
    (hnext : nextState config mid m = some s') : Replay s (replies ++ [m]) requests s' := by
  induction h with
  | done s => exact .reply hpeer hnext (.done s')
  | request _ ih => exact .request (ih hpeer hnext)
  | reply hpeer' hnext' _ ih => exact .reply hpeer' hnext' (ih hpeer hnext)

theorem Replay.next (h : Replay s (m :: replies) requests s') (hpeer : s.isPeer) :
    ∃ mid, nextState config s m = some mid ∧ Replay mid replies requests s' := by
  cases h with
  | request => cases hpeer
  | reply _ hnext h => exact ⟨_, hnext, h⟩

theorem Replay.requests_pos (h : Replay .idle (m :: replies) requests s') : 0 < requests := by
  cases h with
  | request => exact Nat.succ_pos _
  | reply hpeer => cases hpeer

theorem Replay.run_request (h : Replay .idle replies (requests + 1) s') :
    Replay .busy replies requests s' := by
  cases h with
  | request h => exact h
  | reply hpeer => cases hpeer

theorem Replay.eq_of_nil (h : Replay s [] 0 s') : s = s' := by
  cases h
  rfl

theorem Replay.peer_nil (h : Replay s [] requests s') (hpeer : s.isPeer) :
    requests = 0 ∧ s = s' := by
  cases h with
  | done => exact ⟨rfl, rfl⟩
  | request => cases hpeer

theorem Replay.server_core (h : Replay s replies requests s') (hs : s = .idle ∨ s.isPeer) :
    s' = .idle ∨ s'.isPeer := by
  induction h with
  | done => exact hs
  | request _ ih => exact ih (.inr rfl)
  | reply hpeer hnext _ ih => exact ih (nextState_reply hpeer hnext)

/-- How the two ends stand to each other, with `backlog` deferred requests and `unread`
that the server has not taken: the client has run the request that the server takes
next, or it is behind the server by what is in between. -/
def Link (s : State) (replies : List Message) (backlog unread : Nat) (server : State) : Prop :=
  (backlog + 1 = unread ∧ s = .busy ∧ replies = [] ∧ server = .idle) ∨
  ∃ requests, backlog = unread + requests ∧ Replay s replies requests server

variable {backlog unread : Nat} {server server' : State}

theorem Link.receive (h : Link s replies backlog (unread + 1) .idle) :
    Link s replies backlog unread .busy := by
  rcases h with ⟨hcount, rfl, rfl, -⟩ | ⟨requests, hcount, hreplay⟩
  · exact .inr ⟨0, by omega, .done .busy⟩
  · exact .inr ⟨requests + 1, by omega, hreplay.receive⟩

theorem Link.send (h : Link s replies backlog unread server) (hpeer : server.isPeer)
    (hnext : nextState config server m = some server') :
    Link s (replies ++ [m]) backlog unread server' := by
  rcases h with ⟨-, -, -, rfl⟩ | ⟨requests, hcount, hreplay⟩
  · cases hpeer
  · exact .inr ⟨requests, hcount, hreplay.send hpeer hnext⟩

theorem Link.next (h : Link s (m :: replies) backlog unread server) (hpeer : s.isPeer) :
    ∃ mid, nextState config s m = some mid ∧ Link mid replies backlog unread server := by
  rcases h with ⟨-, -, hnil, -⟩ | ⟨requests, hcount, hreplay⟩
  · cases hnil
  · obtain ⟨mid, hnext, hrest⟩ := hreplay.next hpeer
    exact ⟨mid, hnext, .inr ⟨requests, hcount, hrest⟩⟩

theorem Link.run_deferred (h : Link .idle replies (backlog + 1) unread server) :
    Link .busy replies backlog unread server := by
  rcases h with ⟨-, hbusy, -⟩ | ⟨requests, hcount, hreplay⟩
  · cases hbusy
  · cases requests with
    | zero =>
      cases replies with
      | nil => exact .inl ⟨by omega, rfl, rfl, (hreplay.eq_of_nil).symm⟩
      | cons m replies => exact absurd hreplay.requests_pos (Nat.lt_irrefl 0)
    | succ requests => exact .inr ⟨requests, by omega, hreplay.run_request⟩

theorem Link.run_unsent (h : Link .idle replies 0 unread server) :
    unread = 0 ∧ replies = [] ∧ Link .busy replies 0 1 server := by
  rcases h with ⟨-, hbusy, -⟩ | ⟨requests, hcount, hreplay⟩
  · cases hbusy
  · have hzero : requests = 0 := by omega
    rw [hzero] at hreplay
    cases replies with
    | nil => exact ⟨by omega, rfl, .inl ⟨rfl, rfl, rfl, (hreplay.eq_of_nil).symm⟩⟩
    | cons m replies => exact absurd hreplay.requests_pos (Nat.lt_irrefl 0)

theorem Link.defer (h : Link s replies backlog unread server) :
    Link s replies (backlog + 1) (unread + 1) server := by
  rcases h with ⟨hcount, hs, hnil, hserver⟩ | ⟨requests, hcount, hreplay⟩
  · exact .inl ⟨by omega, hs, hnil, hserver⟩
  · exact .inr ⟨requests, by omega, hreplay⟩

theorem Link.backlog_pos (h : Link .idle (m :: replies) backlog unread server) : 0 < backlog := by
  rcases h with ⟨-, hbusy, -⟩ | ⟨requests, hcount, hreplay⟩
  · cases hbusy
  · have hpos := hreplay.requests_pos
    omega

theorem Link.server_core (h : Link s replies backlog unread server)
    (hs : s = .idle ∨ s.isPeer) : server = .idle ∨ server.isPeer := by
  rcases h with ⟨-, -, -, hidle⟩ | ⟨requests, -, hreplay⟩
  · exact .inl hidle
  · exact hreplay.server_core hs

theorem Link.next_isPeer {m' : Message} (h : Link s (m :: m' :: replies) 0 unread server)
    (hpeer : s.isPeer) (hnext : nextState config s m = some mid) : mid.isPeer := by
  obtain ⟨mid', hnext', hrest⟩ := h.next hpeer
  rw [hnext] at hnext'
  injection hnext' with heq
  rcases nextState_reply hpeer hnext with hidle | hmid
  · rw [← heq, hidle] at hrest
    exact absurd hrest.backlog_pos (Nat.lt_irrefl 0)
  · exact hmid

end Gouroboros.Protocol.BlockFetch

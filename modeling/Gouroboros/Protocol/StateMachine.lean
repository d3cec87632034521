import Mathlib.Data.List.Basic

/-!
# The state machine of a mini-protocol

The part of `protocol/protocol.go` that the goroutines of one protocol instance
share: the current state with its generation, the token of `sendReadyChan`, and
the counters of pipelined requests and replies, with the functions that read and
write them in one critical section. The role is the client's.

A state map is a function: a state without an entry has agency `none` and no
transitions, as the zero entry of the source has. Timeouts and byte limits are
left out.
-/

namespace Gouroboros.Protocol

inductive Agency where
  | none
  | client
  | server
deriving DecidableEq

structure StateTransition (S T M : Type) where
  msgType : T
  newState : S
  /-- `MatchFunc`; a transition without one always matches. -/
  matchFunc : M → Bool := fun _ => true

structure StateMapEntry (S T M : Type) where
  agency : Agency
  transitions : List (StateTransition S T M) := []
  pipelinedMessageTypes : List T := []
  allowPipelinedSend : Bool := false

/-- States `S`, message types `T` and messages `M` of a protocol. -/
structure ProtocolConfig (S T M : Type) where
  stateMap : S → StateMapEntry S T M
  /-- The keys of the state map. -/
  states : List S
  messageType : M → T
  initialState : S

inductive AgencyHolder where
  | neither
  | ours
  | peer
deriving DecidableEq

/-- The fields guarded by `currentStateMu` and `pendingBytesMu`. `sendReady` is whether
`sendReadyChan`, of capacity one, holds its token. -/
structure Shared (S T : Type) where
  currentState : S
  currentStateGeneration : Nat := 0
  sendReady : Bool := false
  peerAgencyReserved : Bool := false
  pendingPipelinedRequests : Nat := 0
  pendingPipelinedReplies : Nat := 0
  pipelinedTypeGenerations : T → Option Nat := fun _ => .none

section

variable {S T M : Type} [DecidableEq T]

/-- `agencyHolderFor`, for the client's role. -/
def agencyHolderFor (entry : StateMapEntry S T M) : AgencyHolder :=
  match entry.agency with
  | .client => .ours
  | .server => .peer
  | .none => .neither

def roleMayPipeline (entry : StateMapEntry S T M) : Bool :=
  entry.allowPipelinedSend && agencyHolderFor entry = .peer

def roleHasAgency (entry : StateMapEntry S T M) : Bool := agencyHolderFor entry = .ours

variable (cfg : ProtocolConfig S T M)

def pipelinedMessageFits (entry : StateMapEntry S T M) (msg : M) : Bool :=
  entry.pipelinedMessageTypes.contains (cfg.messageType msg)

def messageHasAgencyTransition (msg : M) : Bool :=
  cfg.states.any fun s =>
    roleHasAgency (cfg.stateMap s) &&
      (cfg.stateMap s).transitions.any fun transition => transition.msgType = cfg.messageType msg

def nextState (currentState : S) (msg : M) : Option S :=
  ((cfg.stateMap currentState).transitions.find? fun transition =>
    transition.msgType = cfg.messageType msg && transition.matchFunc msg).map (·.newState)

def peerHasAgency (shared : Shared S T) : Bool :=
  agencyHolderFor (cfg.stateMap shared.currentState) = .peer

/-! ## Transitions -/

/-- The part of `setState` that the first call, for the initial state, skips. -/
def countTransition (shared : Shared S T) (s : S)
    (consumesPipelinedReply consumesPipelinedRequest : Bool) : Shared S T :=
  let replies :=
    if consumesPipelinedReply then shared.pendingPipelinedReplies - 1
    else shared.pendingPipelinedReplies
  let requests :=
    if consumesPipelinedRequest then shared.pendingPipelinedRequests - 1
    else shared.pendingPipelinedRequests
  { shared with
    currentState := s
    currentStateGeneration := shared.currentStateGeneration + 1
    pendingPipelinedReplies := replies
    pendingPipelinedRequests := requests
    peerAgencyReserved :=
      (consumesPipelinedRequest || agencyHolderFor (cfg.stateMap s) = .peer) &&
        decide (0 < replies) }

/-- `setState` tells the loops: a token for our own agency, and the generation for the
message types that may be pipelined into it. -/
def signalState (shared : Shared S T) : Shared S T :=
  if roleHasAgency (cfg.stateMap shared.currentState) then
    { shared with
      sendReady := true
      pipelinedTypeGenerations := fun t =>
        if t ∈ (cfg.stateMap shared.currentState).pipelinedMessageTypes then
          some shared.currentStateGeneration
        else shared.pipelinedTypeGenerations t }
  else shared

def initialShared : Shared S T := signalState cfg { currentState := cfg.initialState }

/-- `stateLoop` answers one transition request; `none` is an error to the caller. -/
def applyTransition (shared : Shared S T) (msg : M)
    (consumesPipelinedReply consumesPipelinedRequest : Bool) : Option (Shared S T) :=
  (nextState cfg shared.currentState msg).map fun s =>
    signalState cfg (countTransition cfg shared s consumesPipelinedReply consumesPipelinedRequest)

/-! ## Inbound messages -/

/-- The state, its generation, whether a pipelined request lacks a reserved reply, and whether a
reserved reply waits for its transition. -/
def currentInboundSnapshot (shared : Shared S T) : S × Nat × Bool × Bool :=
  (shared.currentState, shared.currentStateGeneration,
    decide (shared.pendingPipelinedReplies < shared.pendingPipelinedRequests),
    decide (0 < shared.pendingPipelinedReplies))

inductive InboundAdmission (S T : Type) where
  | denied
  | wait
  | granted (reservedPipelinedReply : Bool) (shared : Shared S T)

/-- `reserveInboundAdmission`, with `reservePipelinedReply`. -/
def reserveInboundAdmission (shared : Shared S T) (messageType : T) (initialState : S)
    (initialGeneration : Nat) (hadUnreservedPipelinedRequest : Bool) : InboundAdmission S T :=
  let entry := cfg.stateMap shared.currentState
  let generation := shared.currentStateGeneration
  match agencyHolderFor entry with
  | .peer =>
    let continuesPeerAgency := decide (generation = initialGeneration + 1) &&
      decide (agencyHolderFor (cfg.stateMap initialState) = .peer)
    let pipelinedAcrossRoundTrip :=
      match shared.pipelinedTypeGenerations messageType with
      | some typeGeneration => decide (initialGeneration ≤ typeGeneration)
      | .none => false
    if generation ≠ initialGeneration ∧ continuesPeerAgency = false ∧
        pipelinedAcrossRoundTrip = false ∧ hadUnreservedPipelinedRequest = false then
      .denied
    else if shared.peerAgencyReserved then .wait
    else .granted false { shared with peerAgencyReserved := true }
  | .ours =>
    if messageType ∈ entry.pipelinedMessageTypes then .granted false shared
    else if hadUnreservedPipelinedRequest = false then .denied
    else if shared.pendingPipelinedRequests ≤ shared.pendingPipelinedReplies then .denied
    else
      .granted true
        { shared with pendingPipelinedReplies := shared.pendingPipelinedReplies + 1 }
  | .neither => .denied

variable {cfg} {shared : Shared S T} {messageType : T} {initialState : S} {initialGeneration : Nat}
  {hadUnreservedPipelinedRequest : Bool}

theorem reserveInboundAdmission_peer
    (hholder : agencyHolderFor (cfg.stateMap shared.currentState) = .peer)
    (hbasis : shared.currentStateGeneration = initialGeneration ∨
      (shared.currentStateGeneration = initialGeneration + 1 ∧
        agencyHolderFor (cfg.stateMap initialState) = .peer) ∨
      hadUnreservedPipelinedRequest) :
    reserveInboundAdmission cfg shared messageType initialState initialGeneration
        hadUnreservedPipelinedRequest =
      if shared.peerAgencyReserved then .wait
      else .granted false { shared with peerAgencyReserved := true } := by
  unfold reserveInboundAdmission
  dsimp only
  rw [hholder]
  rw [if_neg]
  rintro ⟨hgeneration, hcontinues, -, hhad⟩
  rcases hbasis with hsame | ⟨hnext, hinitial⟩ | htrue
  · exact hgeneration hsame
  · rw [decide_eq_true hnext, decide_eq_true hinitial] at hcontinues
    cases hcontinues
  · rw [htrue] at hhad
    cases hhad

theorem reserveInboundAdmission_ours
    (hholder : agencyHolderFor (cfg.stateMap shared.currentState) = .ours)
    (htype : messageType ∉ (cfg.stateMap shared.currentState).pipelinedMessageTypes)
    (hlt : shared.pendingPipelinedReplies < shared.pendingPipelinedRequests) :
    reserveInboundAdmission cfg shared messageType initialState initialGeneration true =
      .granted true
        { shared with pendingPipelinedReplies := shared.pendingPipelinedReplies + 1 } := by
  unfold reserveInboundAdmission
  dsimp only
  rw [hholder]
  dsimp only
  rw [if_neg htype, if_neg (by simp), if_neg (by omega)]

end

end Gouroboros.Protocol

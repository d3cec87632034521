import Gouroboros.Protocol.TxSubmission.Session

/-!
# The two windows of a tx-submission session

The server and the client each keep the list of transaction IDs that are not
acknowledged, and move it on at different moments: the server when the reply comes,
the client after it has sent it (`windows_in_step`). The invariant says where the
session is in an exchange (`Phase`). Between exchanges the client's list, or the one
it is about to record (`clientWindow`), is the server's; while a reply to a request
for IDs is on its way it is what the server will make of that reply.
-/

namespace Gouroboros.Protocol.TxSubmission

open ExceptFold

variable {decode : UInt16 → List UInt8 → Option DecodedTx}

/-! ## The server's window -/

/-- The server acknowledges its whole window with the next request, the window is
bounded and holds no ID twice, and a request for transactions names some of it. -/
structure Server.Inv (s : Server) : Prop where
  ackCount : s.ackCount = s.outstandingTxIds.length
  length_le : s.outstandingTxIds.length ≤ maxUnackedTxIds
  nodup : (s.outstandingTxIds.map (·.txId)).Nodup
  pendingTxs : ∀ pending, s.pendingTxs = some pending →
    requestedTxIdsAreOutstanding s.outstandingTxIds pending.requested = .ok () ∧
      pending.advertisedSizes = sizesById s.outstandingTxIds

theorem Server.inv_new : Server.Inv {} where
  ackCount := rfl
  length_le := Nat.zero_le _
  nodup := List.nodup_nil
  pendingTxs := nofun

theorem reconcileTxIds_window {outstanding reply next : List TxIdAndSize} {ack requested : Nat}
    {blocking : Bool} (hnodup : (outstanding.map (·.txId)).Nodup)
    (h : reconcileTxIds outstanding ack requested blocking reply = .ok next) :
    next.length ≤ maxUnackedTxIds ∧ (next.map (·.txId)).Nodup := by
  obtain ⟨-, -, -, hlength, hreply, hdisjoint, hnext⟩ := reconcileTxIds_eq_ok.mp h
  rw [hnext, List.length_append, List.map_append, List.nodup_append]
  refine ⟨hlength, ?_, hreply, fun id hid id' hid' heq => hdisjoint id' hid' (heq ▸ hid)⟩
  rw [List.map_drop]
  exact hnodup.sublist (List.drop_sublist _ _)

theorem Server.Inv.handleReplyTxIds {s s' : Server} {txIds : List TxIdAndSize} (h : s.Inv)
    {pending : PendingTxIdsRequest} (hpending : s.pendingTxIds = some pending)
    (hack : pending.ack = s.ackCount) (htxs : s.pendingTxs = none)
    (hreply : s.handleReplyTxIds txIds = .ok s') : s'.Inv := by
  unfold Server.handleReplyTxIds at hreply
  rw [hpending] at hreply
  obtain ⟨next, hnext, hs'⟩ := bind_eq_ok.mp hreply
  rw [← Except.ok.inj hs']
  obtain ⟨hlength, hnodup⟩ := reconcileTxIds_window h.nodup hnext
  refine ⟨?_, hlength, hnodup, fun _ hsome => ?_⟩
  · -- The whole of the old window was acknowledged, so what is left is the reply.
    obtain ⟨-, -, -, -, -, -, hnext⟩ := reconcileTxIds_eq_ok.mp hnext
    rw [hack, h.ackCount, List.drop_length, List.nil_append] at hnext
    show txIds.length = next.length
    rw [hnext]
  · rw [htxs] at hsome
    cases hsome

theorem lookup_sizesById {window : List TxIdAndSize} (hnodup : (window.map (·.txId)).Nodup)
    {entry : TxIdAndSize} (hentry : entry ∈ window) :
    (sizesById window).lookup entry.txId = some entry.size := by
  unfold sizesById
  induction window using List.reverseRecOn with
  | nil => cases hentry
  | append_singleton rest last ih =>
    rw [List.map_append, List.nodup_append] at hnodup
    rw [List.foldl_append, List.foldl_cons, List.foldl_nil, GoMap.lookup_insert_ite]
    rcases List.mem_append.mp hentry with hentry | hentry
    · have hne : entry.txId ≠ last.txId :=
        hnodup.2.2 _ (List.mem_map_of_mem hentry) _ (List.mem_singleton_self _)
      rw [if_neg hne]
      exact ih hnodup.1 hentry
    · rw [List.mem_singleton.mp hentry, if_pos rfl]

/-! ## Where an exchange is -/

namespace Session

/-- The client's window in the session of its last Init, or of the next one when it is
not running. -/
def clientWindow (s : Session) : List TxIdAndSize :=
  if s.client.running then s.client.recording.getD s.client.unackedTxIds else []

/-- The client's Init has been handled, is on its way, or has not been sent. -/
def Linked (s : Session) : Prop :=
  (s.initialized = true ∧ s.client.running = true ∧ s.toServer = []) ∨
  (s.initialized = false ∧ s.client.running = true ∧ s.toServer = [.init]) ∨
  (s.initialized = false ∧ s.client.running = false ∧ s.toServer = [])

/-- A request for IDs that the server's checks have admitted. -/
def Admitted (s : Server) (pending : PendingTxIdsRequest) : Prop :=
  pending.ack = s.ackCount ∧
    s.outstandingTxIds.length - pending.ack + pending.requested ≤ maxUnackedTxIds

def txIdsMessage (pending : PendingTxIdsRequest) : ServerMessage :=
  .requestTxIds pending.blocking (.ofNat pending.ack) (.ofNat pending.requested)

inductive Phase (decode : UInt16 → List UInt8 → Option DecodedTx) (s : Session) : Prop where
  | quiet (htxIds : s.server.pendingTxIds = none) (htxs : s.server.pendingTxs = none)
      (hclient : s.toClient = []) (hlinked : s.Linked)
      (hwindow : s.server.outstandingTxIds = s.clientWindow)
  | txIdsRequested (pending : PendingTxIdsRequest) (htxIds : s.server.pendingTxIds = some pending)
      (htxs : s.server.pendingTxs = none) (hadmitted : Admitted s.server pending)
      (hclient : s.toClient = [txIdsMessage pending]) (hlinked : s.Linked)
      (hwindow : s.server.outstandingTxIds = s.clientWindow)
  | txIdsReplied (pending : PendingTxIdsRequest) (txIds : List TxIdAndSize)
      (htxIds : s.server.pendingTxIds = some pending) (htxs : s.server.pendingTxs = none)
      (hadmitted : Admitted s.server pending) (hclient : s.toClient = [])
      (hserver : s.toServer = [.replyTxIds txIds]) (hinitialized : s.initialized = true)
      (hrunning : s.client.running = true)
      (hwindow : reconcileTxIds s.server.outstandingTxIds pending.ack pending.requested
        pending.blocking txIds = .ok s.clientWindow)
  | txsRequested (pending : PendingTxsRequest) (htxIds : s.server.pendingTxIds = none)
      (htxs : s.server.pendingTxs = some pending)
      (hclient : s.toClient = [.requestTxs pending.requested]) (hlinked : s.Linked)
      (hwindow : s.server.outstandingTxIds = s.clientWindow)
  | txsReplied (pending : PendingTxsRequest) (txs : List TxBody)
      (htxIds : s.server.pendingTxIds = none) (htxs : s.server.pendingTxs = some pending)
      (hclient : s.toClient = []) (hserver : s.toServer = [.replyTxs txs])
      (hinitialized : s.initialized = true) (hrunning : s.client.running = true)
      (haccepted : validateAndOrderTxBodies decode pending.requested txs pending.advertisedSizes =
        .ok txs)
      (hwindow : s.server.outstandingTxIds = s.clientWindow)
  | stopped (pending : PendingTxIdsRequest) (htxIds : s.server.pendingTxIds = some pending)
      (htxs : s.server.pendingTxs = none) (hblocking : pending.blocking = true)
      (hclient : s.toClient = []) (hinitialized : s.initialized = true)
      (hserver : (s.toServer = [.done] ∧ s.client.running = false) ∨
        (s.toServer = [.done, .init] ∧ s.client.running = true))
      (hwindow : s.clientWindow = [])

/-- The invariant of a session whose connection has not failed. -/
def Inv (decode : UInt16 → List UInt8 → Option DecodedTx) (s : Session) : Prop :=
  s.failed = false → s.server.Inv ∧ s.Phase decode

theorem inv_start : Inv decode {} := by
  intro _
  refine ⟨Server.inv_new, .quiet rfl rfl rfl ?_ rfl⟩
  exact .inr (.inr ⟨rfl, rfl, rfl⟩)

theorem inv_fail (s : Session) : Inv decode s.fail := nofun

variable {s s' : Session}

/-! ## The server's calls -/

variable {server server' : Server} {blocking : Bool}

theorem requestTxIds_eq_ok {reqCount : Int} {message : ServerMessage}
    (h : server.requestTxIds blocking reqCount = .ok (server', message)) :
    server.pendingTxIds = none ∧ server.pendingTxs = none ∧
      ∃ pending, Admitted server pending ∧ server' = { server with pendingTxIds := some pending } ∧
        message = txIdsMessage pending := by
  unfold Server.requestTxIds at h
  rw [guard_eq_ok, guard_eq_ok, guard_eq_ok, guard_eq_ok, guard_eq_ok, guard_eq_ok,
    guard_eq_ok, not_or, Option.not_isSome_iff_eq_none, Option.not_isSome_iff_eq_none] at h
  obtain ⟨-, -, -, ⟨htxIds, htxs⟩, -, -, hwindow, hok⟩ := h
  obtain ⟨hserver, hmessage⟩ := Prod.mk.inj (Except.ok.inj hok)
  refine ⟨htxIds, htxs, ⟨blocking, reqCount.toNat, server.ackCount⟩, ?_, hserver.symm,
    hmessage.symm⟩
  exact ⟨rfl, Nat.le_of_not_lt hwindow⟩

variable {txIds : List TxId}

theorem requestTxs_eq_ok {message : ServerMessage}
    (h : server.requestTxs txIds = .ok (server', message)) :
    server.pendingTxIds = none ∧ server.pendingTxs = none ∧
      requestedTxIdsAreOutstanding server.outstandingTxIds txIds = .ok () ∧
      server' =
        { server with pendingTxs := some ⟨txIds, sizesById server.outstandingTxIds⟩ } ∧
      message = .requestTxs txIds := by
  unfold Server.requestTxs at h
  rw [guard_eq_ok, guard_eq_ok, guard_eq_ok, not_or,
    Option.not_isSome_iff_eq_none, Option.not_isSome_iff_eq_none, seq_eq_ok] at h
  obtain ⟨-, -, ⟨htxIds, htxs⟩, houtstanding, hok⟩ := h
  obtain ⟨hserver, hmessage⟩ := Prod.mk.inj (Except.ok.inj hok)
  exact ⟨htxIds, htxs, houtstanding, hserver.symm, hmessage.symm⟩

theorem Phase.quiet_of_none (h : s.Phase decode) (htxIds : s.server.pendingTxIds = none)
    (htxs : s.server.pendingTxs = none) :
    s.toClient = [] ∧ s.Linked ∧ s.server.outstandingTxIds = s.clientWindow := by
  cases h with
  | quiet _ _ hclient hlinked hwindow => exact ⟨hclient, hlinked, hwindow⟩
  | txIdsRequested _ hsome | txIdsReplied _ _ hsome | stopped _ hsome =>
    rw [htxIds] at hsome
    cases hsome
  | txsRequested _ _ hsome | txsReplied _ _ _ hsome =>
    rw [htxs] at hsome
    cases hsome

theorem Inv.requestTxIds {reqCount : Int} (h : s.Inv decode) :
    Inv decode (s.call (s.server.requestTxIds blocking reqCount)) := by
  cases hcall : s.server.requestTxIds blocking reqCount with
  | error e => exact h
  | ok result =>
    intro hopen
    obtain ⟨hserver, hphase⟩ := h hopen
    obtain ⟨htxIds, htxs, pending, hadmitted, hs', hmessage⟩ := requestTxIds_eq_ok hcall
    obtain ⟨hclient, hlinked, hwindow⟩ := hphase.quiet_of_none htxIds htxs
    unfold call
    dsimp only
    rw [hs', hmessage]
    refine ⟨{ hserver with }, ?_⟩
    exact .txIdsRequested pending rfl htxs hadmitted (by rw [hclient]; rfl) hlinked hwindow

theorem Inv.requestTxs (h : s.Inv decode) : Inv decode (s.call (s.server.requestTxs txIds)) := by
  cases hcall : s.server.requestTxs txIds with
  | error e => exact h
  | ok result =>
    intro hopen
    obtain ⟨hserver, hphase⟩ := h hopen
    obtain ⟨htxIds, htxs, houtstanding, hs', hmessage⟩ := requestTxs_eq_ok hcall
    obtain ⟨hclient, hlinked, hwindow⟩ := hphase.quiet_of_none htxIds htxs
    unfold call
    dsimp only
    rw [hs', hmessage]
    refine ⟨{ hserver with pendingTxs := fun pending hpending => ?_ }, ?_⟩
    · cases hpending
      exact ⟨houtstanding, rfl⟩
    · exact .txsRequested _ htxIds rfl (by rw [hclient]; rfl) hlinked hwindow

/-! ## The client's steps -/

theorem clientWindow_of_running (hrunning : s.client.running) :
    s.clientWindow = s.client.recording.getD s.client.unackedTxIds := if_pos hrunning

theorem clientWindow_of_stopped (hrunning : s.client.running = false) : s.clientWindow = [] :=
  if_neg (by rw [hrunning]; exact Bool.false_ne_true)

theorem Inv.clientStart (h : s.Inv decode) (hrunning : s.client.running = false) :
    Inv decode
      { s with client := { running := true }, toServer := s.toServer ++ [.init] } := by
  intro hopen
  obtain ⟨hserver, hphase⟩ := h hopen
  have hempty := clientWindow_of_stopped hrunning
  have hlink (hlinked : s.Linked) : Linked
      { s with client := { running := true }, toServer := s.toServer ++ [.init] } := by
    rcases hlinked with ⟨-, hrun, -⟩ | ⟨-, hrun, -⟩ | ⟨hinitialized, -, hempty⟩
    · rw [hrunning] at hrun
      cases hrun
    · rw [hrunning] at hrun
      cases hrun
    · exact .inr (.inl ⟨hinitialized, rfl, by rw [hempty]; rfl⟩)
  refine ⟨hserver, ?_⟩
  cases hphase with
  | quiet htxIds htxs hclient hlinked hwindow =>
    exact .quiet htxIds htxs hclient (hlink hlinked) (hwindow.trans hempty)
  | txIdsRequested pending htxIds htxs hadmitted hclient hlinked hwindow =>
    exact .txIdsRequested pending htxIds htxs hadmitted hclient (hlink hlinked)
      (hwindow.trans hempty)
  | txsRequested pending htxIds htxs hclient hlinked hwindow =>
    exact .txsRequested pending htxIds htxs hclient (hlink hlinked) (hwindow.trans hempty)
  | txIdsReplied _ _ _ _ _ _ _ _ hrun | txsReplied _ _ _ _ _ _ _ hrun =>
    rw [hrunning] at hrun
    cases hrun
  | stopped pending htxIds htxs hblocking hclient hinitialized hdone hwindow =>
    rcases hdone with ⟨hdone, -⟩ | ⟨-, hrun⟩
    · exact .stopped pending htxIds htxs hblocking hclient hinitialized
        (.inr ⟨by rw [hdone]; rfl, rfl⟩) rfl
    · rw [hrunning] at hrun
      cases hrun

theorem clientReady_iff : s.clientReady ↔
    s.client.running ∧ s.client.recording = none ∧ s.initialized := by
  unfold clientReady
  rw [Bool.and_eq_true, Bool.and_eq_true, Option.isNone_iff_eq_none, and_assoc]

theorem clientWindow_of_ready (hready : s.clientReady) :
    s.clientWindow = s.client.unackedTxIds := by
  obtain ⟨hrunning, hrecording, -⟩ := clientReady_iff.mp hready
  rw [clientWindow_of_running hrunning, hrecording]
  rfl

theorem Linked.toServer_of_ready (h : s.Linked) (hready : s.clientReady) : s.toServer = [] := by
  obtain ⟨-, -, hinitialized⟩ := clientReady_iff.mp hready
  rcases h with ⟨-, -, hempty⟩ | ⟨hnot, -⟩ | ⟨hnot, -⟩
  · exact hempty
  · rw [hinitialized] at hnot
    cases hnot
  · rw [hinitialized] at hnot
    cases hnot

variable {ack req : UInt16} {rest : List ServerMessage}

theorem Phase.of_requestTxIds (h : s.Phase decode)
    (hmessage : s.toClient = .requestTxIds blocking ack req :: rest) :
    ∃ pending, s.server.pendingTxIds = some pending ∧ s.server.pendingTxs = none ∧
      Admitted s.server pending ∧ s.Linked ∧ s.server.outstandingTxIds = s.clientWindow ∧
      rest = [] ∧ blocking = pending.blocking ∧ ack = .ofNat pending.ack ∧
      req = .ofNat pending.requested := by
  cases h with
  | quiet _ _ hclient | txIdsReplied _ _ _ _ _ hclient | txsReplied _ _ _ _ hclient
  | stopped _ _ _ _ hclient | txsRequested _ _ _ hclient =>
    rw [hclient] at hmessage
    cases hmessage
  | txIdsRequested pending htxIds htxs hadmitted hclient hlinked hwindow =>
    rw [hclient] at hmessage
    injection hmessage with hmessage hrest
    injection hmessage with hblocking hack hreq
    exact ⟨pending, htxIds, htxs, hadmitted, hlinked, hwindow, hrest.symm, hblocking.symm,
      hack.symm, hreq.symm⟩

theorem Phase.of_requestTxs (h : s.Phase decode)
    (hmessage : s.toClient = .requestTxs txIds :: rest) :
    ∃ pending, s.server.pendingTxIds = none ∧ s.server.pendingTxs = some pending ∧
      s.Linked ∧ s.server.outstandingTxIds = s.clientWindow ∧
      rest = [] ∧ txIds = pending.requested := by
  cases h with
  | quiet _ _ hclient | txIdsReplied _ _ _ _ _ hclient | txsReplied _ _ _ _ hclient
  | stopped _ _ _ _ hclient | txIdsRequested _ _ _ _ hclient =>
    rw [hclient] at hmessage
    cases hmessage
  | txsRequested pending htxIds htxs hclient hlinked hwindow =>
    rw [hclient] at hmessage
    injection hmessage with hmessage hrest
    injection hmessage with htxIds'
    exact ⟨pending, htxIds, htxs, hlinked, hwindow, hrest.symm, htxIds'.symm⟩

section

variable {pending : PendingTxIdsRequest} (h : Admitted server pending) (hserver : server.Inv)
include h hserver

theorem Admitted.counts :
    (UInt16.ofNat pending.ack).toNat = server.outstandingTxIds.length ∧
      (UInt16.ofNat pending.requested).toNat = pending.requested ∧
      pending.ack = server.outstandingTxIds.length := by
  obtain ⟨hack, hwindow⟩ := h
  have hack : pending.ack = server.outstandingTxIds.length := hack.trans hserver.ackCount
  have hlength := hserver.length_le
  unfold maxUnackedTxIds at hlength hwindow
  refine ⟨?_, ?_, hack⟩
  · rw [UInt16.toNat_ofNat_of_lt' (by rw [UInt16.size]; omega), hack]
  · exact UInt16.toNat_ofNat_of_lt' (by rw [UInt16.size]; omega)

theorem Admitted.checkWindow :
    Client.checkWindow server.outstandingTxIds (UInt16.ofNat pending.ack).toNat
      (UInt16.ofNat pending.requested).toNat = .ok () := by
  obtain ⟨hack, hreq, hfull⟩ := h.counts hserver
  unfold Client.checkWindow
  rw [hack, hreq, guard_eq_ok, guard_eq_ok]
  refine ⟨Nat.lt_irrefl _, ?_, rfl⟩
  have hwindow := h.2
  omega

end

theorem handleRequestTxIds_eq_ok {c : Client} {func : Option TxIdsResult}
    {reply : Option (List TxIdAndSize × List TxIdAndSize)}
    (h : c.handleRequestTxIds blocking ack req func = .ok reply) :
    (reply = none ∧ blocking) ∨
      ∃ txIds next, reply = some (txIds, next) ∧
        reconcileTxIds c.unackedTxIds ack.toNat req.toNat blocking txIds = .ok next := by
  cases func with
  | none => cases h
  | some result =>
    obtain ⟨-, h⟩ := seq_eq_ok.mp h
    cases result with
    | error => cases h
    | stop =>
      dsimp only at h
      split at h
      · rename_i hblocking
        exact .inl ⟨(Except.ok.inj h).symm, hblocking⟩
      · cases h
    | txIds txIds =>
      obtain ⟨-, h⟩ := guard_eq_ok.mp h
      obtain ⟨next, hnext, hreply⟩ := bind_eq_ok.mp h
      exact .inr ⟨txIds, next, (Except.ok.inj hreply).symm, hnext⟩

theorem Inv.clientTxIds {func : Option TxIdsResult} (h : s.Inv decode) (hopen : s.failed = false)
    (hready : s.clientReady) (hstep : s.clientTxIds func = some s') : Inv decode s' := by
  obtain ⟨hserver, hphase⟩ := h hopen
  obtain ⟨hrunning, hrecording, hinitialized⟩ := clientReady_iff.mp hready
  unfold Session.clientTxIds at hstep
  split at hstep
  · rename_i blocking ack req rest hmessage
    obtain ⟨pending, htxIds, htxs, hadmitted, hlinked, hwindow, rfl, rfl, rfl, rfl⟩ :=
      hphase.of_requestTxIds hmessage
    have hempty := hlinked.toServer_of_ready hready
    obtain ⟨hack, hreq, hfull⟩ := hadmitted.counts hserver
    rw [clientWindow_of_ready hready] at hwindow
    split at hstep
    · cases hstep
      exact inv_fail s
    · rename_i hhandle
      obtain ⟨-, hblocking⟩ | ⟨_, _, hreply, -⟩ := handleRequestTxIds_eq_ok hhandle
      · cases hstep
        intro _
        exact ⟨hserver, .stopped pending htxIds htxs hblocking rfl hinitialized
          (.inl ⟨by rw [hempty]; rfl, rfl⟩) rfl⟩
      · cases hreply
    · rename_i txIds next hhandle
      obtain ⟨hnone, -⟩ | ⟨txIds', next', hreply, hnext⟩ := handleRequestTxIds_eq_ok hhandle
      · cases hnone
      · injection hreply with hreply
        obtain ⟨rfl, rfl⟩ := Prod.mk.inj hreply
        cases hstep
        intro _
        refine ⟨hserver, .txIdsReplied pending txIds htxIds htxs hadmitted rfl (by rw [hempty]; rfl)
          hinitialized hrunning ?_⟩
        unfold clientWindow
        rw [if_pos hrunning, hfull]
        rw [hack, hreq, ← hwindow] at hnext
        exact hnext
  · cases hstep

theorem handleRequestTxs_eq_ok {c : Client} {func : Option TxsResult} {reply : List TxBody}
    (h : c.handleRequestTxs decode txIds func = .ok reply) :
    validateAndOrderTxBodies decode txIds reply (sizesById c.unackedTxIds) = .ok reply := by
  cases func with
  | none => cases h
  | some result =>
    obtain ⟨-, h⟩ := seq_eq_ok.mp h
    cases result with
    | error => cases h
    | txs txs =>
      obtain ⟨-, h⟩ := guard_eq_ok.mp h
      exact validateAndOrderTxBodies_perm h (acceptedBodies h).1

theorem Inv.clientTxs {func : Option TxsResult} (h : s.Inv decode) (hopen : s.failed = false)
    (hready : s.clientReady) (hstep : s.clientTxs decode func = some s') : Inv decode s' := by
  obtain ⟨hserver, hphase⟩ := h hopen
  obtain ⟨hrunning, -, hinitialized⟩ := clientReady_iff.mp hready
  unfold Session.clientTxs at hstep
  split at hstep
  · rename_i txIds rest hmessage
    obtain ⟨pending, htxIds, htxs, hlinked, hwindow, rfl, rfl⟩ := hphase.of_requestTxs hmessage
    have hempty := hlinked.toServer_of_ready hready
    split at hstep
    · cases hstep
      exact inv_fail s
    · rename_i txs hhandle
      cases hstep
      intro _
      refine ⟨hserver, .txsReplied pending txs htxIds htxs rfl (by rw [hempty]; rfl) hinitialized
        hrunning ?_ hwindow⟩
      have haccepted := handleRequestTxs_eq_ok hhandle
      rw [← clientWindow_of_ready hready, ← hwindow] at haccepted
      rw [(hserver.pendingTxs pending htxs).2]
      exact haccepted
  · cases hstep

theorem Inv.clientRecord {next : List TxIdAndSize} (h : s.Inv decode)
    (hrecording : s.client.recording = some next) :
    Inv decode
      { s with client := { s.client with unackedTxIds := next, recording := none } } := by
  have hwindow : clientWindow
      { s with client := { s.client with unackedTxIds := next, recording := none } } =
        s.clientWindow := by
    unfold clientWindow
    rw [hrecording]
    rfl
  intro hopen
  obtain ⟨hserver, hphase⟩ := h hopen
  refine ⟨hserver, ?_⟩
  cases hphase with
  | quiet htxIds htxs hclient hlinked heq =>
    exact .quiet htxIds htxs hclient hlinked (by rw [hwindow]; exact heq)
  | txIdsRequested pending htxIds htxs hadmitted hclient hlinked heq =>
    exact .txIdsRequested pending htxIds htxs hadmitted hclient hlinked (by rw [hwindow]; exact heq)
  | txIdsReplied pending txIds htxIds htxs hadmitted hclient hdue hinitialized hrunning heq =>
    exact .txIdsReplied pending txIds htxIds htxs hadmitted hclient hdue hinitialized hrunning
      (by rw [hwindow]; exact heq)
  | txsRequested pending htxIds htxs hclient hlinked heq =>
    exact .txsRequested pending htxIds htxs hclient hlinked (by rw [hwindow]; exact heq)
  | txsReplied pending txs htxIds htxs hclient hdue hinitialized hrunning haccepted heq =>
    exact .txsReplied pending txs htxIds htxs hclient hdue hinitialized hrunning haccepted
      (by rw [hwindow]; exact heq)
  | stopped pending htxIds htxs hblocking hclient hinitialized hdone heq =>
    exact .stopped pending htxIds htxs hblocking hclient hinitialized hdone (hwindow.trans heq)

/-! ## The server's handlers -/

theorem Linked.receive_init (h : s.Linked) (hstep : s.serverReceive decode = some s') :
    s' = { s with initialized := true, toServer := [] } ∧ Linked s' := by
  unfold serverReceive at hstep
  rcases h with ⟨-, -, hempty⟩ | ⟨hinitialized, hrunning, hinit⟩ | ⟨-, -, hempty⟩
  · rw [hempty] at hstep
    cases hstep
  · rw [hinit] at hstep
    rw [hinitialized] at hstep
    cases hstep
    exact ⟨rfl, .inl ⟨rfl, hrunning, rfl⟩⟩
  · rw [hempty] at hstep
    cases hstep

theorem Inv.serverReceive (h : s.Inv decode) (hopen : s.failed = false)
    (hstep : s.serverReceive decode = some s') : Inv decode s' := by
  obtain ⟨hserver, hphase⟩ := h hopen
  intro _
  cases hphase with
  | quiet htxIds htxs hclient hlinked hwindow =>
    obtain ⟨hs', hlinked'⟩ := hlinked.receive_init hstep
    rw [hs'] at hlinked' ⊢
    exact ⟨hserver, .quiet htxIds htxs hclient hlinked' hwindow⟩
  | txIdsRequested pending htxIds htxs hadmitted hclient hlinked hwindow =>
    obtain ⟨hs', hlinked'⟩ := hlinked.receive_init hstep
    rw [hs'] at hlinked' ⊢
    exact ⟨hserver, .txIdsRequested pending htxIds htxs hadmitted hclient hlinked' hwindow⟩
  | txsRequested pending htxIds htxs hclient hlinked hwindow =>
    obtain ⟨hs', hlinked'⟩ := hlinked.receive_init hstep
    rw [hs'] at hlinked' ⊢
    exact ⟨hserver, .txsRequested pending htxIds htxs hclient hlinked' hwindow⟩
  | txIdsReplied pending txIds htxIds htxs hadmitted hclient hdue hinitialized hrunning hwindow =>
    unfold Session.serverReceive at hstep
    rw [hdue] at hstep
    have hhandle : s.server.handleReplyTxIds txIds = .ok { s.server with
        pendingTxIds := none, outstandingTxIds := s.clientWindow, ackCount := txIds.length } := by
      unfold Server.handleReplyTxIds
      rw [htxIds]
      exact bind_eq_ok.mpr ⟨_, hwindow, rfl⟩
    dsimp only at hstep
    rw [hhandle] at hstep
    cases hstep
    refine ⟨hserver.handleReplyTxIds htxIds hadmitted.1 htxs hhandle, ?_⟩
    exact .quiet rfl htxs hclient (.inl ⟨hinitialized, hrunning, rfl⟩) rfl
  | txsReplied pending txs htxIds htxs hclient hdue hinitialized hrunning haccepted hwindow =>
    unfold Session.serverReceive at hstep
    rw [hdue] at hstep
    have hhandle : s.server.handleReplyTxs decode txs =
        .ok ({ s.server with pendingTxs := none }, txs) := by
      unfold Server.handleReplyTxs
      rw [htxs]
      exact bind_eq_ok.mpr ⟨_, haccepted, rfl⟩
    dsimp only at hstep
    rw [hhandle] at hstep
    cases hstep
    refine ⟨{ hserver with pendingTxs := fun _ hnone => ?_ }, ?_⟩
    · cases hnone
    · exact .quiet htxIds rfl hclient (.inl ⟨hinitialized, hrunning, rfl⟩) hwindow
  | stopped pending htxIds htxs hblocking hclient hinitialized hdone hwindow =>
    -- The server starts afresh; the client has, or will.
    have hhandle : s.server.handleDone = .ok {} := by
      unfold Server.handleDone
      rw [htxIds]
      exact if_pos hblocking
    unfold Session.serverReceive at hstep
    rcases hdone with ⟨hdone, hrunning⟩ | ⟨hdone, hrunning⟩
    all_goals
      rw [hdone] at hstep
      rw [hhandle] at hstep
      cases hstep
      refine ⟨Server.inv_new, .quiet rfl rfl hclient ?_ hwindow.symm⟩
    · exact .inr (.inr ⟨rfl, hrunning, rfl⟩)
    · exact .inr (.inl ⟨rfl, hrunning, rfl⟩)

/-! ## Runs -/

theorem Inv.step {action : Action} (h : s.Inv decode) (hstep : s.step decode action = some s') :
    Inv decode s' := by
  unfold Session.step at hstep
  split at hstep
  · cases hstep
  · rename_i hfailed
    have hopen : s.failed = false := Bool.eq_false_iff.mpr hfailed
    cases action with
    | requestTxIds blocking reqCount =>
      cases hstep
      exact h.requestTxIds
    | requestTxs txIds =>
      cases hstep
      exact h.requestTxs
    | clientStart =>
      dsimp only at hstep
      split at hstep
      · cases hstep
      · rename_i hrunning
        cases hstep
        exact h.clientStart (Bool.eq_false_iff.mpr hrunning)
    | clientTxIds func =>
      dsimp only at hstep
      split at hstep
      · rename_i hready
        exact h.clientTxIds hopen hready hstep
      · cases hstep
    | clientTxs func =>
      dsimp only at hstep
      split at hstep
      · rename_i hready
        exact h.clientTxs hopen hready hstep
      · cases hstep
    | clientRecord =>
      obtain ⟨next, hrecording, hnext⟩ := Option.map_eq_some_iff.mp hstep
      rw [← hnext]
      exact h.clientRecord hrecording
    | serverReceive => exact h.serverReceive hopen hstep
    | connectionLost =>
      cases hstep
      exact inv_fail s

theorem inv_of_run {actions : List Action}
    (hrun : Transition.run (step decode) {} actions = some s) : Inv decode s :=
  Transition.run_invariant (fun _ _ _ hinv hstep => hinv.step hstep) inv_start hrun

/-- No request for IDs is under way and the client has recorded the last one. -/
def Completed (s : Session) : Prop :=
  s.server.pendingTxIds = none ∧ s.client.running = true ∧ s.client.recording = none

theorem Phase.window_of_completed (h : s.Phase decode) (hcompleted : s.Completed) :
    s.server.outstandingTxIds = s.client.unackedTxIds := by
  obtain ⟨hnone, hrunning, hrecording⟩ := hcompleted
  have hclient : s.clientWindow = s.client.unackedTxIds := by
    rw [clientWindow_of_running hrunning, hrecording]
    rfl
  cases h with
  | quiet _ _ _ _ hwindow | txsRequested _ _ _ _ _ hwindow
  | txsReplied _ _ _ _ _ _ _ _ _ hwindow => exact hwindow.trans hclient
  | txIdsRequested _ hsome | txIdsReplied _ _ hsome | stopped _ hsome =>
    rw [hnone] at hsome
    cases hsome

theorem Phase.checkWindow (h : s.Phase decode) (hserver : s.server.Inv) (hready : s.clientReady)
    (hmessage : s.toClient = .requestTxIds blocking ack req :: rest) :
    Client.checkWindow s.client.unackedTxIds ack.toNat req.toNat = .ok () := by
  obtain ⟨pending, -, -, hadmitted, -, hwindow, -, -, rfl, rfl⟩ := h.of_requestTxIds hmessage
  rw [← clientWindow_of_ready hready, ← hwindow]
  exact hadmitted.checkWindow hserver

theorem Phase.checkRequestTxs (h : s.Phase decode) (hserver : s.server.Inv)
    (hready : s.clientReady) (hmessage : s.toClient = .requestTxs txIds :: rest) :
    Client.checkRequestTxs s.client.unackedTxIds txIds = .ok () := by
  obtain ⟨pending, -, htxs, -, hwindow, -, rfl⟩ := h.of_requestTxs hmessage
  have houtstanding := (hserver.pendingTxs pending htxs).1
  unfold Client.checkRequestTxs
  rw [guard_eq_ok, ← clientWindow_of_ready hready, ← hwindow]
  exact ⟨Nat.not_lt.mpr (requestedTxIdsAreOutstanding_eq_ok.mp houtstanding).1, houtstanding⟩

/-- A transaction that answers a request for an outstanding ID. -/
def Answers (decode : UInt16 → List UInt8 → Option DecodedTx) (window : List TxIdAndSize)
    (id : TxId) (tx : TxBody) : Prop :=
  tx.id decode = some id ∧
    ∃ entry ∈ window, entry.txId = id ∧ sizeDifference entry.size tx.txBody.length ≤ 32

theorem answers_of_handleReplyTxs {pending : PendingTxsRequest} {bodies txs : List TxBody}
    (hserver : server.Inv) (htxs : server.pendingTxs = some pending)
    (h : server.handleReplyTxs decode bodies = .ok (server', txs)) :
    txs.Perm bodies ∧
      (∃ ids, ids.Sublist pending.requested ∧ ids.Nodup ∧
        List.Forall₂ (Answers decode server.outstandingTxIds) ids txs) ∧
      ∀ bodies', bodies'.Perm bodies →
        server.handleReplyTxs decode bodies' = .ok (server', txs) := by
  obtain ⟨houtstanding, hsizes⟩ := hserver.pendingTxs pending htxs
  unfold Server.handleReplyTxs at h ⊢
  rw [htxs] at h ⊢
  obtain ⟨ordered, hordered, hpure⟩ := bind_eq_ok.mp h
  obtain ⟨hs', rfl⟩ := Prod.mk.inj (Except.ok.inj hpure)
  obtain ⟨hperm, ids, hsublist, hnodup, hvalid⟩ := acceptedBodies hordered
  have hanswers (id : TxId) (tx : TxBody)
      (htx : ValidBody decode pending.requested pending.advertisedSizes tx id) :
      Answers decode server.outstandingTxIds id tx := by
    obtain ⟨-, -, hknown⟩ := requestedTxIdsAreOutstanding_eq_ok.mp houtstanding
    obtain ⟨entry, hentry, hid⟩ := List.mem_map.mp (hknown id htx.requested)
    refine ⟨htx.id_eq, entry, hentry, hid, htx.advertised entry.size ?_⟩
    rw [hsizes, ← hid]
    exact lookup_sizesById hserver.nodup hentry
  refine ⟨hperm, ⟨ids, hsublist, hnodup, hvalid.imp hanswers⟩, fun bodies' hbodies => ?_⟩
  refine bind_eq_ok.mpr ⟨_, validateAndOrderTxBodies_perm hordered hbodies, ?_⟩
  rw [← hs']
  rfl

/-- The two windows stay in step and bounded, the client refuses no request that the
server admits, and an accepted reply brings requested transactions in request order. -/
theorem windows_in_step (decode : UInt16 → List UInt8 → Option DecodedTx) (actions : List Action)
    (s : Session) (hrun : Transition.run (step decode) {} actions = some s)
    (hopen : s.failed = false) :
    (s.Completed → s.server.outstandingTxIds = s.client.unackedTxIds) ∧
    s.server.outstandingTxIds.length ≤ maxUnackedTxIds ∧
    (s.server.outstandingTxIds.map (·.txId)).Nodup ∧
    s.server.ackCount = s.server.outstandingTxIds.length ∧
    (∀ blocking ack req rest, s.clientReady = true →
      s.toClient = .requestTxIds blocking ack req :: rest →
      Client.checkWindow s.client.unackedTxIds ack.toNat req.toNat = .ok ()) ∧
    (∀ txIds rest, s.clientReady = true → s.toClient = .requestTxs txIds :: rest →
      Client.checkRequestTxs s.client.unackedTxIds txIds = .ok ()) ∧
    (∀ pending bodies server txs, s.server.pendingTxs = some pending →
      s.server.handleReplyTxs decode bodies = .ok (server, txs) →
      txs.Perm bodies ∧
      (∃ ids, ids.Sublist pending.requested ∧ ids.Nodup ∧
        List.Forall₂ (Answers decode s.server.outstandingTxIds) ids txs) ∧
      ∀ bodies', bodies'.Perm bodies →
        s.server.handleReplyTxs decode bodies' = .ok (server, txs)) := by
  obtain ⟨hserver, hphase⟩ := inv_of_run hrun hopen
  refine ⟨hphase.window_of_completed, hserver.length_le, hserver.nodup, hserver.ackCount, ?_, ?_, ?_⟩
  · intro blocking ack req rest hready hmessage
    exact hphase.checkWindow hserver hready hmessage
  · intro txIds rest hready hmessage
    exact hphase.checkRequestTxs hserver hready hmessage
  · intro pending bodies server txs htxs hhandle
    exact answers_of_handleReplyTxs hserver htxs hhandle

/-- A session in which one ID has been announced and its transaction is requested. -/
def oneTxId : TxId := ⟨6, Vector.replicate 32 7⟩

def oneTxRun : List Action :=
  [.clientStart, .serverReceive, .requestTxIds true 1,
    .clientTxIds (some (.txIds [⟨oneTxId, 40⟩])), .serverReceive, .clientRecord,
    .requestTxs [oneTxId]]

theorem windows_in_step_oneTx :
    ∃ s, Transition.run (step fun eraId _ => some ⟨eraId.toNat, oneTxId.txId⟩) {} oneTxRun =
        some s ∧ s.failed = false ∧ s.Completed ∧ s.client.unackedTxIds = [⟨oneTxId, 40⟩] ∧
      s.server.outstandingTxIds = s.client.unackedTxIds := by
  have hrun : Transition.run (step fun eraId _ => some ⟨eraId.toNat, oneTxId.txId⟩) {} oneTxRun =
      some _ := rfl
  exact ⟨_, hrun, rfl, ⟨rfl, rfl, rfl⟩, rfl,
    (windows_in_step _ oneTxRun _ hrun rfl).1 ⟨rfl, rfl, rfl⟩⟩

end Session

end Gouroboros.Protocol.TxSubmission

import Gouroboros.Lib.ExceptFold
import Gouroboros.Lib.GoMap

/-!
# Checks of the tx-submission messages

`protocol/txsubmission/validation.go`, which the server and the client share:
what a request may name, how the outstanding window moves on with a reply, and
how the bodies of a reply are checked and put into the order of the request.

The sets of the source are lists that are only asked for membership. The
decoder `ledger.NewTransactionFromCbor` is the parameter `decode`; it gives the
type and the hash of a transaction, or nothing when it fails.

Each function comes with the condition on which it accepts (`…_eq_ok`).
-/

namespace Gouroboros.Protocol.TxSubmission

open ExceptFold

def maxRequestCount : Nat := 65535
def maxAckCount : Nat := 65535
def maxTxSizeBytes : Nat := 65540
def txIdReplyEntryBytes : Nat := 44
def maxUnackedTxIds : Nat := 10
def maxDecodedTxBytes : Nat := maxUnackedTxIds * maxTxSizeBytes
def maxPendingMessageBytes : Nat :=
  maxUnackedTxIds * (txIdReplyEntryBytes + maxTxSizeBytes) * 11 / 10

structure TxId where
  eraId : UInt16
  txId : Vector UInt8 32
deriving DecidableEq

structure TxIdAndSize where
  txId : TxId
  size : UInt32
deriving DecidableEq

structure TxBody where
  eraId : UInt16
  txBody : List UInt8
deriving DecidableEq

/-- What is read from a decoded transaction: `Type()` and `Id()`. -/
structure DecodedTx where
  type : Int
  id : Vector UInt8 32
deriving DecidableEq

/-- The errors of the package, one for each place that makes one. -/
inductive Error where
  /-- `ErrProtocolViolationRequestExceeded` without a text. -/
  | requestExceeded
  /-- `ErrProtocolShuttingDown`. -/
  | shuttingDown
  | requestAlreadyPending
  | noCallback
  | callback
  | cannotStopNonBlocking
  | requestedTxIdsLimit (requested : Nat)
  | duplicateRequest (id : TxId)
  | unannounced (id : TxId)
  | ackExceedsOutstanding (ack outstanding : Nat)
  | replyExceedsRequest (reply requested : Nat)
  | emptyBlockingReply (requested : Nat)
  | outstandingLimit (outstanding : Nat)
  | repeatsOutstanding (id : TxId)
  | requestedBodiesLimit (requested : Nat)
  | bodiesExceedRequest (bodies requested : Nat)
  | bodySize (size : Nat)
  | retainedBytes
  | decodedBytes
  | cannotDecode (eraId : UInt16)
  | wrongEra (type : Int) (eraId : UInt16)
  | unrequestedBody (id : TxId)
  | duplicateBody (id : TxId)
  | sizeDiffers (id : TxId) (advertised : UInt32) (actual : Nat)
  | replyWithoutRequest
  | doneWithoutBlockingRequest
deriving DecidableEq

/-! ## Requests -/

def checkRequested (available : List TxId) : List TxId → List TxId → Except Error Unit
  | _, [] => .ok ()
  | seen, id :: rest =>
    if id ∈ seen then .error (.duplicateRequest id)
    else if id ∉ available then .error (.unannounced id)
    else checkRequested available (id :: seen) rest

def requestedTxIdsAreOutstanding (outstanding : List TxIdAndSize) (requested : List TxId) :
    Except Error Unit :=
  if maxUnackedTxIds < requested.length then .error (.requestedTxIdsLimit requested.length)
  else checkRequested (outstanding.map (·.txId)) [] requested

variable {seen requested : List TxId}

theorem checkRequested_eq_ok {available : List TxId} :
    checkRequested available seen requested = .ok () ↔
      requested.Nodup ∧ (∀ id ∈ requested, id ∉ seen) ∧ ∀ id ∈ requested, id ∈ available := by
  induction requested generalizing seen with
  | nil => simp [checkRequested]
  | cons id rest ih =>
    unfold checkRequested
    rw [guard_eq_ok, guard_eq_ok, ih]
    simp only [List.nodup_cons, List.mem_cons]
    grind

variable {outstanding reply : List TxIdAndSize}

theorem requestedTxIdsAreOutstanding_eq_ok :
    requestedTxIdsAreOutstanding outstanding requested = .ok () ↔
      requested.length ≤ maxUnackedTxIds ∧ requested.Nodup ∧
        ∀ id ∈ requested, id ∈ outstanding.map (·.txId) := by
  unfold requestedTxIdsAreOutstanding
  rw [guard_eq_ok, checkRequested_eq_ok, Nat.not_lt]
  simp

/-! ## The window -/

def checkRepeated : List TxId → List TxIdAndSize → Except Error Unit
  | _, [] => .ok ()
  | seen, entry :: rest =>
    if entry.txId ∈ seen then .error (.repeatsOutstanding entry.txId)
    else checkRepeated (entry.txId :: seen) rest

/-- The window after an acknowledgement and a reply. -/
def reconcileTxIds (outstanding : List TxIdAndSize) (ack requested : Nat) (blocking : Bool)
    (reply : List TxIdAndSize) : Except Error (List TxIdAndSize) :=
  if outstanding.length < ack then .error (.ackExceedsOutstanding ack outstanding.length)
  else if requested < reply.length then .error (.replyExceedsRequest reply.length requested)
  else if blocking = true ∧ 0 < requested ∧ reply.length = 0 then
    .error (.emptyBlockingReply requested)
  else
    let remaining := outstanding.drop ack
    if maxUnackedTxIds < remaining.length + reply.length then
      .error (.outstandingLimit (remaining.length + reply.length))
    else do
      checkRepeated (remaining.map (·.txId)) reply
      pure (remaining ++ reply)

theorem checkRepeated_eq_ok :
    checkRepeated seen reply = .ok () ↔
      (reply.map (·.txId)).Nodup ∧ ∀ id ∈ reply.map (·.txId), id ∉ seen := by
  induction reply generalizing seen with
  | nil => simp [checkRepeated]
  | cons entry rest ih =>
    unfold checkRepeated
    rw [guard_eq_ok, ih]
    simp only [List.map_cons, List.nodup_cons, List.mem_cons]
    grind

theorem reconcileTxIds_eq_ok {next : List TxIdAndSize} {ack requested : Nat} {blocking : Bool} :
    reconcileTxIds outstanding ack requested blocking reply = .ok next ↔
      ack ≤ outstanding.length ∧ reply.length ≤ requested ∧
      ¬ (blocking ∧ 0 < requested ∧ reply.length = 0) ∧
      (outstanding.drop ack).length + reply.length ≤ maxUnackedTxIds ∧
      (reply.map (·.txId)).Nodup ∧
      (∀ id ∈ reply.map (·.txId), id ∉ (outstanding.drop ack).map (·.txId)) ∧
      next = outstanding.drop ack ++ reply := by
  unfold reconcileTxIds
  rw [guard_eq_ok, guard_eq_ok, guard_eq_ok,
    guard_eq_ok, seq_eq_ok, checkRepeated_eq_ok, Nat.not_lt, Nat.not_lt, Nat.not_lt, and_assoc]
  have hpure : (pure (outstanding.drop ack ++ reply) : Except Error _) = .ok next ↔
      next = outstanding.drop ack ++ reply :=
    ⟨fun h => (Except.ok.inj h).symm, fun h => congrArg Except.ok h.symm⟩
  rw [hpure]

/-! ## The bodies of a reply -/

section Bodies

variable (decode : UInt16 → List UInt8 → Option DecodedTx)

def checkDuplicates : List TxId → List TxId → Except Error Unit
  | _, [] => .ok ()
  | requestedSet, id :: rest =>
    if id ∈ requestedSet then .error (.duplicateRequest id)
    else checkDuplicates (id :: requestedSet) rest

def sizeDifference (advertised : UInt32) (actual : Nat) : Nat :=
  if actual < advertised.toNat then advertised.toNat - actual else actual - advertised.toNat

structure BodyLoop where
  retainedBytes : Nat := 0
  decodedBytes : Nat := 0
  bodiesById : GoMap TxId TxBody := ∅

/-- One body of the reply. The subtractions do not truncate: each check keeps its sum
below its limit. -/
def validateBody (requested : List TxId) (advertisedSizes : GoMap TxId UInt32) (loop : BodyLoop)
    (body : TxBody) : Except Error BodyLoop :=
  let bodySize := body.txBody.length
  if bodySize = 0 ∨ maxTxSizeBytes < bodySize then .error (.bodySize bodySize)
  else if maxPendingMessageBytes - loop.retainedBytes < bodySize then .error .retainedBytes
  else if maxDecodedTxBytes - loop.decodedBytes < bodySize then .error .decodedBytes
  else
    match decode body.eraId body.txBody with
    | none => .error (.cannotDecode body.eraId)
    | some tx =>
      if tx.type ≠ body.eraId.toNat then .error (.wrongEra tx.type body.eraId)
      else
        let actualId : TxId := ⟨body.eraId, tx.id⟩
        if actualId ∉ requested then .error (.unrequestedBody actualId)
        else if (loop.bodiesById.lookup actualId).isSome then .error (.duplicateBody actualId)
        else
          let accepted : BodyLoop :=
            { retainedBytes := loop.retainedBytes + bodySize
              decodedBytes := loop.decodedBytes + bodySize
              bodiesById := loop.bodiesById.insert actualId body }
          match advertisedSizes.lookup actualId with
          | some advertised =>
            if 32 < sizeDifference advertised bodySize then
              .error (.sizeDiffers actualId advertised bodySize)
            else .ok accepted
          | none => .ok accepted

def validateAndOrderTxBodies (requested : List TxId) (bodies : List TxBody)
    (advertisedSizes : GoMap TxId UInt32) : Except Error (List TxBody) :=
  if maxUnackedTxIds < requested.length then .error (.requestedBodiesLimit requested.length)
  else if requested.length < bodies.length then
    .error (.bodiesExceedRequest bodies.length requested.length)
  else do
    checkDuplicates [] requested
    let loop ← bodies.foldlM (validateBody decode requested advertisedSizes) {}
    pure (requested.filterMap loop.bodiesById.lookup)

/-- The ID of a body: the era it is sent under and the hash of what it decodes to. -/
def TxBody.id (body : TxBody) : Option TxId :=
  match decode body.eraId body.txBody with
  | none => none
  | some tx => if tx.type = body.eraId.toNat then some ⟨body.eraId, tx.id⟩ else none

/-- What the loop asks of each body by itself. -/
structure ValidBody (requested : List TxId) (advertisedSizes : GoMap TxId UInt32) (body : TxBody)
    (id : TxId) : Prop where
  id_eq : body.id decode = some id
  pos : body.txBody.length ≠ 0
  size_le : body.txBody.length ≤ maxTxSizeBytes
  requested : id ∈ requested
  advertised : ∀ size, advertisedSizes.lookup id = some size →
    sizeDifference size body.txBody.length ≤ 32

variable {decode} {requested : List TxId} {advertisedSizes : GoMap TxId UInt32}

theorem checkDuplicates_eq_ok {requestedSet : List TxId} :
    checkDuplicates requestedSet requested = .ok () ↔
      requested.Nodup ∧ ∀ id ∈ requested, id ∉ requestedSet := by
  induction requested generalizing requestedSet with
  | nil => simp [checkDuplicates]
  | cons id rest ih =>
    unfold checkDuplicates
    rw [guard_eq_ok, ih]
    simp only [List.nodup_cons, List.mem_cons]
    grind

variable {loop loop' : BodyLoop}

theorem advertised_eq_ok {id : TxId} {size : Nat} :
    (match advertisedSizes.lookup id with
      | some advertised =>
        if 32 < sizeDifference advertised size then .error (.sizeDiffers id advertised size)
        else .ok loop
      | none => .ok loop : Except Error BodyLoop) = .ok loop' ↔
      (∀ advertised, advertisedSizes.lookup id = some advertised →
        sizeDifference advertised size ≤ 32) ∧ loop' = loop := by
  cases hlookup : advertisedSizes.lookup id with
  | none =>
    constructor
    · intro h
      exact ⟨nofun, (Except.ok.inj h).symm⟩
    · intro h
      rw [h.2]
  | some advertised =>
    rw [guard_eq_ok, Nat.not_lt]
    constructor
    · intro h
      refine ⟨fun other hother => ?_, (Except.ok.inj h.2).symm⟩
      cases hother
      exact h.1
    · intro h
      exact ⟨h.1 advertised rfl, by rw [h.2]⟩

theorem validateBody_eq_ok {body : TxBody} :
    validateBody decode requested advertisedSizes loop body = .ok loop' ↔
      ∃ id, ValidBody decode requested advertisedSizes body id ∧
        body.txBody.length ≤ maxPendingMessageBytes - loop.retainedBytes ∧
        body.txBody.length ≤ maxDecodedTxBytes - loop.decodedBytes ∧
        loop.bodiesById.lookup id = none ∧
        loop' =
          { retainedBytes := loop.retainedBytes + body.txBody.length
            decodedBytes := loop.decodedBytes + body.txBody.length
            bodiesById := loop.bodiesById.insert id body } := by
  unfold validateBody
  rw [guard_eq_ok, guard_eq_ok, guard_eq_ok]
  cases hdecode : decode body.eraId body.txBody with
  | none =>
    constructor
    · rintro ⟨-, -, -, h⟩
      cases h
    · rintro ⟨id, hvalid, -⟩
      have hid := hvalid.id_eq
      unfold TxBody.id at hid
      rw [hdecode] at hid
      cases hid
  | some tx =>
    rw [guard_eq_ok, guard_eq_ok, guard_eq_ok, advertised_eq_ok,
      not_not, not_not, Nat.not_lt, Nat.not_lt, not_or, Nat.not_lt, Option.not_isSome_iff_eq_none]
    constructor
    · rintro ⟨⟨hpos, hsize⟩, hretained, hdecoded, htype, hmem, hnew, hadvertised, hloop⟩
      refine ⟨⟨body.eraId, tx.id⟩, ⟨?_, hpos, hsize, hmem, hadvertised⟩, hretained, hdecoded, hnew,
        hloop⟩
      unfold TxBody.id
      rw [hdecode]
      exact if_pos htype
    · rintro ⟨id, hvalid, hretained, hdecoded, hnew, hloop⟩
      have hid := hvalid.id_eq
      unfold TxBody.id at hid
      rw [hdecode] at hid
      dsimp only at hid
      split at hid
      · rename_i htype
        injection hid with hid
        rw [hid]
        exact ⟨⟨hvalid.pos, hvalid.size_le⟩, hretained, hdecoded, htype, hvalid.requested, hnew,
          hvalid.advertised, hloop⟩
      · cases hid

/-- What the loop asks of the bodies together, from a given state of it. -/
structure AcceptableBodies (decode : UInt16 → List UInt8 → Option DecodedTx)
    (requested : List TxId) (advertisedSizes : GoMap TxId UInt32) (loop : BodyLoop)
    (bodies : List TxBody) : Prop where
  valid : ∀ body ∈ bodies, ∃ id, ValidBody decode requested advertisedSizes body id ∧
    loop.bodiesById.lookup id = none
  distinct : (bodies.map (TxBody.id decode)).Nodup
  retained : loop.retainedBytes + (bodies.map (·.txBody.length)).sum ≤ maxPendingMessageBytes
  decoded : loop.decodedBytes + (bodies.map (·.txBody.length)).sum ≤ maxDecodedTxBytes

variable {bodies bodies' txs : List TxBody}

theorem AcceptableBodies.perm (h : AcceptableBodies decode requested advertisedSizes loop bodies)
    (hperm : bodies'.Perm bodies) :
    AcceptableBodies decode requested advertisedSizes loop bodies' where
  valid := fun body hbody => h.valid body (hperm.mem_iff.mp hbody)
  distinct := (hperm.map _).nodup_iff.mpr h.distinct
  retained := by
    rw [(hperm.map _).sum_eq]
    exact h.retained
  decoded := by
    rw [(hperm.map _).sum_eq]
    exact h.decoded

theorem AcceptableBodies.foldlM_ok
    (h : AcceptableBodies decode requested advertisedSizes loop bodies) :
    ∃ loop', bodies.foldlM (validateBody decode requested advertisedSizes) loop = .ok loop' := by
  induction bodies generalizing loop with
  | nil => exact ⟨loop, rfl⟩
  | cons body rest ih =>
    obtain ⟨hvalid, hdistinct, hretained, hdecoded⟩ := h
    rw [List.map_cons, List.sum_cons] at hretained hdecoded
    rw [List.map_cons, List.nodup_cons] at hdistinct
    obtain ⟨id, hbody, hnew⟩ := hvalid body List.mem_cons_self
    have hstep := validateBody_eq_ok.mpr ⟨id, hbody, (by omega), (by omega), hnew, rfl⟩
    suffices hacceptable : AcceptableBodies decode requested advertisedSizes
        { retainedBytes := loop.retainedBytes + body.txBody.length
          decodedBytes := loop.decodedBytes + body.txBody.length
          bodiesById := loop.bodiesById.insert id body } rest by
      obtain ⟨loop', hrest⟩ := ih hacceptable
      exact ⟨loop', foldlM_cons_eq_ok.mpr ⟨_, hstep, hrest⟩⟩
    refine ⟨fun other hother => ?_, hdistinct.2, ?_, ?_⟩
    · -- The other bodies carry other transactions.
      obtain ⟨id', hother', hnew'⟩ := hvalid other (List.mem_cons_of_mem _ hother)
      refine ⟨id', hother', ?_⟩
      have hne : id' ≠ id := by
        intro heq
        refine hdistinct.1 (List.mem_map.mpr ⟨other, hother, ?_⟩)
        rw [hother'.id_eq, hbody.id_eq, heq]
      rw [GoMap.lookup_insert_ite, if_neg hne]
      exact hnew'
    · dsimp only
      omega
    · dsimp only
      omega

theorem acceptableBodies_of_foldlM (hretained : loop.retainedBytes ≤ maxPendingMessageBytes)
    (hdecoded : loop.decodedBytes ≤ maxDecodedTxBytes)
    (h : bodies.foldlM (validateBody decode requested advertisedSizes) loop = .ok loop') :
    AcceptableBodies decode requested advertisedSizes loop bodies ∧
      ∀ id body, loop'.bodiesById.lookup id = some body ↔
        loop.bodiesById.lookup id = some body ∨ (body ∈ bodies ∧ body.id decode = some id) := by
  induction bodies generalizing loop with
  | nil =>
    rw [foldlM_nil_eq_ok] at h
    rw [← h]
    refine ⟨⟨nofun, List.nodup_nil, hretained, hdecoded⟩, ?_⟩
    simp
  | cons body rest ih =>
    obtain ⟨mid, hstep, hrest⟩ := foldlM_cons_eq_ok.mp h
    obtain ⟨id, hbody, hroom, hroom', hnew, hmid⟩ := validateBody_eq_ok.mp hstep
    have hretained' : mid.retainedBytes = loop.retainedBytes + body.txBody.length := by rw [hmid]
    have hdecoded' : mid.decodedBytes = loop.decodedBytes + body.txBody.length := by rw [hmid]
    have hlookup (id' : TxId) : mid.bodiesById.lookup id' =
        if id' = id then some body else loop.bodiesById.lookup id' := by
      rw [hmid]
      exact GoMap.lookup_insert_ite _ _ _ _
    obtain ⟨hacceptable, hfinal⟩ := ih (by omega) (by omega) hrest
    have hother : ∀ other ∈ rest, ∃ id', ValidBody decode requested advertisedSizes other id' ∧
        id' ≠ id ∧ loop.bodiesById.lookup id' = none := by
      intro other hother
      obtain ⟨id', hvalid, hnone⟩ := hacceptable.valid other hother
      rw [hlookup] at hnone
      by_cases heq : id' = id
      · rw [if_pos heq] at hnone
        cases hnone
      · rw [if_neg heq] at hnone
        exact ⟨id', hvalid, heq, hnone⟩
    have hsum := hacceptable.retained
    have hsum' := hacceptable.decoded
    refine ⟨⟨?_, ?_, ?_, ?_⟩, fun id' other => ?_⟩
    · rw [List.forall_mem_cons]
      refine ⟨⟨id, hbody, hnew⟩, fun other hmem => ?_⟩
      obtain ⟨id', hvalid, -, hnone⟩ := hother other hmem
      exact ⟨id', hvalid, hnone⟩
    · rw [List.map_cons, List.nodup_cons]
      refine ⟨fun hmem => ?_, hacceptable.distinct⟩
      obtain ⟨other, hmem, heq⟩ := List.mem_map.mp hmem
      obtain ⟨id', hvalid, hne, -⟩ := hother other hmem
      rw [hvalid.id_eq, hbody.id_eq] at heq
      exact hne (Option.some.inj heq)
    · rw [List.map_cons, List.sum_cons]
      omega
    · rw [List.map_cons, List.sum_cons]
      omega
    · rw [hfinal, hlookup, List.mem_cons]
      by_cases heq : id' = id
      · rw [if_pos heq, heq, hnew]
        have hid := hbody.id_eq
        grind
      · rw [if_neg heq]
        have hid := hbody.id_eq
        grind

theorem validateAndOrderTxBodies_eq_ok :
    validateAndOrderTxBodies decode requested bodies advertisedSizes = .ok txs ↔
      requested.length ≤ maxUnackedTxIds ∧ bodies.length ≤ requested.length ∧ requested.Nodup ∧
      AcceptableBodies decode requested advertisedSizes {} bodies ∧
      ∃ found : TxId → Option TxBody, txs = requested.filterMap found ∧
        ∀ id body, found id = some body ↔ body ∈ bodies ∧ body.id decode = some id := by
  unfold validateAndOrderTxBodies
  rw [guard_eq_ok, guard_eq_ok, seq_eq_ok, checkDuplicates_eq_ok, Nat.not_lt, Nat.not_lt]
  have hloop (loop : BodyLoop) : bodies.foldlM (validateBody decode requested advertisedSizes) {} =
      .ok loop → AcceptableBodies decode requested advertisedSizes {} bodies ∧
        ∀ id body, loop.bodiesById.lookup id = some body ↔
          body ∈ bodies ∧ body.id decode = some id := by
    intro hfold
    obtain ⟨hacceptable, hfound⟩ := acceptableBodies_of_foldlM (Nat.zero_le _) (Nat.zero_le _) hfold
    refine ⟨hacceptable, fun id body => ?_⟩
    rw [hfound]
    simp
  constructor
  · rintro ⟨hlimit, hlength, ⟨hnodup, -⟩, hrest⟩
    obtain ⟨loop, hfold, hpure⟩ := bind_eq_ok.mp hrest
    obtain ⟨hacceptable, hfound⟩ := hloop loop hfold
    exact ⟨hlimit, hlength, hnodup, hacceptable, loop.bodiesById.lookup,
      (Except.ok.inj hpure).symm, hfound⟩
  · rintro ⟨hlimit, hlength, hnodup, hacceptable, found, htxs, hfound⟩
    obtain ⟨loop, hfold⟩ := hacceptable.foldlM_ok
    refine ⟨hlimit, hlength, ⟨hnodup, by simp⟩, bind_eq_ok.mpr ⟨loop, hfold, ?_⟩⟩
    have hlookup : loop.bodiesById.lookup = found := by
      funext id
      apply Option.ext
      intro body
      rw [(hloop loop hfold).2, hfound]
    rw [hlookup, htxs]
    rfl

theorem validateAndOrderTxBodies_perm
    (h : validateAndOrderTxBodies decode requested bodies advertisedSizes = .ok txs)
    (hperm : bodies'.Perm bodies) :
    validateAndOrderTxBodies decode requested bodies' advertisedSizes = .ok txs := by
  rw [validateAndOrderTxBodies_eq_ok] at h ⊢
  obtain ⟨hlimit, hlength, hnodup, hacceptable, found, htxs, hfound⟩ := h
  refine ⟨hlimit, hperm.length_eq.le.trans hlength, hnodup, hacceptable.perm hperm, found, htxs,
    fun id body => ?_⟩
  rw [hfound, hperm.mem_iff]

theorem filterMap_forall₂ (found : TxId → Option TxBody) (ids : List TxId) :
    List.Forall₂ (fun id body => found id = some body)
      (ids.filter fun id => (found id).isSome) (ids.filterMap found) := by
  induction ids with
  | nil => exact .nil
  | cons id rest ih =>
    cases hfound : found id with
    | none =>
      rw [List.filter_cons_of_neg (by simp [hfound]), List.filterMap_cons_none hfound]
      exact ih
    | some body =>
      rw [List.filter_cons_of_pos (by simp [hfound]), List.filterMap_cons_some hfound]
      exact .cons hfound ih

/-- The result of an accepted reply holds the bodies of the reply, in the order of the
request, each valid for the ID it stands for. -/
theorem acceptedBodies
    (h : validateAndOrderTxBodies decode requested bodies advertisedSizes = .ok txs) :
    txs.Perm bodies ∧ ∃ ids, ids.Sublist requested ∧ ids.Nodup ∧
      List.Forall₂ (fun id tx => ValidBody decode requested advertisedSizes tx id) ids txs := by
  obtain ⟨-, -, hnodup, hacceptable, found, htxs, hfound⟩ := validateAndOrderTxBodies_eq_ok.mp h
  have hvalid (id : TxId) (body : TxBody) (hbody : found id = some body) :
      ValidBody decode requested advertisedSizes body id := by
    obtain ⟨hmem, hid⟩ := (hfound id body).mp hbody
    obtain ⟨id', hvalid, -⟩ := hacceptable.valid body hmem
    have heq : id' = id := by
      rw [hvalid.id_eq] at hid
      exact Option.some.inj hid
    rw [← heq]
    exact hvalid
  refine ⟨?_, requested.filter fun id => (found id).isSome, List.filter_sublist,
    hnodup.filter _, ?_⟩
  · have hbodies : bodies.Nodup := List.Nodup.of_map _ hacceptable.distinct
    have hinjective : ∀ id id' body, body ∈ found id → body ∈ found id' → id = id' := by
      intro id id' body hid hid'
      have hid := ((hfound id body).mp hid).2
      rw [((hfound id' body).mp hid').2] at hid
      exact (Option.some.inj hid).symm
    rw [htxs, List.perm_ext_iff_of_nodup (hnodup.filterMap hinjective) hbodies]
    intro body
    rw [List.mem_filterMap]
    constructor
    · rintro ⟨id, -, hid⟩
      exact ((hfound id body).mp hid).1
    · intro hmem
      obtain ⟨id, hvalid, -⟩ := hacceptable.valid body hmem
      exact ⟨id, hvalid.requested, (hfound id body).mpr ⟨hmem, hvalid.id_eq⟩⟩
  · rw [htxs]
    exact (filterMap_forall₂ found requested).imp hvalid

end Bodies

end Gouroboros.Protocol.TxSubmission

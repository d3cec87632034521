import Mathlib.Data.List.Chain
import Gouroboros.Protocol.BlockFetch.Range.Outcome

/-!
# The blocks delivered for a range

`recordBlock` compares each block with the last one recorded, and the lock is released between the
record and the delivery. `Placed` relates the blocks handed over to the record of the request: while
the request is queued the last recorded block is the last one handed over, or the one the handler
holds. A request completed with no error was completed by `handleBatchDone`, which saw the end of
the range recorded (`range_delivers_segment`).
-/

namespace Gouroboros.Protocol.BlockFetch.Range

variable {cfg : Config} {codec : Codec} {c c' : Client}

/-! ## Segments -/

/-- The blocks begin the chain segment from `start` to `endPoint`. -/
structure Segment (start endPoint : Point) (blocks : List Delivered) : Prop where
  first : ∀ b ∈ blocks.head?, pointsEqual b.info.point start = true
  linked : blocks.IsChain fun a b =>
    b.info.prevHash = a.info.point.bytes ∧ a.info.point.slot ≤ b.info.point.slot
  bounds : ∀ b ∈ blocks, start.slot ≤ b.info.point.slot ∧ b.info.point.slot ≤ endPoint.slot
  end_last : ∀ b ∈ blocks.dropLast, pointsEqual b.info.point endPoint = false

/-- The blocks begin the range asked for, and the record has the last of them. -/
structure Synced (req : RangeRequest) (blocks : List Delivered) : Prop where
  segment : Segment req.start req.endPoint blocks
  hasLast : req.hasLastPoint = !blocks.isEmpty
  last : ∀ b ∈ blocks.getLast?, req.lastPoint = b.info.point

def Hashed (req : RangeRequest) : Prop := req.start.hash.isSome ∧ req.endPoint.hash.isSome

theorem segment_nil (start endPoint : Point) : Segment start endPoint [] :=
  ⟨by simp, List.isChain_nil, by simp, by simp⟩

variable {req req' : RangeRequest}

theorem Synced.record {blocks : List Delivered} {block : Delivered} (h : Synced req blocks)
    (hashed : Hashed req)
    (hrecord : req.recordBlock block.info.point block.info.prevHash = .ok req') :
    Synced req' (blocks ++ [block]) := by
  obtain ⟨⟨hfirst, hlinked, hbounds, hend⟩, hhas, hlast⟩ := h
  obtain ⟨hstart, hendHash⟩ := hashed
  obtain ⟨rfl, hrange, hfirstBlock, hnextBlock⟩ := recordBlock_eq_ok hrecord
  have hbound : req.start.slot ≤ block.info.point.slot ∧ block.info.point.slot ≤ req.endPoint.slot := by
    simpa [pointInRange, Option.isSome_iff_ne_none.mp hstart, Option.isSome_iff_ne_none.mp hendHash]
      using hrange
  -- the record has the last of the blocks, if there is one
  have hnext : ∀ a ∈ blocks.getLast?, pointsEqual a.info.point req.endPoint = false ∧
      block.info.prevHash = a.info.point.bytes ∧ a.info.point.slot ≤ block.info.point.slot := by
    intro a ha
    have hsome : req.hasLastPoint = true := by
      rw [hhas]
      cases blocks with
      | nil => cases ha
      | cons => rfl
    rw [← hlast a ha]
    exact ⟨(hnextBlock hsome).1 hendHash, (hnextBlock hsome).2⟩
  have hnew : blocks = [] → pointsEqual block.info.point req.start := by
    intro hnil
    rw [hnil] at hhas
    exact hfirstBlock hhas hstart
  refine ⟨⟨?_, ?_, ?_, ?_⟩, by simp, by simp⟩
  · cases blocks with
    | nil => simpa using hnew rfl
    | cons a rest => exact hfirst
  · rw [List.isChain_append]
    refine ⟨hlinked, List.isChain_singleton _, ?_⟩
    rintro a ha b ⟨⟩
    exact (hnext a ha).2
  · intro b hb
    rcases List.mem_append.mp hb with hb | hb
    · exact hbounds b hb
    · rw [List.mem_singleton.mp hb]
      exact hbound
  · rw [List.dropLast_concat]
    intro b hb
    rcases blocks.eq_nil_or_concat' with rfl | ⟨init, last, rfl⟩
    · exact absurd hb List.not_mem_nil
    · rw [List.dropLast_concat] at hend
      rcases List.mem_append.mp hb with hb | hb
      · exact hend b hb
      · rw [List.mem_singleton.mp hb]
        exact (hnext last List.getLast?_concat).1

/-! ## What is recorded and what is delivered -/

/-- The block that the handler holds for `r`. -/
def pending (r : Nat) : Handler → List Delivered
  | .recorded q block => if q = r then [block] else []
  | _ => []

/-- The sizes that the handler has charged to `r` for a block not yet delivered. -/
def held (r : Nat) : Handler → List UInt64
  | .claimed q msg => if q = r then [msg.encodedBytes] else []
  | .recorded q block => if q = r then [block.encodedBytes] else []
  | _ => []

/-- The handler can still record or deliver a block of `r`, or complete it. -/
def Handler.WorksOn (r : Nat) : Handler → Prop
  | claimed q _ | recorded q _ | fencing q => q = r
  | _ => False

/-- The handler has seen the end of the range recorded. -/
def Handler.Completes (r : Nat) : Handler → Prop
  | fencing q | reporting q | resolving q none _ => q = r
  | _ => False

def Handler.Fails (r : Nat) : Handler → Prop
  | failing q _ => q = r
  | _ => False

/-- The last block handed over is the end of the range. -/
def Complete (req : RangeRequest) : Prop :=
  ∃ last ∈ req.delivered.getLast?, pointsEqual last.info.point req.endPoint = true

theorem held_claimed (r : Nat) (msg : MsgBlock) : held r (.claimed r msg) = [msg.encodedBytes] :=
  if_pos rfl

theorem held_recorded (r : Nat) (block : Delivered) :
    held r (.recorded r block) = [block.encodedBytes] :=
  if_pos rfl

theorem pending_recorded (r : Nat) (block : Delivered) : pending r (.recorded r block) = [block] :=
  if_pos rfl

structure Placed (cfg : Config) (r : Nat) (req : RangeRequest) (handler : Handler)
    (queue : List Nat) : Prop where
  blocks : req.delivered.length + (held r handler).length ≤ req.blocksReceived.toNat
  maxBlocks : req.blocksReceived ≤ maxBlocksPerRange cfg
  bytes : (req.delivered.map (·.encodedBytes.toNat)).sum + ((held r handler).map (·.toNat)).sum ≤
    req.bytesReceived.toNat
  maxBytes : req.bytesReceived ≤ maxRangeBytes cfg
  atHead : handler.request = some r → r ∈ queue → queue.head? = some r
  segment : Hashed req → Segment req.start req.endPoint req.delivered
  synced : Hashed req → (r ∈ queue ∧ ¬ handler.Fails r) ∨ handler.WorksOn r →
    Synced req (req.delivered ++ pending r handler)
  complete : Hashed req → handler.Completes r ∨ req.resolved = some none → Complete req
  out : handler.Owns r ∨ req.resolved = some none → r ∉ queue
  done : req.resolved = some none → ¬ handler.WorksOn r

variable {r : Nat}

/-- What holds of a handler that is not at `r`. -/
structure Handler.Away (r : Nat) (h : Handler) : Prop where
  held : held r h = []
  pending : pending r h = []
  works : ¬ h.WorksOn r
  completes : ¬ h.Completes r
  fails : ¬ h.Fails r
  owns : ¬ h.Owns r

theorem Handler.away {h : Handler} (hr : h.request ≠ some r) : h.Away r := by
  have hne (q : Nat) (hq : h.request = some q) : q ≠ r := fun heq => hr (heq ▸ hq)
  cases h with
  | idle | stopped => exact ⟨rfl, rfl, id, id, id, id⟩
  | claimed q => exact ⟨if_neg (hne q rfl), rfl, hne q rfl, id, id, id⟩
  | recorded q => exact ⟨if_neg (hne q rfl), if_neg (hne q rfl), hne q rfl, id, id, id⟩
  | fencing q => exact ⟨rfl, rfl, hne q rfl, hne q rfl, id, id⟩
  | reporting q => exact ⟨rfl, rfl, id, hne q rfl, id, hne q rfl⟩
  | failing q => exact ⟨rfl, rfl, id, id, hne q rfl, id⟩
  | resolving q outcome =>
    cases outcome with
    | none => exact ⟨rfl, rfl, id, hne q rfl, id, hne q rfl⟩
    | some => exact ⟨rfl, rfl, id, id, id, hne q rfl⟩

theorem Handler.Owns.idle {h : Handler} (hown : h.Owns r) : held r h = [] ∧ ¬ h.WorksOn r := by
  cases h with
  | reporting | resolving => exact ⟨rfl, id⟩
  | idle | stopped | claimed | recorded | fencing | failing => exact hown.elim

/-- The fields that `Placed` reads, apart from the outcome. -/
structure SameProgress (req req' : RangeRequest) : Prop where
  terms : req'.toRangeTerms = req.toRangeTerms
  lastPoint : req'.lastPoint = req.lastPoint
  hasLastPoint : req'.hasLastPoint = req.hasLastPoint
  blocksReceived : req'.blocksReceived = req.blocksReceived
  bytesReceived : req'.bytesReceived = req.bytesReceived
  delivered : req'.delivered = req.delivered

variable {handler handler' : Handler} {queue queue' : List Nat}

theorem SameProgress.hashed (h : SameProgress req req') : Hashed req' → Hashed req := by
  rw [Hashed, Hashed, h.terms]
  exact id

theorem SameProgress.complete (h : SameProgress req req') (hcomplete : Complete req) :
    Complete req' := by
  rw [Complete, h.delivered, h.terms]
  exact hcomplete

theorem Synced.congr {blocks : List Delivered} (h : Synced req blocks) (hsame : SameProgress req req') :
    Synced req' blocks :=
  ⟨hsame.terms ▸ h.segment, hsame.hasLastPoint ▸ h.hasLast, hsame.lastPoint ▸ h.last⟩

theorem Placed.same (h : Placed cfg r req handler queue) (hsame : SameProgress req req') :
    req'.delivered.length ≤ req'.blocksReceived.toNat ∧ req'.blocksReceived ≤ maxBlocksPerRange cfg ∧
      (req'.delivered.map (·.encodedBytes.toNat)).sum ≤ req'.bytesReceived.toNat ∧
      req'.bytesReceived ≤ maxRangeBytes cfg ∧
      (Hashed req' → Segment req'.start req'.endPoint req'.delivered) := by
  rw [hsame.delivered, hsame.blocksReceived, hsame.bytesReceived, hsame.terms]
  exact ⟨Nat.le_of_add_right_le h.blocks, h.maxBlocks, Nat.le_of_add_right_le h.bytes, h.maxBytes,
    fun hashed => h.segment (hsame.hashed hashed)⟩

/-- The handler stays where it is, or comes to no work on `r` and held nothing for it. -/
theorem Placed.frame (h : Placed cfg r req handler queue) (hsame : SameProgress req req')
    (hresolved : req'.resolved = some none → req.resolved = some none)
    (hhandler : handler' = handler ∨
      (handler'.request ≠ some r ∧ (handler.request ≠ some r ∨ (handler.Fails r ∧ r ∉ queue'))))
    (hqueue : r ∈ queue' → r ∈ queue)
    (hhead : queue.head? = some r → r ∈ queue' → queue'.head? = some r) :
    Placed cfg r req' handler' queue' := by
  obtain ⟨hblocks, hmaxBlocks, hbytes, hmaxBytes, hsegment⟩ := h.same hsame
  rcases hhandler with rfl | ⟨haway, hbefore⟩
  · refine ⟨?_, hmaxBlocks, ?_, hmaxBytes, fun hat hmem => hhead (h.atHead hat (hqueue hmem)) hmem,
      hsegment, fun hashed hor => ?_, fun hashed hor => ?_, fun hor hmem => ?_, fun hnone => ?_⟩
    · rw [hsame.delivered, hsame.blocksReceived]
      exact h.blocks
    · rw [hsame.delivered, hsame.bytesReceived]
      exact h.bytes
    · rw [hsame.delivered]
      exact (h.synced (hsame.hashed hashed) (hor.imp_left (And.imp_left hqueue))).congr hsame
    · exact hsame.complete (h.complete (hsame.hashed hashed) (hor.imp_right hresolved))
    · exact h.out (hor.imp_right hresolved) (hqueue hmem)
    · exact h.done (hresolved hnone)
  · have hafter := Handler.away haway
    refine ⟨?_, hmaxBlocks, ?_, hmaxBytes, fun hat => absurd hat haway, hsegment,
      fun hashed hor => ?_, fun hashed hor => ?_, fun hor hmem => ?_, fun _ => hafter.works⟩
    · rw [hafter.held]
      exact hblocks
    · rw [hafter.held]
      exact hbytes
    · have hmem := (hor.resolve_right hafter.works).1
      have hfree := Handler.away (hbefore.resolve_right fun hfails => hfails.2 hmem)
      have hsynced := h.synced (hsame.hashed hashed) (Or.inl ⟨hqueue hmem, hfree.fails⟩)
      rw [hfree.pending] at hsynced
      rw [hsame.delivered, hafter.pending]
      exact hsynced.congr hsame
    · have hnone := hresolved (hor.resolve_left hafter.completes)
      exact hsame.complete (h.complete (hsame.hashed hashed) (Or.inr hnone))
    · exact h.out (Or.inr (hresolved (hor.resolve_left hafter.owns))) (hqueue hmem)

theorem SameProgress.refl (req : RangeRequest) : SameProgress req req :=
  ⟨rfl, rfl, rfl, rfl, rfl, rfl⟩

theorem SameProgress.update (h : SameProgress (c.request r) req)
    (x : Nat) : SameProgress (c.request x) (Function.update c.request r req x) := by
  by_cases hx : x = r
  · subst hx
    rwa [Function.update_self]
  · rw [Function.update_of_ne hx]
    exact .refl _

theorem sameProgress_afterResolve (outcome : Option ClientError) (req : RangeRequest) :
    SameProgress req (Client.afterResolve cfg outcome req) := by
  unfold Client.afterResolve
  split
  · exact .refl req
  · exact ⟨rfl, rfl, rfl, rfl, rfl, rfl⟩

theorem resolved_afterResolve {outcome : Option ClientError} {req : RangeRequest}
    (h : (Client.afterResolve cfg outcome req).resolved = some none) :
    req.resolved = some none ∨ outcome = none := by
  unfold Client.afterResolve at h
  split at h
  · exact Or.inl h
  · exact Or.inr (Option.some.inj h)

/-- The handler goes on to `failRequest`, or to the next message. -/
theorem Placed.fails (h : Placed cfg r req handler queue) (err : ClientError)
    (hat : r ∈ queue → queue.head? = some r) : Placed cfg r req (.failing r err) queue where
  blocks := Nat.le_of_add_right_le h.blocks
  maxBlocks := h.maxBlocks
  bytes := Nat.le_of_add_right_le h.bytes
  maxBytes := h.maxBytes
  atHead _ := hat
  segment := h.segment
  synced _ hor := absurd rfl (hor.resolve_right id).2
  complete hashed hor := h.complete hashed (Or.inr (hor.resolve_left id))
  out hor := h.out (Or.inr (hor.resolve_left id))
  done _ := id

theorem Placed.charged {now : Nat} {msg : MsgBlock} (h : Placed cfg r req .idle queue)
    (hcharge : req.chargeBlock now msg.encodedBytes (maxBlocksPerRange cfg) (maxRangeBytes cfg) = .ok req') :
    Placed cfg r req' .idle queue ∧
      (queue.head? = some r → Placed cfg r req' (.claimed r msg) queue) := by
  have hmaxBytes := h.maxBytes
  have hblocks : req.delivered.length ≤ req.blocksReceived.toNat := h.blocks
  have hbytes : (req.delivered.map (·.encodedBytes.toNat)).sum ≤ req.bytesReceived.toNat := h.bytes
  obtain ⟨hfitsBlocks, hfitsBytes, rfl⟩ := chargeBlock_eq_ok hcharge
  have hroom : req.blocksReceived.toNat < (maxBlocksPerRange cfg).toNat ∧
      req.bytesReceived.toNat + msg.encodedBytes.toNat ≤ (maxRangeBytes cfg).toNat := by
    have hsub := UInt64.toNat_sub_of_le _ _ hmaxBytes
    rw [UInt64.lt_iff_toNat_lt] at hfitsBlocks
    rw [UInt64.le_iff_toNat_le] at hfitsBytes
    have := UInt64.le_iff_toNat_le.mp hmaxBytes
    omega
  have hcount : (req.blocksReceived + 1).toNat = req.blocksReceived.toNat + 1 := by
    have := (maxBlocksPerRange cfg).toNat_lt
    rw [UInt64.toNat_add, UInt64.toNat_one, Nat.mod_eq_of_lt (by omega)]
  have hsum : (req.bytesReceived + msg.encodedBytes).toNat =
      req.bytesReceived.toNat + msg.encodedBytes.toNat := by
    have := (maxRangeBytes cfg).toNat_lt
    rw [UInt64.toNat_add, Nat.mod_eq_of_lt (by omega)]
  have hle : req.blocksReceived + 1 ≤ maxBlocksPerRange cfg := by
    rw [UInt64.le_iff_toNat_le]
    omega
  have hbytesLe : req.bytesReceived + msg.encodedBytes ≤ maxRangeBytes cfg := by
    rw [UInt64.le_iff_toNat_le]
    omega
  have hsync : Hashed req → r ∈ queue → Synced { req with
      blocksReceived := req.blocksReceived + 1
      bytesReceived := req.bytesReceived + msg.encodedBytes } (req.delivered ++ []) := by
    intro hashed hmem
    obtain ⟨hsegment, hhas, hlast⟩ := h.synced hashed (Or.inl ⟨hmem, id⟩)
    exact ⟨hsegment, hhas, hlast⟩
  refine ⟨⟨?_, hle, ?_, hbytesLe, h.atHead, h.segment,
    fun hashed hor => hsync hashed (hor.resolve_right id).1, h.complete, h.out, h.done⟩, fun hhead =>
    have hmem := List.mem_of_mem_head? hhead
    ⟨?_, hle, ?_, hbytesLe, fun _ _ => hhead, h.segment, fun hashed _ => hsync hashed hmem,
      h.complete, h.out, fun hnone => absurd hmem (h.out (Or.inr hnone))⟩⟩
  · exact Nat.le_trans hblocks (hcount ▸ Nat.le_succ _)
  · exact Nat.le_trans hbytes (hsum ▸ Nat.le_add_right ..)
  · rw [held_claimed, hcount]
    exact Nat.succ_le_succ hblocks
  · rw [held_claimed, hsum]
    exact Nat.add_le_add_right hbytes _

theorem Placed.recorded {msg : MsgBlock} {info : HeaderInfo}
    (h : Placed cfg r req (.claimed r msg) queue)
    (hrecord : req.recordBlock info.point info.prevHash = .ok req') :
    Placed cfg r req' (.recorded r ⟨info, msg.encodedBytes⟩) queue := by
  have hsync (hashed : Hashed req) : Synced req' (req.delivered ++ [] ++ [⟨info, msg.encodedBytes⟩]) :=
    (h.synced hashed (Or.inr rfl)).record hashed hrecord
  rw [List.append_nil] at hsync
  have hblocks := h.blocks
  have hbytes := h.bytes
  rw [held_claimed] at hblocks hbytes
  obtain ⟨rfl, -⟩ := recordBlock_eq_ok hrecord
  refine ⟨?_, h.maxBlocks, ?_, h.maxBytes, h.atHead, h.segment, fun hashed _ => ?_, h.complete,
    h.out, h.done⟩
  · rw [held_recorded]
    exact hblocks
  · rw [held_recorded]
    exact hbytes
  · rw [pending_recorded]
    exact hsync hashed

theorem Placed.delivered {block : Delivered} (h : Placed cfg r req (.recorded r block) queue) :
    Placed cfg r { req with delivered := req.delivered ++ [block] } .idle queue := by
  have hblocks := h.blocks
  have hbytes := h.bytes
  rw [held_recorded] at hblocks hbytes
  have hsync (hashed : Hashed req) : Synced req (req.delivered ++ [block]) := by
    have hsynced := h.synced hashed (Or.inr rfl)
    rwa [pending_recorded] at hsynced
  refine ⟨?_, h.maxBlocks, ?_, h.maxBytes, nofun, fun hashed => (hsync hashed).segment,
    fun hashed _ => ?_, fun _ hor => absurd rfl (h.done (hor.resolve_left id)), h.out, fun _ => id⟩
  · rw [List.length_append]
    exact hblocks
  · rw [List.map_append, List.sum_append]
    exact hbytes
  · obtain ⟨hsegment, hhas, hlast⟩ := hsync hashed
    exact (List.append_nil (req.delivered ++ [block])).symm ▸ ⟨hsegment, hhas, hlast⟩

theorem Placed.fencing (h : Placed cfg r req .idle queue) (hhead : queue.head? = some r)
    (hlast : req.hasLastPoint) (hends : pointsEqual req.lastPoint req.endPoint) :
    Placed cfg r req (.fencing r) queue := by
  have hmem := List.mem_of_mem_head? hhead
  have hends : Hashed req → Complete req := by
    intro hashed
    obtain ⟨-, hhas, hpoint⟩ := h.synced hashed (Or.inl ⟨hmem, id⟩)
    change req.hasLastPoint = !(req.delivered ++ []).isEmpty at hhas
    change ∀ b ∈ (req.delivered ++ []).getLast?, req.lastPoint = b.info.point at hpoint
    rw [List.append_nil] at hhas hpoint
    cases hlastBlock : req.delivered.getLast? with
    | none =>
      rw [List.getLast?_eq_none_iff.mp hlastBlock, hlast] at hhas
      cases hhas
    | some b => exact ⟨b, hlastBlock, hpoint b hlastBlock ▸ hends⟩
  exact ⟨h.blocks, h.maxBlocks, h.bytes, h.maxBytes, fun _ _ => hhead, h.segment,
    fun hashed _ => h.synced hashed (Or.inl ⟨hmem, id⟩), fun hashed _ => hends hashed, h.out,
    fun hnone => absurd hmem (h.out (Or.inr hnone))⟩

/-! ## Every step -/

theorem Client.request_handler_finish (c : Client) (ret : Option ClientError) (x : Nat) :
    (c.finish ret).handler.request ≠ some x := by
  cases ret <;> exact nofun

def AllPlaced (cfg : Config) (c : Client) : Prop :=
  ∀ r < c.count, Placed cfg r (c.request r) c.handler c.queue

theorem AllPlaced.at_request (h : AllPlaced cfg c) (hself : Placed cfg r req handler queue)
    (hbefore : ∀ x, c.handler.request = some x → x = r)
    (hafter : ∀ x, handler.request = some x → x = r)
    (hqueue : queue = c.queue ∨ queue = c.queue.erase r) (x : Nat) (hx : x < c.count) :
    Placed cfg x (Function.update c.request r req x) handler queue := by
  by_cases heq : x = r
  · subst heq
    rwa [Function.update_self]
  · rw [Function.update_of_ne heq]
    have hhead : c.queue.head? = some x → (c.queue.erase r).head? = some x := by
      cases c.queue with
      | nil => exact nofun
      | cons a rest =>
        rintro ⟨⟩
        rw [List.erase_cons_tail (by simpa using heq)]
        rfl
    refine (h x hx).frame (.refl _) id (Or.inr ⟨fun hat => heq (hafter x hat),
      Or.inl fun hat => heq (hbefore x hat)⟩) ?_ ?_
    · rcases hqueue with rfl | rfl
      · exact id
      · exact List.mem_of_mem_erase
    · rcases hqueue with rfl | rfl
      · exact fun hfirst _ => hfirst
      · exact fun hfirst _ => hhead hfirst

theorem AllPlaced.work (h : AllPlaced cfg c) (hreported : Reported cfg c)
    (hwork : Work cfg codec c c') : AllPlaced cfg c' := by
  have hqueued : ∀ r, c.queue.head? = some r → r < c.count := fun r hr =>
    hreported.accounted.lt_count (List.mem_of_mem_head? hr)
  cases hwork with
  | returned ret at_ eq =>
    subst eq
    intro x hx
    refine (h x hx).frame (.refl _) id (Or.inr ⟨c.request_handler_finish ret x, ?_⟩) id fun h _ => h
    by_cases hat : c.handler.request = some x
    · obtain ⟨hne, err, hfail⟩ := at_ x hat
      exact Or.inr ⟨by rw [hfail]; rfl, fun hmem => hne ((h x hx).atHead hat hmem)⟩
    · exact Or.inl hat
  | started r eq =>
    subst eq
    intro x hx
    have hsame : SameProgress (c.request r) { c.request r with started := true } :=
      ⟨rfl, rfl, rfl, rfl, rfl, rfl⟩
    refine (h x hx).frame (hsame.update x) ?_ (Or.inl rfl) id fun h _ => h
    change (Function.update c.request r _ x).resolved = some none → _
    rw [(sameOutcome_update (by exact ⟨rfl, rfl, rfl, rfl⟩) x).resolved]
    exact id
  | failing r err at_ eq =>
    subst eq
    have hr : r < c.count := at_.elim (fun hat => hqueued r hat.1) (hreported.handler_lt r)
    have hself := (h r hr).fails err fun hmem => at_.elim And.left fun hat => (h r hr).atHead hat hmem
    rw [← Function.update_eq_self r c.request]
    refine h.at_request hself (fun x hx => ?_) (by rintro x ⟨⟩; rfl) (Or.inl rfl)
    rcases at_ with hat | hat
    · rw [hat.2] at hx
      cases hx
    · exact Option.some.inj (hx.symm.trans hat)
  | refused r msg now req ret idle head charged eq =>
    subst eq
    have hbefore := h r (hqueued r head)
    rw [idle] at hbefore
    have hself : Placed cfg r req (c.finish ret).handler c.queue :=
      (hbefore.charged charged).1.frame (.refl _) id
        (Or.inr ⟨c.request_handler_finish ret r, Or.inl nofun⟩) id fun h _ => h
    exact h.at_request hself (by rw [idle]; exact nofun)
      (fun x hx => absurd hx (c.request_handler_finish ret x)) (Or.inl rfl)
  | claimed r msg now req single idle head charged eq =>
    subst eq
    have hbefore := h r (hqueued r head)
    rw [idle] at hbefore
    have hself := (hbefore.charged charged).2 head
    have hsame : SameProgress req { req with blockDelivered := single } := ⟨rfl, rfl, rfl, rfl, rfl, rfl⟩
    exact h.at_request (hself.frame hsame id (Or.inl rfl) id fun h _ => h)
      (by rw [idle]; exact nofun) (by rintro x ⟨⟩; rfl) (Or.inl rfl)
  | recorded r msg info req at_ record eq =>
    subst eq
    have hbefore := h r (hreported.handler_lt r (by rw [at_]; rfl))
    rw [at_] at hbefore
    exact h.at_request (hbefore.recorded record) (by rw [at_]; rintro x ⟨⟩; rfl)
      (by rintro x ⟨⟩; rfl) (Or.inl rfl)
  | delivered r block next mu at_ goes eq =>
    subst eq
    have hbefore := h r (hreported.handler_lt r (by rw [at_]; rfl))
    rw [at_] at hbefore
    have hidle := hbefore.delivered
    have hat : ∀ x, c.handler.request = some x → x = r := by rw [at_]; rintro x ⟨⟩; rfl
    rcases goes with rfl | ⟨err, rfl⟩
    · exact h.at_request hidle hat nofun (Or.inl rfl)
    · exact h.at_request (hidle.fails err (hbefore.atHead rfl)) hat (by rintro x ⟨⟩; rfl)
        (Or.inl rfl)
  | fencing r idle head last ends eq =>
    subst eq
    have hbefore := h r (hqueued r head)
    rw [idle] at hbefore
    rw [← Function.update_eq_self r c.request]
    exact h.at_request (hbefore.fencing head last ends) (by rw [idle]; exact nofun)
      (by rintro x ⟨⟩; rfl) (Or.inl rfl)

/-- The handler has taken `r` off the queue: it retires it, or completes what it saw to be
complete. -/
theorem Placed.leaves (h : Placed cfg r req handler queue) (hsame : SameProgress req req')
    (hresolved : req'.resolved = some none → req.resolved = some none ∨ handler.Completes r)
    (hcompletes : handler'.Completes r → handler.Completes r) (hheld : held r handler' = [])
    (hworks : ¬ handler'.WorksOn r) (hgone : r ∉ queue') : Placed cfg r req' handler' queue' := by
  obtain ⟨hblocks, hmaxBlocks, hbytes, hmaxBytes, hsegment⟩ := h.same hsame
  refine ⟨?_, hmaxBlocks, ?_, hmaxBytes, fun _ hmem => absurd hmem hgone, hsegment,
    fun _ hor => absurd (hor.resolve_right hworks).1 hgone, fun hashed hor => ?_, fun _ => hgone,
    fun _ => hworks⟩
  · rw [hheld]
    exact hblocks
  · rw [hheld]
    exact hbytes
  · refine hsame.complete (h.complete (hsame.hashed hashed) ?_)
    exact hor.elim (fun hnow => Or.inl (hcompletes hnow)) fun hnone => (hresolved hnone).symm

theorem head?_of_sublist {shorter : List Nat} (hsub : shorter.Sublist queue) (hnodup : queue.Nodup)
    (hhead : queue.head? = some r) (hmem : r ∈ shorter) : shorter.head? = some r := by
  cases queue with
  | nil => cases hhead
  | cons a rest =>
    cases hhead
    rcases List.sublist_cons_iff.mp hsub with hrest | ⟨kept, rfl, -⟩
    · exact absurd (hrest.subset hmem) (List.nodup_cons.mp hnodup).1
    · rfl

theorem AllPlaced.retains (h : AllPlaced cfg c) (hnodup : c.queue.Nodup)
    (hretains : Client.Retains c c') : AllPlaced cfg c' := by
  intro x hx
  rw [hretains.request, hretains.handler]
  exact (h x (hretains.count ▸ hx)).frame (.refl _) id (Or.inl rfl)
    (fun hmem => hretains.queue.subset hmem) (head?_of_sublist hretains.queue hnodup)

theorem AllPlaced.takes {mid : Client} (h : AllPlaced cfg c) (hreported : Reported cfg c)
    (hr : r < c.count) (hmid : mid.request = Function.update c.request r req)
    (hqueue : mid.queue = c.queue) (hcount : mid.count = c.count)
    (hsame : SameProgress (c.request r) req) (hresolved : req.resolved = (c.request r).resolved)
    (hbefore : ∀ x, c.handler.request = some x → x = r) (hafter : handler.Owns r)
    (hcompletes : handler.Completes r → c.handler.Completes r) :
    AllPlaced cfg { mid.removeLocked r with handler := handler } := by
  have hretains := mid.retains_removeLocked r
  have hidle := hafter.idle
  have hself : Placed cfg r req handler (c.queue.erase r) :=
    (h r hr).leaves hsame (fun hnone => Or.inl (hresolved ▸ hnone)) hcompletes hidle.1 hidle.2
      hreported.accounted.queue_nodup.not_mem_erase
  intro x hx
  rw [hretains.request, mid.queue_removeLocked, hmid, hqueue]
  refine h.at_request hself hbefore ?_ (Or.inr rfl) x ?_
  · intro y hy
    exact Option.some.inj (hy.symm.trans hafter.request)
  · exact hcount ▸ hretains.count ▸ hx

theorem AllPlaced.step {action : Action} (h : AllPlaced cfg c) (hreported : Reported cfg c)
    (hstep : step cfg codec c action = some c') : AllPlaced cfg c' := by
  have hnodup := hreported.accounted.queue_nodup
  cases step_effect hstep with
  | gone eq | messageSent r at_ eq => exact eq ▸ h
  | work free work => exact h.work hreported work
  | take r outcome ret hmem at_ free eq =>
    subst eq
    exact h.takes hreported (hreported.accounted.lt_count hmem)
      (Function.update_eq_self r c.request).symm rfl rfl (.refl _) rfl at_ rfl nofun
  | complete r fenceErr fence passed at_ eq =>
    subst eq
    have hr : r < c.count := hreported.handler_lt r (by rw [at_]; rfl)
    have hat : ∀ x, c.handler.request = some x → x = r := by rw [at_]; rintro x ⟨⟩; rfl
    have hfenced : c.handler.Completes r := by rw [at_]; rfl
    unfold Client.completeBatch
    split
    · exact h.takes hreported hr rfl rfl rfl (by exact ⟨rfl, rfl, rfl, rfl, rfl, rfl⟩) rfl hat
        rfl fun _ => hfenced
    · exact h.takes hreported hr (Function.update_eq_self r c.request).symm rfl rfl (.refl _) rfl
        hat rfl fun _ => hfenced
  | report r callbackErr at_ eq =>
    subst eq
    have hr : r < c.count := hreported.handler_lt r (by rw [at_]; rfl)
    have hself : Placed cfg r { c.request r with
        reports := (c.request r).reports ++ [.batchDone none] }
        (.resolving r (callbackErr.map .callback) (callbackErr.map .callback)) c.queue :=
      (h r hr).leaves (by exact ⟨rfl, rfl, rfl, rfl, rfl, rfl⟩) Or.inl
        (fun _ => by rw [at_]; rfl) rfl id ((h r hr).out (Or.inl (by rw [at_]; rfl)))
    exact h.at_request hself (by rw [at_]; rintro x ⟨⟩; rfl) (by rintro x ⟨⟩; rfl) (Or.inl rfl)
  | resolve r outcome ret last at_ eq =>
    subst eq
    have hr : r < c.count := hreported.handler_lt r (by rw [at_]; rfl)
    have haway := Handler.away (c.request_handler_finish last r)
    have hself : Placed cfg r (Client.afterResolve cfg outcome (c.request r))
        (c.finish last).handler c.queue := by
      refine (h r hr).leaves (sameProgress_afterResolve _ _)
        (fun hnone => (resolved_afterResolve hnone).imp_right fun hok => ?_)
        (fun hnow => absurd hnow haway.completes) haway.held haway.works
        ((h r hr).out (Or.inl (by rw [at_]; rfl)))
      rw [at_, hok]
      rfl
    exact h.at_request hself (by rw [at_]; rintro x ⟨⟩; rfl)
      (fun x hx => absurd hx (c.request_handler_finish last x)) (Or.inl rfl)
  | drop entries err behindDelivery mid removes eq =>
    subst eq
    have hmid : AllPlaced cfg mid := h.retains hnodup removes.retains
    exact hmid
  | retire i t entry eq =>
    subst eq
    intro x hx
    refine (h x hx).frame ((sameProgress_afterResolve _ _).update x) ?_ (Or.inl rfl) id fun h _ => h
    change (Function.update c.request t.request _ x).resolved = some none → _
    by_cases heq : x = t.request
    · subst heq
      rw [Function.update_self]
      exact fun hnone => (resolved_afterResolve hnone).resolve_right nofun
    · rw [Function.update_of_ne heq]
      exact id
  | append start endPoint delivery pipelined estimated bytes protocol deadline reserves reports eq =>
    obtain ⟨-, -, terms, -, -, -, -, -, hrequest, hcount, hqueue, -, -, -, hhandler, -⟩ :=
      sendRequestRange_eq_some eq
    intro x hx
    rw [hrequest, hqueue, hhandler]
    by_cases heq : x = c.count
    · subst heq
      have hnot : c.handler.request ≠ some c.count :=
        fun hat => Nat.lt_irrefl _ (hreported.handler_lt c.count hat)
      have haway := Handler.away hnot
      rw [Function.update_self]
      refine ⟨?_, UInt64.zero_le, ?_, UInt64.zero_le, fun hat => absurd hat hnot,
        fun _ => segment_nil _ _, fun _ _ => ?_, fun _ hor => (nomatch hor.resolve_left haway.completes),
        fun hor => (nomatch hor.resolve_left haway.owns), nofun⟩
      · rw [haway.held]
        exact Nat.le_refl _
      · rw [haway.held]
        exact Nat.le_refl _
      · rw [haway.pending]
        exact ⟨segment_nil _ _, rfl, nofun⟩
    · rw [Function.update_of_ne heq]
      refine (h x (by omega)).frame (.refl _) id (Or.inl rfl) (fun hmem => ?_) fun hfirst _ => ?_
      · exact (List.mem_append.mp hmem).resolve_right fun hlast => heq (List.mem_singleton.mp hlast)
      · rw [List.head?_append, hfirst]
        rfl
  | sendFailed r at_ eq =>
    subst eq
    have hmid : AllPlaced cfg (c.removeLocked r) := h.retains hnodup (c.retains_removeLocked r)
    exact hmid

theorem placed_of_run {actions : List Action}
    (hrun : Transition.run (step cfg codec) Client.start actions = some c) (hr : r < c.count) :
    Placed cfg r (c.request r) c.handler c.queue := by
  have hstart : Reported cfg Client.start ∧ AllPlaced cfg Client.start :=
    ⟨reported_start, fun _ hr => absurd hr (Nat.not_lt_zero _)⟩
  have h := Transition.run_invariant (P := fun c => Reported cfg c ∧ AllPlaced cfg c)
    (fun _ _ _ h hstep => ⟨h.1.step hstep, h.2.step h.1 hstep⟩) hstart hrun
  exact h.2 r hr

/-! ## The result -/

/-- Only a block that the handler has recorded is handed over. -/
theorem delivered_step {action : Action} (hr : r < c.count)
    (hstep : step cfg codec c action = some c') :
    (c'.request r).delivered = (c.request r).delivered ∨
      ∃ block, c.handler = .recorded r block ∧
        (c'.request r).delivered = (c.request r).delivered ++ [block] := by
  have hkeeps : ∀ q req, req.delivered = (c.request q).delivered →
      (Function.update c.request q req r).delivered = (c.request r).delivered := by
    intro q req hreq
    by_cases heq : r = q
    · subst heq
      rwa [Function.update_self]
    · rw [Function.update_of_ne heq]
  cases step_effect hstep with
  | work free work =>
    cases work with
    | delivered q block next mu at_ goes eq =>
      have hrequest : c'.request = (c.deliverTo q block).request := by rw [eq]
      rw [hrequest]
      by_cases heq : r = q
      · subst heq
        exact Or.inr ⟨block, at_, congrArg _ (c.modify_request_self r _)⟩
      · exact Or.inl (congrArg _ (c.modify_request_of_ne heq _))
    | returned | failing | fencing => simp_all [Client.finish]
    | started q eq => exact Or.inl (eq ▸ hkeeps _ _ rfl)
    | refused q msg now req ret idle head charged eq | claimed q msg now req _ idle head charged eq =>
      have hdelivered : req.delivered = (c.request q).delivered := by rw [(chargeBlock_eq_ok charged).2.2]
      exact Or.inl (eq ▸ hkeeps _ _ hdelivered)
    | recorded q msg info req at_ record eq =>
      have hdelivered : req.delivered = (c.request q).delivered := by rw [(recordBlock_eq_ok record).1]
      exact Or.inl (eq ▸ hkeeps _ _ hdelivered)
  | append _ _ _ _ _ _ _ _ _ _ eq =>
    obtain ⟨-, -, terms, -, -, -, -, -, hrequest, -⟩ := sendRequestRange_eq_some eq
    rw [hrequest, Function.update_of_ne (Nat.ne_of_lt hr)]
    exact Or.inl rfl
  | drop _ _ _ mid removes eq =>
    exact Or.inl (eq ▸ congrArg (RangeRequest.delivered <| · r) removes.retains.request)
  | resolve _ _ _ _ _ eq | retire _ _ _ eq =>
    exact Or.inl (eq ▸ hkeeps _ _ (sameProgress_afterResolve _ _).delivered)
  | report q callbackErr at_ eq => exact Or.inl (eq ▸ hkeeps _ _ rfl)
  | complete q _ _ _ _ eq =>
    subst eq
    unfold Client.completeBatch
    split
    · have hrequest := (Client.retains_removeLocked
        (c.modify q fun req => { req with batchDoneReported := true }) q).request
      exact Or.inl ((congrArg (RangeRequest.delivered <| · r) hrequest).trans
        (hkeeps q _ (by rfl)))
    · exact Or.inl (congrArg (RangeRequest.delivered <| · r) (c.retains_removeLocked q).request)
  | take q _ _ _ _ _ eq | sendFailed q _ eq =>
    exact Or.inl (eq ▸ congrArg (RangeRequest.delivered <| · r) (c.retains_removeLocked q).request)
  | gone eq | messageSent q at_ eq => exact Or.inl (eq ▸ rfl)

/-- The blocks handed over for `r` begin the segment asked for, within the limits; they are all of
it if the request was completed with no error; and a block that the handler has claimed for `r` is
recorded only if it continues the segment, and handed over only once it is recorded. -/
theorem range_delivers_segment {actions : List Action} {r : Nat}
    (hrun : Transition.run (step cfg codec) Client.start actions = some c) (hr : r < c.count)
    (hashed : Hashed (c.request r)) :
    Segment (c.request r).start (c.request r).endPoint (c.request r).delivered ∧
      (c.request r).delivered.length ≤ (maxBlocksPerRange cfg).toNat ∧
      ((c.request r).delivered.map (·.encodedBytes.toNat)).sum ≤ (maxRangeBytes cfg).toNat ∧
      ((c.request r).resolved = some none → Complete (c.request r)) ∧
      (∀ action c', step cfg codec c action = some c' →
        (c'.request r).delivered = (c.request r).delivered ∨
          ∃ block, c.handler = .recorded r block ∧
            (c'.request r).delivered = (c.request r).delivered ++ [block]) ∧
      ∀ msg c', c.handler = .claimed r msg → step cfg codec c .record = some c' →
        (∃ err, c'.handler = .failing r err) ∨
          ∃ info, c'.handler = .recorded r ⟨info, msg.encodedBytes⟩ ∧
            cfg.headerInfo codec (c.request r).delivery msg = .ok info ∧
            Segment (c.request r).start (c.request r).endPoint
              ((c.request r).delivered ++ [⟨info, msg.encodedBytes⟩]) := by
  have h := placed_of_run hrun hr
  have hmaxBlocks := UInt64.le_iff_toNat_le.mp h.maxBlocks
  have hmaxBytes := UInt64.le_iff_toNat_le.mp h.maxBytes
  have hblocks := h.blocks
  have hbytes := h.bytes
  refine ⟨h.segment hashed, by omega, by omega, fun hdone => h.complete hashed (Or.inr hdone),
    fun action c' hstep => delivered_step hr hstep, ?_⟩
  intro msg c' hat hstep
  have hsynced := h.synced hashed (Or.inr (by rw [hat]; rfl))
  rw [hat] at hsynced
  simp only [step, handlerStep, hat, Option.some.injEq] at hstep
  unfold Client.recordClaimed at hstep
  split at hstep
  · exact Or.inl ⟨_, by rw [← hstep]⟩
  rename_i info hinfo
  split at hstep
  · exact Or.inl ⟨_, by rw [← hstep]⟩
  rename_i req hrecord
  have hrecorded : Synced req (_ ++ [⟨info, msg.encodedBytes⟩]) := hsynced.record hashed hrecord
  have hnext := hrecorded.segment
  rw [(sameOutcome_recordBlock hrecord).terms] at hnext
  exact Or.inr ⟨info, by rw [← hstep], hinfo, by simpa [pending] using hnext⟩

def twoBlockRun : List Action :=
  [.getBlockRange (samplePoint 1 1) (samplePoint 2 2) 0 10, .messageSent, .startBatch,
    .block ⟨3, [1, 1, 0]⟩ 1, .record, .deliver ⟨false, none⟩,
    .block ⟨3, [2, 2, 1]⟩ 2, .record, .deliver ⟨false, none⟩,
    .batchDone 9, .fence none, .report none, .resolve none]

theorem range_delivers_segment_batch :
    ∃ c, Transition.run (step sampleConfig sampleCodec) Client.start twoBlockRun = some c ∧
      (c.request 0).delivered.length = 2 ∧ (c.request 0).resolved = some none ∧
      Complete (c.request 0) ∧
      Segment (samplePoint 1 1) (samplePoint 2 2) (c.request 0).delivered := by
  have hrun : Transition.run (step sampleConfig sampleCodec) Client.start twoBlockRun = some _ := rfl
  have h := range_delivers_segment (r := 0) hrun Nat.zero_lt_one ⟨rfl, rfl⟩
  exact ⟨_, hrun, rfl, rfl, h.2.2.2.1 rfl, h.1⟩

end Gouroboros.Protocol.BlockFetch.Range

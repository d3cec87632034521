import Gouroboros.Lib.FifoQueue
import Gouroboros.Protocol.BlockFetch.Range.Effects

/-!
# In-flight accounting of the range queue

`inFlightBytes` is kept by hand wherever a request enters or leaves the queue, with saturating
arithmetic that would hide a drift. `Accounted` says that it is the sum over the queue, that the
queue stands in the order of the messages, and how far the bound can be exceeded. A step appends a
request, ends a send, takes requests off the queue, or leaves them alone (`Quiet`).
-/

namespace Gouroboros.Protocol.BlockFetch.Range

open FifoQueue

/-! ## Saturating arithmetic -/

theorem toNat_saturatingAdd {a b : UInt64} (h : a.toNat + b.toNat < 2 ^ 64) :
    (saturatingAdd a b).toNat = a.toNat + b.toNat := by
  have hmax : maxUint64.toNat = 2 ^ 64 - 1 := rfl
  have hle : b ≤ maxUint64 := UInt64.le_iff_toNat_le.mpr (by omega)
  have hsub : (maxUint64 - b).toNat = 2 ^ 64 - 1 - b.toNat := by
    rw [UInt64.toNat_sub_of_le _ _ hle, hmax]
  have hfits : ¬ a > maxUint64 - b := by
    rw [gt_iff_lt, UInt64.lt_iff_toNat_lt, hsub]
    omega
  rw [saturatingAdd, if_neg hfits, UInt64.toNat_add, Nat.mod_eq_of_lt h]

namespace Client

theorem toNat_releaseBytesLocked (c : Client) (reserved : UInt64) :
    (c.releaseBytesLocked reserved).inFlightBytes.toNat =
      c.inFlightBytes.toNat - reserved.toNat := by
  unfold releaseBytesLocked
  split
  · rename_i hmore
    have := UInt64.lt_iff_toNat_lt.mp hmore
    simp only [UInt64.toNat_zero]
    omega
  · rename_i hle
    exact UInt64.toNat_sub_of_le _ _ (UInt64.not_lt.mp hle)

theorem toNat_foldl_releaseBytesLocked (entries : List Nat) (c : Client) :
    (entries.foldl (fun c q => c.releaseBytesLocked (c.request q).reservedBytes) c
        ).inFlightBytes.toNat =
      c.inFlightBytes.toNat - weight (fun q => (c.request q).reservedBytes.toNat) entries := by
  induction entries generalizing c with
  | nil => rfl
  | cons a entries ih =>
    rw [List.foldl_cons, ih, toNat_releaseBytesLocked, weight_cons]
    have hsame : ∀ b, (c.releaseBytesLocked b).request = c.request := fun _ => rfl
    rw [hsame, Nat.sub_sub]

end Client

/-! ## The invariant -/

def reserved (request : Nat → RangeRequest) (r : Nat) : Nat := (request r).reservedBytes.toNat

/-- The queued requests reserve no more than the limit, or all that is above it is reserved by the
first one, which met an empty queue. -/
def Bounded (limit : UInt64) (request : Nat → RangeRequest) (queue : List Nat) : Prop :=
  weight (reserved request) queue ≤ limit.toNat ∨
    ∃ r rest, queue = r :: rest ∧ (request r).admittedEmpty = true ∧
      ∀ q ∈ rest, (request q).reservedBytes = 0

structure Accounted (cfg : Config) (c : Client) : Prop where
  bytes : c.inFlightBytes.toNat = weight (reserved c.request) c.queue
  bounded : Bounded (maxInFlightBytes cfg) c.request c.queue
  order : c.queue.Sublist (c.sent ++ c.sending.toList)
  increasing : (c.sent ++ c.sending.toList).Pairwise (· < ·)
  known : ∀ r ∈ c.sent ++ c.sending.toList, r < c.count

variable {cfg : Config} {codec : Codec} {c c' : Client}

variable {request : Nat → RangeRequest} {r : Nat}

theorem reserved_eq_zero (h : (request r).reservedBytes = 0) : reserved request r = 0 := by
  rw [reserved, h]
  rfl

theorem Bounded.sublist {limit : UInt64} {queue shorter : List Nat}
    (h : Bounded limit request queue) (hsub : shorter.Sublist queue) :
    Bounded limit request shorter := by
  rcases h with hle | ⟨r, rest, rfl, hempty, hzero⟩
  · exact Or.inl (Nat.le_trans (weight_sublist hsub) hle)
  · rcases List.sublist_cons_iff.mp hsub with hrest | ⟨kept, rfl, hkept⟩
    · -- the first request is gone, and the others reserve nothing
      have hnone : weight (reserved request) shorter = 0 :=
        weight_eq_zero fun q hq => reserved_eq_zero (hzero q (hrest.subset hq))
      exact Or.inl (by omega)
    · exact Or.inr ⟨r, kept, rfl, hempty, fun q hq => hzero q (hkept.subset hq)⟩

theorem Accounted.nodup (h : Accounted cfg c) : (c.sent ++ c.sending.toList).Nodup :=
  h.increasing.imp Nat.ne_of_lt

theorem Accounted.queue_nodup (h : Accounted cfg c) : c.queue.Nodup := h.nodup.sublist h.order

theorem Accounted.lt_count (h : Accounted cfg c) (hr : r ∈ c.queue) : r < c.count :=
  h.known r (h.order.subset hr)

theorem accounted_start : Accounted cfg Client.start where
  bytes := rfl
  bounded := Or.inl (Nat.zero_le _)
  order := List.Sublist.refl _
  increasing := List.Pairwise.nil
  known := fun _ hr => absurd hr List.not_mem_nil

/-! ## Steps that leave the queue alone -/

theorem reserved_congr {request' : Nat → RangeRequest} {x : Nat}
    (h : (request' x).toRangeTerms = (request x).toRangeTerms) :
    reserved request' x = reserved request x := by
  unfold reserved
  rw [h]

/-- The terms of the requests, the queue and the log are those of `c`. -/
structure Quiet (c c' : Client) : Prop where
  terms : ∀ x, (c'.request x).toRangeTerms = (c.request x).toRangeTerms
  queue : c'.queue = c.queue
  inFlightBytes : c'.inFlightBytes = c.inFlightBytes
  count : c'.count = c.count
  sending : c'.sending = c.sending
  sent : c'.sent = c.sent

theorem Accounted.quiet (h : Accounted cfg c) (hq : Quiet c c') : Accounted cfg c' := by
  obtain ⟨hterms, hqueue, hbytes, hcount, hsending, hsent⟩ := hq
  have hweight : weight (reserved c'.request) c.queue = weight (reserved c.request) c.queue :=
    weight_congr fun x _ => reserved_congr (hterms x)
  refine ⟨by rw [hbytes, hqueue, hweight, h.bytes], ?_, by grind [Accounted], by grind [Accounted],
    by grind [Accounted]⟩
  rcases h.bounded with hle | ⟨r, rest, hrest, hempty, hzero⟩
  · left
    rwa [hqueue, hweight]
  · refine Or.inr ⟨r, rest, hqueue.trans hrest, ?_, ?_⟩
    · rw [hterms r, hempty]
    · intro q hq
      rw [hterms q, hzero q hq]

theorem terms_afterResolve (outcome : Option ClientError) (req : RangeRequest) :
    (Client.afterResolve cfg outcome req).toRangeTerms = req.toRangeTerms := by
  unfold Client.afterResolve
  split <;> rfl

theorem terms_update {req : RangeRequest} (h : req.toRangeTerms = (c.request r).toRangeTerms)
    (x : Nat) : (Function.update c.request r req x).toRangeTerms = (c.request x).toRangeTerms := by
  by_cases hx : x = r
  · subst hx
    rwa [Function.update_self]
  · rw [Function.update_of_ne hx]

/-! ## Steps that take requests off the queue -/

theorem Accounted.retains (h : Accounted cfg c) (hretains : Client.Retains c c')
    (hbytes : c'.inFlightBytes.toNat = weight (reserved c.request) c'.queue) :
    Accounted cfg c' where
  bytes := by rw [hbytes, hretains.request]
  bounded := by
    rw [hretains.request]
    exact h.bounded.sublist hretains.queue
  order := by
    rw [hretains.sent, hretains.sending]
    exact hretains.queue.trans h.order
  increasing := by
    rw [hretains.sent, hretains.sending]
    exact h.increasing
  known := by
    rw [hretains.sent, hretains.sending, hretains.count]
    exact h.known

theorem Accounted.removeLocked (h : Accounted cfg c) (r : Nat) :
    Accounted cfg (c.removeLocked r) := by
  apply h.retains (c.retains_removeLocked r)
  rw [Client.queue_removeLocked]
  unfold Client.removeLocked
  split
  · rename_i hmem
    have hsum := weight_erase (w := reserved c.request) hmem
    change (Client.releaseBytesLocked _ _).inFlightBytes.toNat = _
    rw [Client.toNat_releaseBytesLocked, h.bytes, hsum, reserved, Nat.add_sub_cancel_left]
  · rename_i hout
    rw [List.erase_of_not_mem hout, h.bytes]

theorem Accounted.foldl_removeLocked (entries : List Nat) (h : Accounted cfg c) :
    Accounted cfg (entries.foldl Client.removeLocked c) :=
  List.foldlRecOn entries _ h fun _ hd r _ => hd.removeLocked r

theorem inFlightBytes_foldl_updateIngressAllowanceLocked (entries : List Nat) (c : Client) :
    (entries.foldl (fun c r => c.updateIngressAllowanceLocked (c.request r).protocol) c
      ).inFlightBytes = c.inFlightBytes := by
  induction entries generalizing c with
  | nil => rfl
  | cons r entries ih => exact ih _

theorem Accounted.drainLocked (h : Accounted cfg c) : Accounted cfg c.drainLocked := by
  apply h.retains c.retains_drainLocked
  rw [Client.queue_drainLocked, weight_nil]
  unfold Client.drainLocked
  split
  · rename_i hempty
    rw [h.bytes, hempty, weight_nil]
  · rw [inFlightBytes_foldl_updateIngressAllowanceLocked]
    rfl

theorem Accounted.dropProtocol (h : Accounted cfg c) (proto : Nat) :
    Accounted cfg (c.dropProtocol proto) := by
  apply h.retains (c.retains_dropProtocol proto)
  have hsplit := weight_filter_add (w := reserved c.request)
    (fun q => (c.request q).protocol = proto) c.queue
  calc (c.dropProtocol proto).inFlightBytes.toNat
    _ = c.inFlightBytes.toNat - weight (reserved c.request) (c.ofProtocol proto) :=
        Client.toNat_foldl_releaseBytesLocked (c.ofProtocol proto) c
    _ = weight (reserved c.request) (c.dropProtocol proto).queue := by
        rw [h.bytes, ← hsplit]
        exact Nat.add_sub_cancel_left ..

theorem Accounted.removes {entries : List Nat} {mid : Client} (h : Accounted cfg c)
    (hremoves : Removes c entries mid) : Accounted cfg mid := by
  cases hremoves with
  | watch proto => exact h.foldl_removeLocked _
  | drain => exact h.drainLocked
  | protocol proto => exact h.dropProtocol proto

/-! ## Sending -/

theorem hasInFlightCapacityLocked_iff {expectedBytes : UInt64} :
    c.hasInFlightCapacityLocked cfg expectedBytes ↔
      c.queue = [] ∨ c.inFlightBytes.toNat + expectedBytes.toNat ≤ (maxInFlightBytes cfg).toNat := by
  rw [Client.hasInFlightCapacityLocked, Bool.or_eq_true, Bool.and_eq_true, List.isEmpty_iff,
    decide_eq_true_eq, decide_eq_true_eq]
  apply or_congr_right
  constructor
  · rintro ⟨hlimit, hroom⟩
    rw [UInt64.le_iff_toNat_le, UInt64.toNat_sub_of_le _ _ hlimit] at hroom
    have := UInt64.le_iff_toNat_le.mp hlimit
    omega
  · intro hsum
    have hlimit : c.inFlightBytes ≤ maxInFlightBytes cfg := UInt64.le_iff_toNat_le.mpr (by omega)
    refine ⟨hlimit, ?_⟩
    rw [UInt64.le_iff_toNat_le, UInt64.toNat_sub_of_le _ _ hlimit]
    omega

section

variable (h : Accounted cfg c)
include h

/-- A request is appended only if its bytes fit, or it is the only one, so the sum does not
saturate. -/
theorem Accounted.sendRequestRange {start endPoint : Point} {delivery : RequestDelivery}
    {pipelined estimated : Bool} {expectedBytes : UInt64} {protocol deadline : Nat}
    (hzero : pipelined = false → expectedBytes = 0)
    (hstep : c.sendRequestRange cfg start endPoint delivery pipelined expectedBytes estimated
      protocol deadline = some c') : Accounted cfg c' := by
  obtain ⟨hsending, hcapacity, terms, hpipelined, hreserved, hadmitted, -, -, hrequest, hcount,
    hqueue, hbytes, hsending', hsent, -, -⟩ := sendRequestRange_eq_some hstep
  -- the new request is none of those in the queue
  have hold : ∀ x ∈ c.queue, c'.request x = c.request x := by
    intro x hx
    rw [hrequest]
    exact Function.update_of_ne (Nat.ne_of_lt (h.lt_count hx)) ..
  have hnew : c'.request c.count = { toRangeTerms := terms } := by
    rw [hrequest, Function.update_self]
  have hweight : weight (reserved c'.request) c'.queue =
      weight (reserved c.request) c.queue + expectedBytes.toNat := by
    rw [hqueue, weight_append, weight_congr fun x hx => reserved_congr (by rw [hold x hx]),
      weight_cons, weight_nil, reserved, hnew, hreserved, Nat.add_zero]
  -- either the queue was empty, or the new sum is within the limit, or nothing is added
  have hroom : c.queue = [] ∨
      c.inFlightBytes.toNat + expectedBytes.toNat ≤ (maxInFlightBytes cfg).toNat ∨
      expectedBytes = 0 := by
    cases pipelined with
    | false => exact Or.inr (Or.inr (hzero rfl))
    | true => exact (hasInFlightCapacityLocked_iff.mp (hcapacity rfl)).imp_right Or.inl
  have hfits : c.inFlightBytes.toNat + expectedBytes.toNat < 2 ^ 64 := by
    have hlimit := (maxInFlightBytes cfg).toNat_lt
    have hexpected := expectedBytes.toNat_lt
    have hflight := c.inFlightBytes.toNat_lt
    rcases hroom with hempty | hsum | hnone
    · rw [h.bytes, hempty, weight_nil]
      omega
    · omega
    · rw [hnone, UInt64.toNat_zero]
      omega
  have ⟨_, _, horder, hincreasing, hknown⟩ := h
  rw [hsending, Option.toList_none, List.append_nil] at horder hincreasing hknown
  refine ⟨by rw [hweight, ← h.bytes, hbytes, toNat_saturatingAdd hfits], ?_, ?_, ?_, ?_⟩
  · rcases hroom with hempty | hsum | hnone
    · refine Or.inr ⟨c.count, [], by rw [hqueue, hempty, List.nil_append], ?_, by simp⟩
      rw [hnew, hadmitted, hempty]
      rfl
    · left
      rw [hweight, ← h.bytes]
      exact hsum
    · rcases h.bounded with hle | ⟨r, rest, hrest, hempty, hothers⟩
      · left
        rw [hweight, hnone, UInt64.toNat_zero, Nat.add_zero]
        exact hle
      · refine Or.inr ⟨r, rest ++ [c.count], by rw [hqueue, hrest, List.cons_append], ?_, ?_⟩
        · rw [hold r (hrest ▸ List.mem_cons_self), hempty]
        · intro q hq
          rcases List.mem_append.mp hq with hq | hq
          · rw [hold q (hrest ▸ List.mem_cons_of_mem r hq), hothers q hq]
          · rw [List.mem_singleton.mp hq, hnew, hreserved, hnone]
  · rw [hqueue, hsent, hsending']
    exact horder.append (List.Sublist.refl [c.count])
  · rw [hsent, hsending', Option.toList_some, List.pairwise_append]
    exact ⟨hincreasing, List.pairwise_singleton _ _, by simpa using hknown⟩
  · rw [hsent, hsending', hcount]
    intro r hr
    rcases List.mem_append.mp hr with hr | hr
    · exact Nat.lt_succ_of_lt (hknown r hr)
    · rw [List.mem_singleton.mp hr]
      exact Nat.lt_succ_self _

theorem Accounted.not_sent (hsending : c.sending = some r) : r ∉ c.sent := by
  have hnodup := h.nodup
  rw [hsending, Option.toList_some] at hnodup
  exact fun hmem => (List.nodup_append.mp hnodup).2.2 r hmem r (List.mem_singleton_self r) rfl

theorem Accounted.sendFailed (hsending : c.sending = some r) :
    Accounted cfg { c.removeLocked r with sending := none } := by
  obtain ⟨hbytes, hbounded, -, -, -⟩ := h.removeLocked r
  have hretains := c.retains_removeLocked r
  have hlog : (c.sent ++ c.sending.toList).erase r = c.sent := by
    rw [hsending, List.erase_append_right _ (h.not_sent hsending)]
    simp
  have hsub : c.sent.Sublist (c.sent ++ c.sending.toList) := List.sublist_append_left ..
  refine ⟨hbytes, hbounded, ?_, ?_, ?_⟩
  · change (c.removeLocked r).queue.Sublist ((c.removeLocked r).sent ++ [])
    rw [c.queue_removeLocked, hretains.sent, List.append_nil, ← hlog]
    exact h.order.erase r
  · change ((c.removeLocked r).sent ++ []).Pairwise (· < ·)
    rw [hretains.sent, List.append_nil]
    exact h.increasing.sublist hsub
  · change ∀ q ∈ (c.removeLocked r).sent ++ [], q < (c.removeLocked r).count
    rw [hretains.sent, hretains.count, List.append_nil]
    exact fun q hq => h.known q (hsub.subset hq)

/-! ## Every step -/

theorem Accounted.step {action : Action}
    (hstep : step cfg codec c action = some c') : Accounted cfg c' := by
  cases step_effect hstep with
  | gone eq => exact eq ▸ h
  | work free work =>
    obtain ⟨hqueue, hbytes, hcount, hsending, hsent, -⟩ := work.keeps
    exact h.quiet ⟨fun x => (work.same x).terms, hqueue, hbytes, hcount, hsending, hsent⟩
  | take r outcome ret hmem at_ free eq =>
    subst eq
    exact { h.removeLocked r with }
  | complete r fenceErr fence passed at_ eq =>
    subst eq
    unfold Client.completeBatch
    split
    · have hmarked : Accounted cfg (c.modify r fun req => { req with batchDoneReported := true }) :=
        h.quiet ⟨terms_update (by rfl), rfl, rfl, rfl, rfl, rfl⟩
      exact { hmarked.removeLocked r with }
    · exact { h.removeLocked r with }
  | report r callbackErr at_ eq =>
    exact eq ▸ h.quiet ⟨terms_update (by rfl), rfl, rfl, rfl, rfl, rfl⟩
  | resolve r outcome ret last at_ eq | retire i t entry eq =>
    exact eq ▸ h.quiet ⟨terms_update (terms_afterResolve _ _), rfl, rfl, rfl, rfl, rfl⟩
  | drop entries err behindDelivery mid removes eq =>
    subst eq
    exact { h.removes removes with }
  | append _ _ _ _ _ _ _ _ reserves reports eq => exact h.sendRequestRange reserves eq
  | messageSent r at_ eq =>
    have hlog : (c.sent ++ [r]) ++ (none : Option Nat).toList = c.sent ++ c.sending.toList := by
      rw [at_, Option.toList_none, List.append_nil, Option.toList_some]
    exact eq ▸ ⟨h.bytes, h.bounded, hlog ▸ h.order, hlog ▸ h.increasing, hlog ▸ h.known⟩
  | sendFailed r at_ eq => exact eq ▸ h.sendFailed at_

end

theorem accounted_of_run {actions : List Action}
    (hrun : Transition.run (step cfg codec) Client.start actions = some c) : Accounted cfg c :=
  Transition.run_invariant (fun _ _ _ h hstep => h.step hstep) accounted_start hrun

/-! ## The result -/

/-- In every state of every run the in-flight bytes are the sum over the queue; the queue is the
log of the messages handed to the send queue, and of the one being handed over, restricted to the
requests still queued; and the sum is within the bound, or all of the excess is reserved by the
first request, which was appended to an empty queue. -/
theorem in_flight_accounting_exact {actions : List Action}
    (hrun : Transition.run (step cfg codec) Client.start actions = some c) :
    c.inFlightBytes.toNat = (c.queue.map fun r => (c.request r).reservedBytes.toNat).sum ∧
      (c.sent ++ c.sending.toList).Nodup ∧
      c.queue = (c.sent ++ c.sending.toList).filter (· ∈ c.queue) ∧
      (c.inFlightBytes ≤ maxInFlightBytes cfg ∨
        ∃ r rest, c.queue = r :: rest ∧ (c.request r).admittedEmpty = true ∧
          ∀ q ∈ rest, (c.request q).reservedBytes = 0) := by
  have h := accounted_of_run hrun
  refine ⟨h.bytes, h.nodup, (filter_mem_eq h.order h.nodup).symm, ?_⟩
  rcases h.bounded with hle | hexcess
  · exact Or.inl (UInt64.le_iff_toNat_le.mpr (h.bytes ▸ hle))
  · exact Or.inr hexcess

/-- A range of twice the bound on an empty queue, and a `GetBlockRange` behind it. -/
def oversizedRun : List Action :=
  [.requestRange (samplePoint 1 1) (samplePoint 9 9) 20 0 100, .messageSent,
    .getBlockRange (samplePoint 1 1) (samplePoint 2 2) 0 100]

theorem in_flight_accounting_exact_oversized :
    ∃ c, Transition.run (step sampleConfig sampleCodec) Client.start oversizedRun = some c ∧
      c.inFlightBytes = 20 ∧ c.queue = [0, 1] ∧
      c.queue = (c.sent ++ c.sending.toList).filter (· ∈ c.queue) := by
  have hrun : Transition.run (step sampleConfig sampleCodec) Client.start oversizedRun =
      some _ := rfl
  exact ⟨_, hrun, rfl, rfl, (in_flight_accounting_exact hrun).2.2.1⟩

end Gouroboros.Protocol.BlockFetch.Range

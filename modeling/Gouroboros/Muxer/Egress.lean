import Gouroboros.Lib.Transition

/-!
# The egress scheduler of the muxer

`muxer/egress.go`: the calls of `acquire` take turns at writing to the connection. A call is
numbered by its arrival, and its number stands for the channel it waits on. The critical sections
of `mu` are steps, and so are the choices of a call between its grant and the shutdown.
Every step is a move of `Turns`, or none.
-/

namespace Gouroboros.Muxer

open Function

/-! ## The scheduler -/

inductive EgressClass where
  | praos
  | leios
deriving DecidableEq

def protocolIdLeiosNotify : UInt16 := 18
def protocolIdLeiosFetch : UInt16 := 19
def protocolIdLeiosVotes : UInt16 := 20

def egressClassOf (protocolId : UInt16) : EgressClass :=
  if protocolId = protocolIdLeiosNotify ∨ protocolId = protocolIdLeiosFetch ∨
    protocolId = protocolIdLeiosVotes then .leios else .praos

def praosBurst : Nat := 8

/-- Where a call of `acquire` is. -/
inductive CallPc where
  /-- Not made yet, or returned without the turn, or after its `release`. -/
  | outside
  /-- It has the turn, and looks at `done`. -/
  | entered
  | waiting
  /-- It saw the shutdown, and is to take its channel out of the queue. -/
  | cancelling
  /-- It was not queued any more, and waits for the grant. -/
  | awaiting
  /-- It returned nil: the caller writes its segment. -/
  | holding
  /-- It is to release the turn and to return the error. -/
  | releasing
deriving DecidableEq

structure Egress where
  busy : Bool := false
  praos : List Nat := []
  leios : List Nat := []
  praosRun : Nat := 0
  /-- The muxer is shutting down. -/
  done : Bool := false
  calls : Nat := 0
  pc : Nat → CallPc := fun _ => .outside
  /-- The channels that are closed. -/
  granted : Nat → Bool := fun _ => false
  /-- History: the calls of each class that were given the turn. -/
  praosGrants : List Nat := []
  leiosGrants : List Nat := []

namespace Egress

/-- A new call has the turn at once. -/
def enterFree (e : Egress) : EgressClass → Egress
  | .leios =>
    { e with
      busy := true, calls := e.calls + 1, pc := update e.pc e.calls .entered
      leiosGrants := e.leiosGrants ++ [e.calls] }
  | .praos =>
    { e with
      busy := true, calls := e.calls + 1, pc := update e.pc e.calls .entered
      praosGrants := e.praosGrants ++ [e.calls] }

/-- A new call waits in the queue of its class. -/
def enqueue (e : Egress) : EgressClass → Egress
  | .leios =>
    { e with
      calls := e.calls + 1, pc := update e.pc e.calls .waiting
      leios := e.leios ++ [e.calls] }
  | .praos =>
    { e with
      calls := e.calls + 1, pc := update e.pc e.calls .waiting
      praos := e.praos ++ [e.calls] }

/-- `acquire` up to the end of its critical section. -/
def acquire (e : Egress) (protocolId : UInt16) : Egress :=
  if !e.busy then e.enterFree (egressClassOf protocolId)
  else e.enqueue (egressClassOf protocolId)

/-- The call `c` gives the turn to the next one, or frees it. -/
def release (e : Egress) (c : Nat) : Egress :=
  let e := { e with pc := update e.pc c .outside }
  match e.leios, e.praos with
  | [], [] => { e with busy := false, praosRun := 0 }
  | w :: rest, [] =>
    { e with
      leios := rest, praosRun := 0, granted := update e.granted w true
      leiosGrants := e.leiosGrants ++ [w] }
  | w :: rest, p :: others =>
    if e.praosRun ≥ praosBurst then
      { e with
        leios := rest, praosRun := 0, granted := update e.granted w true
        leiosGrants := e.leiosGrants ++ [w] }
    else
      { e with
        praos := others, praosRun := e.praosRun + 1
        granted := update e.granted p true, praosGrants := e.praosGrants ++ [p] }
  | [], p :: others =>
    { e with
      praos := others, granted := update e.granted p true
      praosGrants := e.praosGrants ++ [p] }

/-- `remove`, and where the call goes from it. -/
def remove (e : Egress) (c : Nat) : Egress :=
  if c ∈ e.praos then
    { e with praos := e.praos.erase c, pc := update e.pc c .outside }
  else if c ∈ e.leios then
    { e with leios := e.leios.erase c, pc := update e.pc c .outside }
  else { e with pc := update e.pc c .awaiting }

inductive Action where
  | acquire (protocolId : UInt16)
  /-- A waiting call sees its grant. -/
  | wake (c : Nat)
  /-- A waiting call sees the shutdown. -/
  | cancel (c : Nat)
  | remove (c : Nat)
  | take (c : Nat)
  /-- A call with the turn looks at `done`. -/
  | look (c : Nat)
  | release (c : Nat)
  | shutdown
deriving DecidableEq

def step (e : Egress) : Action → Option Egress
  | .acquire protocolId => some (e.acquire protocolId)
  | .wake c =>
    if e.pc c = .waiting ∧ e.granted c = true then
      some { e with pc := update e.pc c .entered }
    else none
  | .cancel c =>
    if e.pc c = .waiting ∧ e.done = true then
      some { e with pc := update e.pc c .cancelling }
    else none
  | .remove c => if e.pc c = .cancelling then some (e.remove c) else none
  | .take c =>
    if e.pc c = .awaiting ∧ e.granted c = true then
      some { e with pc := update e.pc c .releasing }
    else none
  | .look c =>
    if e.pc c = .entered then
      some { e with pc := update e.pc c (if e.done then .releasing else .holding) }
    else none
  | .release c =>
    if e.pc c = .holding ∨ e.pc c = .releasing then some (e.release c) else none
  | .shutdown => some { e with done := true }

/-- The call holds the turn, or has been granted it and has not seen it yet. -/
def HasTurn (e : Egress) (c : Nat) : Prop :=
  (e.pc c = .entered ∨ e.pc c = .holding ∨ e.pc c = .releasing) ∨
    e.granted c = true ∧ (e.pc c = .waiting ∨ e.pc c = .cancelling ∨ e.pc c = .awaiting)

/-! ## Turns -/

/-- What a call is to the scheduler. -/
inductive Stage where
  | outside
  | queued
  | turn
  /-- It waits for a grant that nobody will give. -/
  | lost

/-- One call at a time has the turn while it is taken, and the calls of `queue` wait for it. -/
structure Turns (stage : Nat → Stage) (busy : Bool) (queue : List Nat) (calls : Nat) : Prop where
  turn : ∃ c, ∀ x, stage x = .turn ↔ busy = true ∧ x = c
  queued : ∀ x, stage x = .queued ↔ x ∈ queue
  found : ∀ x, stage x ≠ .lost
  unborn : ∀ x, calls ≤ x → stage x = .outside
  nodup : queue.Nodup

section Turns

variable {stage stage' : Nat → Stage} {r s t : Stage} {busy : Bool} {queue queue' : List Nat}
  {calls c w x : Nat}

theorem update_eq_new : update stage c s x = s ↔ x = c ∨ stage x = s := by
  rcases eq_or_ne x c with rfl | hne
  · simp
  · rw [update_of_ne hne]
    simp [hne]

theorem update_eq_other (hnew : s ≠ t) : update stage c s x = t ↔ x ≠ c ∧ stage x = t := by
  rcases eq_or_ne x c with rfl | hne
  · simp [hnew]
  · rw [update_of_ne hne]
    simp [hne]

theorem update_eq_kept (hold : stage c = r) (hr : r ≠ t) (hnew : s ≠ t) :
    update stage c s x = t ↔ stage x = t := by
  rw [update_eq_other hnew, and_iff_right_iff_imp]
  rintro hx rfl
  exact hr (hold.symm.trans hx)

theorem Turns.found_update (h : Turns stage busy queue calls) (hs : s ≠ .lost) (x : Nat) :
    update stage c s x ≠ .lost :=
  (update_eq_kept rfl (h.found c) hs).not.mpr (h.found x)

theorem Turns.unborn_update (h : Turns stage busy queue calls) (hx : calls + 1 ≤ x) :
    update stage calls s x = .outside := by
  rw [update_of_ne (Nat.ne_of_gt hx)]
  exact h.unborn x (Nat.le_of_succ_le hx)

/-- A new call joins the queue. -/
theorem Turns.join (h : Turns stage busy queue calls)
    (hstage : stage' = update stage calls .queued) (hqueue : queue'.Perm (calls :: queue)) :
    Turns stage' busy queue' (calls + 1) := by
  have hnew := h.unborn calls (Nat.le_refl _)
  rcases h.turn with ⟨owner, hturn⟩
  subst hstage
  refine ⟨⟨owner, fun x => ?_⟩, fun x => ?_, h.found_update nofun, fun x => h.unborn_update, ?_⟩
  · exact (update_eq_kept hnew (by nofun) (by nofun)).trans (hturn x)
  · rw [update_eq_new, h.queued, hqueue.mem_iff, List.mem_cons]
  · rw [hqueue.nodup_iff, List.nodup_cons, ← h.queued, hnew]
    exact ⟨nofun, h.nodup⟩

theorem Turns.queued_rest (h : Turns stage busy queue calls) (hqueue : queue.Perm (w :: queue')) :
    stage w = .queued ∧ queue'.Nodup ∧ ∀ x, x ≠ w ∧ stage x = .queued ↔ x ∈ queue' := by
  rcases List.nodup_cons.mp (hqueue.nodup_iff.mp h.nodup) with ⟨hgone, hnodup⟩
  refine ⟨(h.queued w).mpr (hqueue.mem_iff.mpr List.mem_cons_self), hnodup, fun x => ?_⟩
  rw [h.queued, hqueue.mem_iff, List.mem_cons]
  constructor
  · rintro ⟨hne, hx⟩
    exact hx.resolve_left hne
  · intro hx
    exact ⟨fun heq => hgone (heq ▸ hx), .inr hx⟩

/-- A call leaves the queue without the turn. -/
theorem Turns.leave (h : Turns stage busy queue calls) (hstage : stage' = update stage w .outside)
    (hqueue : queue.Perm (w :: queue')) : Turns stage' busy queue' calls := by
  rcases h.queued_rest hqueue with ⟨hw, hnodup, hrest⟩
  rcases h.turn with ⟨owner, hturn⟩
  subst hstage
  refine ⟨⟨owner, fun x => ?_⟩, fun x => ?_, h.found_update nofun, fun x hx => ?_, hnodup⟩
  · exact (update_eq_kept hw (by nofun) (by nofun)).trans (hturn x)
  · exact (update_eq_other (by nofun)).trans (hrest x)
  · exact update_eq_new.mpr (.inr (h.unborn x hx))

/-- The turn is given back, with nobody to take it. -/
theorem Turns.free (h : Turns stage busy queue calls) (hc : stage c = .turn)
    (hstage : stage' = update stage c .outside) : Turns stage' false queue calls := by
  rcases h.turn with ⟨owner, hturn⟩
  rcases (hturn c).mp hc with ⟨-, rfl⟩
  subst hstage
  refine ⟨⟨c, fun x => ?_⟩, fun x => ?_, h.found_update nofun, fun x hx => ?_, h.nodup⟩
  · refine (update_eq_other (by nofun)).trans ⟨?_, nofun⟩
    rintro ⟨hne, hx⟩
    exact absurd ((hturn x).mp hx).2 hne
  · exact (update_eq_kept hc (by nofun) (by nofun)).trans (h.queued x)
  · exact update_eq_new.mpr (.inr (h.unborn x hx))

/-- A call of the queue takes the turn. -/
theorem Turns.take (h : Turns stage false queue calls) (hstage : stage' = update stage w .turn)
    (hqueue : queue.Perm (w :: queue')) : Turns stage' true queue' calls := by
  rcases h.queued_rest hqueue with ⟨hw, hnodup, hrest⟩
  rcases h.turn with ⟨owner, hturn⟩
  subst hstage
  refine ⟨⟨w, fun x => ?_⟩, fun x => ?_, h.found_update nofun, fun x hx => ?_, hnodup⟩
  · rw [update_eq_new, hturn]
    simp
  · exact (update_eq_other (by nofun)).trans (hrest x)
  · have hx := h.unborn x hx
    rw [update_of_ne, hx]
    rintro rfl
    rw [hw] at hx
    cases hx

/-- A new call has the turn at once, as if it had been queued. -/
theorem Turns.enter (h : Turns stage false queue calls)
    (hstage : stage' = update stage calls .turn) : Turns stage' true queue (calls + 1) := by
  refine (h.join rfl (.refl _)).take ?_ (.refl _)
  rw [update_idem]
  exact hstage

end Turns

/-! ## The invariant -/

def stageOf : CallPc → Bool → Stage
  | .outside, _ => .outside
  | .waiting, false | .cancelling, false => .queued
  | .awaiting, false => .lost
  | _, _ => .turn

def stages (pc : Nat → CallPc) (granted : Nat → Bool) (x : Nat) : Stage :=
  stageOf (pc x) (granted x)

/-- The calls of a class, those granted and then those that wait, in the order of their arrival. -/
structure Queue (calls : Nat) (queue grants : List Nat) : Prop where
  order : (grants ++ queue).Pairwise (· < ·)
  known : ∀ x ∈ grants ++ queue, x < calls

structure Inv (e : Egress) : Prop where
  turns : Turns (stages e.pc e.granted) e.busy (e.praos ++ e.leios) e.calls
  unborn : ∀ x, e.calls ≤ x → e.granted x = false
  free : e.busy = false → e.praos = [] ∧ e.leios = []
  praos : Queue e.calls e.praos e.praosGrants
  leios : Queue e.calls e.leios e.leiosGrants
  run : e.praosRun ≤ praosBurst

variable {e e' : Egress} {c w x calls calls' : Nat} {place : CallPc} {pc : Nat → CallPc}
  {granted : Nat → Bool} {queue queue' grants grants' : List Nat}

theorem hasTurn_iff : e.HasTurn x ↔ stages e.pc e.granted x = .turn := by
  unfold HasTurn stages
  cases e.pc x <;> cases e.granted x <;> simp [stageOf]

theorem stages_move :
    stages (update pc c place) granted = update (stages pc granted) c (stageOf place (granted c)) := by
  funext x
  unfold stages
  rcases eq_or_ne x c with rfl | hne
  · rw [update_self, update_self]
  · rw [update_of_ne hne, update_of_ne hne]

/-- A grant is the turn of a call that is queued. -/
theorem stages_grant (hw : stages pc granted w = .queued) :
    stages pc (update granted w true) = update (stages pc granted) w .turn := by
  funext x
  unfold stages at hw ⊢
  rcases eq_or_ne x w with rfl | hne
  · rw [update_self, update_self]
    cases hplace : pc x <;> rw [hplace] at hw
    case waiting | cancelling => rfl
    all_goals cases hgrant : granted x <;> rw [hgrant] at hw <;> cases hw
  · rw [update_of_ne hne, update_of_ne hne]

theorem Queue.mono (h : Queue calls queue grants)
    (hsub : (grants' ++ queue').Sublist (grants ++ queue)) (hcalls : calls ≤ calls') :
    Queue calls' queue' grants' :=
  ⟨h.order.sublist hsub, fun x hx => Nat.lt_of_lt_of_le (h.known x (hsub.subset hx)) hcalls⟩

theorem Queue.succ (h : Queue calls queue grants) : Queue (calls + 1) queue grants :=
  h.mono (.refl _) (Nat.le_succ _)

theorem Queue.join (h : Queue calls queue grants) : Queue (calls + 1) (queue ++ [calls]) grants := by
  refine ⟨?_, ?_⟩ <;> rw [← List.append_assoc]
  · refine List.pairwise_append.mpr ⟨h.order, List.pairwise_singleton _ _, fun x hx y hy => ?_⟩
    rw [List.mem_singleton.mp hy]
    exact h.known x hx
  · intro x hx
    rcases List.mem_append.mp hx with hold | hnew
    · exact Nat.lt_succ_of_lt (h.known x hold)
    · rw [List.mem_singleton.mp hnew]
      exact Nat.lt_succ_self _

theorem Queue.grantNew (h : Queue calls queue grants) (hqueue : queue = []) :
    Queue (calls + 1) queue (grants ++ [calls]) := by
  subst hqueue
  exact h.join.mono (by rw [List.append_nil]; exact .refl _) (Nat.le_refl _)

theorem Queue.grantHead (h : Queue calls queue grants) (hqueue : queue = w :: queue') :
    Queue calls queue' (grants ++ [w]) := by
  subst hqueue
  exact h.mono (by rw [List.append_assoc]; exact .refl _) (Nat.le_refl _)

theorem Queue.erase (h : Queue calls queue grants) : Queue calls (queue.erase c) grants :=
  h.mono (List.erase_sublist.append_left _) (Nat.le_refl _)

theorem Queue.nodup (h : Queue calls queue grants) : queue.Nodup :=
  (List.pairwise_append.mp h.order).2.1.imp Nat.ne_of_lt

section

variable {e : Egress} (h : e.Inv)
include h

/-- A call goes on without a change of the turn. -/
theorem Inv.move (hstage : stageOf place (e.granted c) = stageOf (e.pc c) (e.granted c)) :
    ({ e with pc := update e.pc c place } : Egress).Inv := by
  have hsame : stages (update e.pc c place) e.granted = stages e.pc e.granted := by
    rw [stages_move, hstage]
    exact update_eq_self c _
  refine ⟨?_, h.unborn, h.free, h.praos, h.leios, h.run⟩
  show Turns (stages (update e.pc c place) e.granted) _ _ _
  rw [hsame]
  exact h.turns

theorem Inv.enterFree (hfree : e.busy = false) (cls : EgressClass) : (e.enterFree cls).Inv := by
  rcases h with ⟨turns, unborn, free, praos, leios, run⟩
  rw [hfree] at turns
  rcases free hfree with ⟨hpraos, hleios⟩
  have hunborn : ∀ x, e.calls + 1 ≤ x → e.granted x = false := fun x hx =>
    unborn x (Nat.le_of_succ_le hx)
  cases cls with
  | praos => exact ⟨turns.enter stages_move, hunborn, nofun, praos.grantNew hpraos, leios.succ, run⟩
  | leios => exact ⟨turns.enter stages_move, hunborn, nofun, praos.succ, leios.grantNew hleios, run⟩

theorem Inv.enqueue (hbusy : e.busy = true) (cls : EgressClass) : (e.enqueue cls).Inv := by
  rcases h with ⟨turns, unborn, free, praos, leios, run⟩
  have hunborn : ∀ x, e.calls + 1 ≤ x → e.granted x = false := fun x hx =>
    unborn x (Nat.le_of_succ_le hx)
  have hstage : stages (update e.pc e.calls .waiting) e.granted =
      update (stages e.pc e.granted) e.calls .queued := by
    rw [stages_move, unborn e.calls (Nat.le_refl _)]
    rfl
  have hheld {P : Prop} (hfree : e.busy = false) : P := by
    rw [hbusy] at hfree
    cases hfree
  cases cls with
  | praos =>
    refine ⟨turns.join hstage ?_, hunborn, hheld, praos.join, leios.succ, run⟩
    show ((e.praos ++ [e.calls]) ++ e.leios).Perm _
    rw [List.append_assoc]
    exact List.perm_middle
  | leios =>
    refine ⟨turns.join hstage ?_, hunborn, hheld, praos.succ, leios.join, run⟩
    show (e.praos ++ (e.leios ++ [e.calls])).Perm _
    rw [← List.append_assoc]
    exact List.perm_append_singleton _ _

theorem Inv.remove (hpc : e.pc c = .cancelling) : (e.remove c).Inv := by
  unfold Egress.remove
  split
  · rename_i hmem
    refine ⟨h.turns.leave stages_move ((List.perm_cons_erase hmem).append_right _), h.unborn,
      fun hfree => ?_, h.praos.erase, h.leios, h.run⟩
    rw [(h.free hfree).1] at hmem
    cases hmem
  split
  · rename_i hmem
    refine ⟨h.turns.leave stages_move
        (((List.perm_cons_erase hmem).append_left _).trans List.perm_middle), h.unborn,
      fun hfree => ?_, h.praos, h.leios.erase, h.run⟩
    rw [(h.free hfree).2] at hmem
    cases hmem
  · -- the call was granted the turn before it saw the shutdown
    rename_i hpraos hleios
    refine h.move ?_
    rw [hpc]
    cases hgranted : e.granted c with
    | true => rfl
    | false =>
      have hqueued : stages e.pc e.granted c = .queued := by
        unfold stages
        rw [hpc, hgranted]
        rfl
      rcases List.mem_append.mp ((h.turns.queued c).mp hqueued) with hmem | hmem
      · exact absurd hmem hpraos
      · exact absurd hmem hleios

/-- The call `c` gives the turn to `w`, and the queues lose `w`. -/
theorem Inv.handOver (hc : stages e.pc e.granted c = .turn) (hpc : e'.pc = update e.pc c .outside)
    (hgranted : e'.granted = update e.granted w true) (hcalls : e'.calls = e.calls)
    (hbusy : e'.busy = e.busy) (hqueue : (e.praos ++ e.leios).Perm (w :: (e'.praos ++ e'.leios)))
    (hpraos : Queue e.calls e'.praos e'.praosGrants) (hleios : Queue e.calls e'.leios e'.leiosGrants)
    (hrun : e'.praosRun ≤ praosBurst) : e'.Inv := by
  have hfree : Turns (stages (update e.pc c .outside) e.granted) false _ _ :=
    h.turns.free hc stages_move
  have hw := (hfree.queued_rest hqueue).1
  have hheld : e.busy = true := by
    rcases h.turns.turn with ⟨owner, hturn⟩
    exact ((hturn c).mp hc).1
  refine ⟨?_, fun x hx => ?_, fun hfree => ?_, hcalls ▸ hpraos, hcalls ▸ hleios, hrun⟩
  · rw [hpc, hgranted, hbusy, hheld, hcalls]
    exact hfree.take (stages_grant hw) hqueue
  · rw [hcalls] at hx
    rw [hgranted, update_of_ne, h.unborn x hx]
    rintro rfl
    rw [hfree.unborn x hx] at hw
    cases hw
  · rw [hbusy, hheld] at hfree
    cases hfree

theorem Inv.release (hpc : e.pc c = .holding ∨ e.pc c = .releasing) : (e.release c).Inv := by
  have hc : stages e.pc e.granted c = .turn := by
    unfold stages
    rcases hpc with hpc | hpc
    · rw [hpc]
      rfl
    · rw [hpc]
      rfl
  have hgrantLeios {w : Nat} {rest : List Nat} (hleios : e.leios = w :: rest) : ({ e with
      pc := update e.pc c .outside
      leios := rest, praosRun := 0, granted := update e.granted w true
      leiosGrants := e.leiosGrants ++ [w] } : Egress).Inv :=
    h.handOver hc rfl rfl rfl rfl (by rw [hleios]; exact List.perm_middle)
      h.praos (h.leios.grantHead hleios) (Nat.zero_le _)
  unfold Egress.release
  dsimp only
  -- who is next
  split
  case h_1 hleios hpraos =>
    exact ⟨h.turns.free hc stages_move, h.unborn, fun _ => ⟨hpraos, hleios⟩, h.praos, h.leios,
      Nat.zero_le _⟩
  case h_2 hleios _ => exact hgrantLeios hleios
  case h_3 hleios hpraos =>
    split
    · exact hgrantLeios hleios
    · rename_i hrun
      exact h.handOver hc rfl rfl rfl rfl (by rw [hpraos]; exact .refl _)
        (h.praos.grantHead hpraos) h.leios (Nat.lt_of_not_le hrun)
  case h_4 hpraos =>
    exact h.handOver hc rfl rfl rfl rfl (by rw [hpraos]; exact .refl _)
      (h.praos.grantHead hpraos) h.leios h.run

end

theorem inv_step (e : Egress) (action : Action) (e' : Egress) (h : e.Inv)
    (hstep : e.step action = some e') : e'.Inv := by
  cases action with
  | acquire protocolId =>
    cases hstep
    unfold acquire
    cases hbusy : e.busy with
    | false => exact h.enterFree hbusy _
    | true => exact h.enqueue hbusy _
  | wake c | take c =>
    rcases Option.ite_none_right_eq_some.mp hstep with ⟨⟨hpc, hgranted⟩, hstep⟩
    cases hstep
    refine h.move ?_
    rw [hpc, hgranted]
    rfl
  | cancel c =>
    rcases Option.ite_none_right_eq_some.mp hstep with ⟨⟨hpc, hdone⟩, hstep⟩
    cases hstep
    refine h.move ?_
    rw [hpc]
    cases e.granted c with
    | true | false => rfl
  | remove c =>
    rcases Option.ite_none_right_eq_some.mp hstep with ⟨hpc, hstep⟩
    cases hstep
    exact h.remove hpc
  | look c =>
    rcases Option.ite_none_right_eq_some.mp hstep with ⟨hpc, hstep⟩
    cases hstep
    refine h.move ?_
    rw [hpc]
    cases e.done with
    | true | false => rfl
  | release c =>
    rcases Option.ite_none_right_eq_some.mp hstep with ⟨hpc, hstep⟩
    cases hstep
    exact h.release hpc
  | shutdown =>
    cases hstep
    exact ⟨h.turns, h.unborn, h.free, h.praos, h.leios, h.run⟩

theorem inv_init : Inv {} where
  turns := ⟨⟨0, fun _ => ⟨nofun, nofun⟩⟩, fun _ => ⟨nofun, nofun⟩, fun _ => nofun, fun _ _ => rfl, .nil⟩
  unborn := fun _ _ => rfl
  free := fun _ => ⟨rfl, rfl⟩
  praos := ⟨.nil, nofun⟩
  leios := ⟨.nil, nofun⟩
  run := Nat.zero_le _

/-! ## A Leios call at the head of its queue -/

/-- Since `e₀`, the Leios call `x` has left its queue, or it is at the head still and each Praos
grant advanced `praosRun`. -/
def Bypassed (e₀ : Egress) (x : Nat) (e : Egress) : Prop :=
  x < e.calls ∧ (x ∈ e.leios →
    e.leios.head? = some x ∧
      e.praosGrants.length + e₀.praosRun ≤ e₀.praosGrants.length + e.praosRun)

theorem bypassed_step {e₀ : Egress} (e : Egress) (action : Action) (e' : Egress)
    (h : e.Inv ∧ e₀.Bypassed x e) (hstep : e.step action = some e') :
    e'.Inv ∧ e₀.Bypassed x e' := by
  refine ⟨inv_step e action e' h.1 hstep, ?_⟩
  rcases h with ⟨hinv, hcalls, hhead⟩
  cases action with
  | acquire protocolId =>
    cases hstep
    unfold acquire
    cases hbusy : e.busy with
    | false =>
      cases egressClassOf protocolId with
      | praos =>
        refine ⟨Nat.lt_succ_of_lt hcalls, fun hx => ?_⟩
        have hx : x ∈ e.leios := hx
        rw [(hinv.free hbusy).2] at hx
        cases hx
      | leios => exact ⟨Nat.lt_succ_of_lt hcalls, hhead⟩
    | true =>
      cases egressClassOf protocolId with
      | praos => exact ⟨Nat.lt_succ_of_lt hcalls, hhead⟩
      | leios =>
        refine ⟨Nat.lt_succ_of_lt hcalls, fun hx => ?_⟩
        rcases List.mem_append.mp hx with hold | hnew
        · rcases hhead hold with ⟨hfirst, hgrants⟩
          refine ⟨?_, hgrants⟩
          show (e.leios ++ [e.calls]).head? = some x
          rw [List.head?_append, hfirst]
          rfl
        · exact absurd (List.mem_singleton.mp hnew) (Nat.ne_of_lt hcalls)
  | wake c | cancel c | take c | look c =>
    rcases Option.ite_none_right_eq_some.mp hstep with ⟨-, hstep⟩
    cases hstep
    exact ⟨hcalls, hhead⟩
  | shutdown =>
    cases hstep
    exact ⟨hcalls, hhead⟩
  | remove c =>
    rcases Option.ite_none_right_eq_some.mp hstep with ⟨-, hstep⟩
    cases hstep
    unfold Egress.remove
    split
    · exact ⟨hcalls, hhead⟩
    split
    · refine ⟨hcalls, fun hx => ?_⟩
      rcases (hinv.leios.nodup.mem_erase_iff).mp hx with ⟨hne, hx⟩
      rcases hhead hx with ⟨hfirst, hgrants⟩
      refine ⟨?_, hgrants⟩
      -- the call that leaves is behind the head
      rcases List.head?_eq_some_iff.mp hfirst with ⟨rest, hleios⟩
      show (e.leios.erase c).head? = some x
      rw [hleios, List.erase_cons_tail (by simpa using hne)]
      rfl
    · exact ⟨hcalls, hhead⟩
  | release c =>
    rcases Option.ite_none_right_eq_some.mp hstep with ⟨-, hstep⟩
    cases hstep
    -- the head does not stand further back, so it left with its grant
    have hgone {w : Nat} {rest : List Nat} (hleios : e.leios = w :: rest) : x ∉ rest := by
      intro hx
      have hnodup := hinv.leios.nodup
      rw [hleios] at hnodup hhead
      cases (hhead (List.mem_cons_of_mem w hx)).1
      exact (List.nodup_cons.mp hnodup).1 hx
    unfold Egress.release
    dsimp only
    split
    case h_1 hleios _ | h_4 hleios _ =>
      refine ⟨hcalls, fun hx => ?_⟩
      have hx : x ∈ e.leios := hx
      rw [hleios] at hx
      cases hx
    case h_2 hleios _ => exact ⟨hcalls, fun hx => absurd hx (hgone hleios)⟩
    case h_3 hleios _ =>
      split
      · exact ⟨hcalls, fun hx => absurd hx (hgone hleios)⟩
      · refine ⟨hcalls, fun hx => ?_⟩
        rcases hhead hx with ⟨hfirst, hgrants⟩
        refine ⟨hfirst, ?_⟩
        dsimp only
        rw [List.length_append, List.length_singleton]
        omega

/-- Over any interleaving of any number of calls, from the scheduler that nobody uses. -/
theorem egress_scheduler_safe (before after : List Action) (e e' : Egress)
    (hbefore : Transition.run step {} before = some e)
    (hafter : Transition.run step e after = some e') :
    -- at most one call has the turn, and a turn nobody has is free
    (∀ x y, e.HasTurn x → e.HasTurn y → x = y) ∧
    ((∀ x, ¬ e.HasTurn x) → e.busy = false ∧ e.praos = [] ∧ e.leios = []) ∧
    -- a call that waits is queued or granted
    (∀ x, e.pc x = .waiting ∨ e.pc x = .cancelling ∨ e.pc x = .awaiting →
      e.HasTurn x ∨ x ∈ e.praos ∨ x ∈ e.leios) ∧
    -- each class in the order of arrival, and nobody overtakes one that waits
    (e.praosGrants.Pairwise (· < ·) ∧ ∀ x ∈ e.praosGrants, ∀ w ∈ e.praos, x < w) ∧
    (e.leiosGrants.Pairwise (· < ·) ∧ ∀ x ∈ e.leiosGrants, ∀ w ∈ e.leios, x < w) ∧
    e.praosRun ≤ praosBurst ∧
    -- while a Leios call is at the head
    ∀ x, e.leios.head? = some x → x ∈ e'.leios →
      e'.praosGrants.length ≤ e.praosGrants.length + praosBurst := by
  have h := Transition.run_invariant inv_step inv_init hbefore
  rcases h.turns.turn with ⟨owner, hturn⟩
  rcases List.pairwise_append.mp h.praos.order with ⟨hpraos, -, hpraosBefore⟩
  rcases List.pairwise_append.mp h.leios.order with ⟨hleios, -, hleiosBefore⟩
  refine ⟨fun x y hx hy => ?_, fun hnone => ?_, fun x hx => ?_, ⟨hpraos, hpraosBefore⟩,
    ⟨hleios, hleiosBefore⟩, h.run, fun x hx hwaits => ?_⟩
  · rw [hasTurn_iff, hturn] at hx hy
    exact hx.2.trans hy.2.symm
  · have hfree : e.busy = false := by
      have howner := hnone owner
      rw [hasTurn_iff, hturn] at howner
      simpa using howner
    exact ⟨hfree, h.free hfree⟩
  · rw [hasTurn_iff]
    cases hstage : stages e.pc e.granted x with
    | turn => exact .inl rfl
    | queued => exact .inr (List.mem_append.mp ((h.turns.queued x).mp hstage))
    | lost => exact absurd hstage (h.turns.found x)
    | outside =>
      unfold stages at hstage
      cases hgranted : e.granted x <;> rw [hgranted] at hstage <;>
        rcases hx with hx | hx | hx <;> rw [hx] at hstage <;> cases hstage
  · have hknown : x < e.calls :=
      h.leios.known x (List.mem_append_right _ (List.mem_of_mem_head? hx))
    have hstart : e.Inv ∧ e.Bypassed x e := ⟨h, hknown, fun _ => ⟨hx, Nat.le_refl _⟩⟩
    rcases Transition.run_invariant bypassed_step hstart hafter with ⟨hinv, -, hbypassed⟩
    have hgrants := (hbypassed hwaits).2
    have hrun := hinv.run
    omega

/-- Praos 0 writes, Leios 1 and Praos 2 wait, and 2 is granted at the shutdown. -/
def contention : List Action := [.acquire 2, .look 0, .acquire 18, .acquire 3]

theorem egress_scheduler_safe_contention :
    (Transition.run step {} contention).isSome = true ∧
    ∀ e e', Transition.run step {} contention = some e →
      Transition.run step e [.release 0, .shutdown, .cancel 2, .remove 2, .take 2] = some e' →
      e.leios.head? = some 1 ∧ e'.praosGrants = [0, 2] ∧
        e'.praosGrants.length ≤ e.praosGrants.length + praosBurst := by
  refine ⟨by rfl, fun e e' he he' => ?_⟩
  have h := egress_scheduler_safe _ _ e e' he he'
  cases he
  cases he'
  exact ⟨by rfl, by rfl, h.2.2.2.2.2.2 1 (by rfl) (by decide)⟩

end Egress

end Gouroboros.Muxer

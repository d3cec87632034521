import Gouroboros.Lib.Total
import Gouroboros.Ledger.Common.BlockAccounts

/-!
# The value a ledger state holds

Lovelace sits in the outputs, in the reward accounts and in the recorded stake
and DRep deposits; assets sit in the outputs. Each of these is a function of a
key, and the lemmas below say how far the output and withdrawal effects of a
transaction move it.
-/

namespace Gouroboros.Ledger

open Total

def amountAt (amount : TransactionOutput → Int) (ls : LedgerState) (input : TransactionInput) :
    Int :=
  match ls.utxoById input with
  | .ok utxo => amount utxo.output
  | .error _ => 0

def recordedAmount : Except LedgerError (Option UInt64) → Int
  | .ok (some amount) => amount.toNat
  | _ => 0

def rewardOf (ls : LedgerState) (cred : Credential) : Int :=
  recordedAmount (ls.rewardAccountBalance cred)

def stakeDepositOf (ls : LedgerState) (cred : Credential) : Int :=
  recordedAmount (recordedStakeDeposit ls cred)

def registrationDeposit (reg : Except LedgerError (Option DRepRegistration)) : Int :=
  recordedAmount (reg.map fun reg => reg.bind (·.deposit))

def drepDepositOf (ls : LedgerState) (cred : Credential) : Int :=
  registrationDeposit (ls.dRepRegistration cred)

/-! ## Outputs -/

/-- The answers after a transaction: `spent` for its consumed inputs, then `found` for its produced
outputs. -/
def utxoAnswers {V : Type} (spent : TransactionInput → V) (found : Utxo → V)
    (answers : TransactionInput → V) (tx : Transaction) : TransactionInput → V :=
  tx.produced.foldl (fun answers utxo => Function.update answers utxo.id (found utxo))
    (tx.consumed.foldl (fun answers input => Function.update answers input (spent input)) answers)

theorem answers_eq {S V : Type} {query : S → TransactionInput → V} {spent : TransactionInput → V}
    {found : Utxo → V} {consume : S → TransactionInput → S} {produce : S → Utxo → S}
    (hconsume : ∀ s input k, query (consume s input) k = if k = input then spent input else query s k)
    (hproduce : ∀ s utxo k, query (produce s utxo) k = if k = utxo.id then found utxo else query s k)
    (s : S) (tx : Transaction) :
    query (tx.produced.foldl produce (tx.consumed.foldl consume s)) =
      utxoAnswers spent found (query s) tx := by
  unfold utxoAnswers
  rw [@List.foldl_hom _ _ _ query consume, @List.foldl_hom _ _ _ query produce]
  · intro s utxo
    funext k
    rw [Function.update_apply, hproduce]
  · intro s input
    funext k
    rw [Function.update_apply, hconsume]

namespace BlockLedgerState

variable {b b' : BlockLedgerState}

theorem utxoById_consume (b : BlockLedgerState) (input k : TransactionInput) :
    (b.consume input).utxoById k =
      if k = input then .error (.utxoSpentInBlock input) else b.utxoById k := by
  by_cases h : k = input
  · subst h
    simp [utxoById, consume]
  · simp [utxoById, consume, h, AList.lookup_erase_ne h, AList.lookup_insert_ne h]

theorem utxoById_produce (b : BlockLedgerState) (utxo : Utxo) (k : TransactionInput) :
    (b.produce utxo).utxoById k = if k = utxo.id then .ok utxo else b.utxoById k := by
  by_cases h : k = utxo.id
  · subst h
    simp [utxoById, produce]
  · simp [utxoById, produce, h, AList.lookup_erase_ne h, AList.lookup_insert_ne h]

theorem utxoById_congr (h : b'.utxoPart = b.utxoPart) (input : TransactionInput) :
    b'.utxoById input = b.utxoById input := by
  simp only [utxoPart, Prod.mk.injEq] at h
  rw [utxoById, utxoById, h.1, h.2.1, h.2.2]

section

variable (amount : TransactionOutput → Int)
include amount

theorem amountAt_consume (b : BlockLedgerState)
    (input k : TransactionInput) :
    amountAt amount (b.consume input).toLedgerState k =
      if k = input then 0 else amountAt amount b.toLedgerState k := by
  change (match (b.consume input).utxoById k with
    | .ok utxo => amount utxo.output
    | .error _ => 0) = _
  rw [utxoById_consume]
  by_cases h : k = input
  · simp [h]
  · simp only [h, if_false]
    rfl

theorem amountAt_produce (b : BlockLedgerState)
    (utxo : Utxo) (k : TransactionInput) :
    amountAt amount (b.produce utxo).toLedgerState k =
      if k = utxo.id then amount utxo.output else amountAt amount b.toLedgerState k := by
  change (match (b.produce utxo).utxoById k with
    | .ok utxo => amount utxo.output
    | .error _ => 0) = _
  rw [utxoById_produce]
  by_cases h : k = utxo.id
  · simp [h]
  · simp only [h, if_false]
    rfl

theorem amountAt_congr (h : b'.utxoPart = b.utxoPart) :
    amountAt amount b'.toLedgerState = amountAt amount b.toLedgerState := by
  simp only [utxoPart, Prod.mk.injEq] at h
  funext k
  simp only [amountAt, toLedgerState, utxoById, h.1, h.2.1, h.2.2]

theorem consume_moves {inputs : List TransactionInput}
    (hnodup : inputs.Nodup) (b : BlockLedgerState) :
    Moves (amountAt amount b.toLedgerState)
      (amountAt amount (inputs.foldl consume b).toLedgerState)
      (-(inputs.map (amountAt amount b.toLedgerState)).sum) ∧
    ∀ k, amountAt amount (inputs.foldl consume b).toLedgerState k =
      if k ∈ inputs then 0 else amountAt amount b.toLedgerState k := by
  induction inputs generalizing b with
  | nil => exact ⟨by simpa using Moves.refl _, fun k => by simp⟩
  | cons input inputs ih =>
    obtain ⟨hmem, hnodup⟩ := List.nodup_cons.mp hnodup
    obtain ⟨hmoves, hafter⟩ := ih hnodup (b.consume input)
    have hone : Moves (amountAt amount b.toLedgerState)
        (amountAt amount (b.consume input).toLedgerState)
        (0 - amountAt amount b.toLedgerState input) := by
      have h := Moves.of_ne (f := amountAt amount b.toLedgerState)
        (g := amountAt amount (b.consume input).toLedgerState) input
        (fun k hk => by rw [amountAt_consume, if_neg hk])
      rwa [amountAt_consume, if_pos rfl] at h
    have hsum : (inputs.map (amountAt amount (b.consume input).toLedgerState)).sum =
        (inputs.map (amountAt amount b.toLedgerState)).sum := by
      refine congrArg List.sum (List.map_congr_left ?_)
      intro k hk
      have hne : k ≠ input := fun h => hmem (h ▸ hk)
      rw [amountAt_consume, if_neg hne]
    constructor
    · have h := hone.trans hmoves
      rw [hsum] at h
      rw [List.foldl_cons, List.map_cons, List.sum_cons]
      convert h using 1
      ring
    · intro k
      rw [List.foldl_cons, hafter, amountAt_consume]
      by_cases hk : k = input
      · simp [hk]
      · simp [hk]

theorem produce_moves {utxos : List Utxo} (hnodup : (utxos.map (·.id)).Nodup) (b : BlockLedgerState)
    (hfresh : ∀ u ∈ utxos, amountAt amount b.toLedgerState u.id = 0) :
    Moves (amountAt amount b.toLedgerState) (amountAt amount (utxos.foldl produce b).toLedgerState)
      (utxos.map fun u => amount u.output).sum := by
  induction utxos generalizing b with
  | nil => exact Moves.refl _
  | cons utxo utxos ih =>
    obtain ⟨hmem, hnodup⟩ := List.nodup_cons.mp hnodup
    obtain ⟨hhead, htail⟩ := List.forall_mem_cons.mp hfresh
    have hone : Moves (amountAt amount b.toLedgerState)
        (amountAt amount (b.produce utxo).toLedgerState) (amount utxo.output) := by
      have h := Moves.of_ne (f := amountAt amount b.toLedgerState)
        (g := amountAt amount (b.produce utxo).toLedgerState) utxo.id
        (fun k hk => by rw [amountAt_produce, if_neg hk])
      rwa [amountAt_produce, if_pos rfl, hhead, sub_zero] at h
    have hstill : ∀ u ∈ utxos, amountAt amount (b.produce utxo).toLedgerState u.id = 0 := by
      intro u hu
      have hne : u.id ≠ utxo.id := fun h => hmem (List.mem_map.mpr ⟨u, hu, h⟩)
      rw [amountAt_produce, if_neg hne]
      exact htail u hu
    exact hone.trans (ih hnodup (b.produce utxo) hstill)

end

variable (b) in
theorem applyUtxo_moves (amount : TransactionOutput → Int) (tx : Transaction)
    (hconsumed : tx.consumed.Nodup) (hproduced : (tx.produced.map (·.id)).Nodup)
    (hfresh : ∀ u ∈ tx.produced, u.id ∈ tx.consumed ∨ ∀ utxo, b.utxoById u.id ≠ .ok utxo) :
    Moves (amountAt amount b.toLedgerState) (amountAt amount (b.applyUtxo tx).toLedgerState)
      ((tx.produced.map fun u => amount u.output).sum -
        (tx.consumed.map (amountAt amount b.toLedgerState)).sum) := by
  obtain ⟨hspend, hafter⟩ := consume_moves amount hconsumed b
  have hempty : ∀ u ∈ tx.produced,
      amountAt amount (tx.consumed.foldl consume b).toLedgerState u.id = 0 := by
    intro u hu
    rw [hafter]
    rcases hfresh u hu with hmem | hnone
    · rw [if_pos hmem]
    · split
      · rfl
      · change (match b.utxoById u.id with
          | .ok utxo => amount utxo.output
          | .error _ => 0) = 0
        cases hu : b.utxoById u.id with
        | ok utxo => exact absurd hu (hnone utxo)
        | error e => rfl
  have h := hspend.trans (produce_moves amount hproduced _ hempty)
  rwa [neg_add_eq_sub] at h

/-! ## Withdrawals -/

variable {cred : Credential}

theorem applyWithdrawal_of_covers {w : Address × Option Int} {amount balance : UInt64}
    (h : Covers b.rewardAccountBalance w cred amount balance) :
    ∃ b', b.applyWithdrawal w = .ok b' ∧ SameBesidesAccounts b b' ∧
      ∀ c, b'.accountAnswer c =
        if c = cred then { b.accountAnswer cred with balance := .ok (some (balance - amount)) }
        else b.accountAnswer c := by
  refine ⟨b.setAccount cred
      { b.account cred with balance := balance - amount, balanceKnown := true }, ?_,
    sameBesidesAccounts_setAccount b cred _, accountAnswer_setBalance h.balance_eq (balance - amount)⟩
  have hleft : remainingBalance (some balance) w.2 = balance - amount := by
    simp [remainingBalance, h.amount_eq, h.le]
  unfold BlockLedgerState.applyWithdrawal
  rw [h.credential_eq]
  refine ExceptFold.bind_eq_ok.mpr ⟨some balance, h.balance_eq, ?_⟩
  rw [hleft]

theorem rewardOf_eq (b : BlockLedgerState) (c : Credential) :
    rewardOf b.toLedgerState c = recordedAmount (b.accountAnswer c).balance := rfl

theorem stakeDepositOf_eq (b : BlockLedgerState) (c : Credential) :
    stakeDepositOf b.toLedgerState c = recordedAmount (b.accountAnswer c).deposit := rfl

theorem rewardOf_congr (h : ∀ c, b'.accountAnswer c = b.accountAnswer c) :
    rewardOf b'.toLedgerState = rewardOf b.toLedgerState := by
  funext c
  rw [rewardOf_eq, rewardOf_eq, h]

theorem stakeDepositOf_congr (h : ∀ c, b'.accountAnswer c = b.accountAnswer c) :
    stakeDepositOf b'.toLedgerState = stakeDepositOf b.toLedgerState := by
  funext c
  rw [stakeDepositOf_eq, stakeDepositOf_eq, h]

theorem drepDepositOf_congr (h : ∀ c, b'.dRepRegistration c = b.dRepRegistration c) :
    drepDepositOf b'.toLedgerState = drepDepositOf b.toLedgerState :=
  funext fun c => congrArg registrationDeposit (h c)

section

variable {answer : AccountAnswer}
  (h : ∀ c, b'.accountAnswer c = if c = cred then answer else b.accountAnswer c)
include h

theorem rewards_move : Moves (rewardOf b.toLedgerState) (rewardOf b'.toLedgerState)
      (recordedAmount answer.balance - rewardOf b.toLedgerState cred) := by
  have hm := Moves.of_ne (f := rewardOf b.toLedgerState) (g := rewardOf b'.toLedgerState) cred
    (fun c hc => by rw [rewardOf_eq, rewardOf_eq, h, if_neg hc])
  rwa [rewardOf_eq b', h, if_pos rfl] at hm

theorem stakeDeposits_move :
    Moves (stakeDepositOf b.toLedgerState) (stakeDepositOf b'.toLedgerState)
      (recordedAmount answer.deposit - stakeDepositOf b.toLedgerState cred) := by
  have hm := Moves.of_ne (f := stakeDepositOf b.toLedgerState)
    (g := stakeDepositOf b'.toLedgerState) cred
    (fun c hc => by rw [stakeDepositOf_eq, stakeDepositOf_eq, h, if_neg hc])
  rwa [stakeDepositOf_eq b', h, if_pos rfl] at hm

end

end BlockLedgerState

end Gouroboros.Ledger

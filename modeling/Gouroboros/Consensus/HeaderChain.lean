import Gouroboros.Consensus.Eligibility
import Gouroboros.Ledger.Common.Types

/-!
# Chains of accepted headers

`consensus/validate.go`: `ValidateHeader` runs eleven checks and collects their errors. Four of them
read the chain: slot, block number, previous hash and operational certificate counter. They are
modelled here; the others read the header and the pool, and are parameters.
`accepted_headers_form_chain` is about every run in which each header is checked against the last
accepted one.
-/

namespace Gouroboros.Consensus

open ExceptFold

open Ledger (ByteString hexString)

/-! ## The validator -/

/-- The input of `ValidateHeader`. `rest` are the fields that only the checks of
`HeaderChecks` read: proofs, signatures, nonce, stake and registered key. -/
structure ValidateHeaderInput (Rest : Type) where
  slot : UInt64
  blockNumber : UInt64
  prevHash : ByteString
  issuerVkey : ByteString
  opCertSequenceNumber : UInt64
  opCertCounterState : Option UInt64
  prevSlot : UInt64
  prevBlockNumber : UInt64
  prevHeaderHash : ByteString
  rest : Rest

structure ValidateResult where
  valid : Bool := true
  vrfOutput : Option ByteString := none
  nextOpCertCounter : Option UInt64 := none
  errors : List String := []
deriving DecidableEq

/-- The checks that do not read the chain. -/
structure HeaderChecks (Rest : Type) where
  validateVRFProof : ValidateHeaderInput Rest → Except String (Option ByteString)
  validateLeadership : ValidateHeaderInput Rest → ByteString → Except String Unit
  validateNonceVRFProof : ValidateHeaderInput Rest → Except String Unit
  validateKESPeriod : ValidateHeaderInput Rest → Except String Unit
  validateKESSignature : ValidateHeaderInput Rest → Except String Unit
  validateOpCertSignature : ValidateHeaderInput Rest → Except String Unit
  validateVRFKeyRegistration : ValidateHeaderInput Rest → Except String Unit

/-- A failed check is noted. -/
def ValidateResult.collect {α : Type} (result : ValidateResult) :
    Except String α → ValidateResult
  | .ok _ => result
  | .error e => { result with valid := false, errors := result.errors ++ [e] }

structure HeaderValidator (Rest : Type) where
  mode : ConsensusMode
  checks : HeaderChecks Rest

variable {Rest : Type}

namespace HeaderValidator

variable (v : HeaderValidator Rest) (input : ValidateHeaderInput Rest)

def validateOpCertSequence : Except String UInt64 :=
  match input.opCertCounterState with
  | none => .error "previous operational certificate counter is required for header validation"
  | some previous =>
    let current := input.opCertSequenceNumber
    if current < previous then
      .error ("operational certificate counter rolled back: " ++
        s!"current={current}, previous={previous}")
    else if v.mode = .cPraos ∧ current > previous ∧ current - previous > 1 then
      .error ("operational certificate counter skipped ahead: " ++
        s!"current={current}, previous={previous}")
    else .ok current

def validateSlotOrdering : Except String Unit :=
  if input.slot ≤ input.prevSlot then
    .error ("slot must be greater than previous slot: " ++
      s!"current={input.slot}, previous={input.prevSlot}")
  else .ok ()

/-- The addition wraps around. -/
def validateBlockNumber : Except String Unit :=
  let expectedBlockNumber := input.prevBlockNumber + 1
  if input.blockNumber ≠ expectedBlockNumber then
    .error ("block number must be previous + 1: " ++
      s!"current={input.blockNumber}, expected={expectedBlockNumber}")
  else .ok ()

def validatePrevHash : Except String Unit :=
  if input.blockNumber > 0 ∧ input.prevHeaderHash.length = 0 then
    .error "previous header hash is required for non-genesis blocks"
  else if input.prevHeaderHash.length > 0 ∧ input.prevHash ≠ input.prevHeaderHash then
    let got := hexString input.prevHash
    let expected := hexString input.prevHeaderHash
    .error s!"previous hash does not match: got {got}, expected {expected}"
  else .ok ()

def collected : ValidateResult :=
  let vrf := v.checks.validateVRFProof input
  let leadership :=
    match vrf with
    | .ok (some vrfOutput) => v.checks.validateLeadership input vrfOutput
    | _ => .ok ()
  let result : ValidateResult :=
    { vrfOutput := match vrf with | .ok vrfOutput => vrfOutput | .error _ => none }
  result.collect (validateSlotOrdering input)
    |>.collect (validateBlockNumber input)
    |>.collect (validatePrevHash input)
    |>.collect vrf
    |>.collect leadership
    |>.collect (v.checks.validateNonceVRFProof input)
    |>.collect (v.checks.validateKESPeriod input)
    |>.collect (v.checks.validateKESSignature input)
    |>.collect (v.checks.validateOpCertSignature input)
    |>.collect (v.validateOpCertSequence input)
    |>.collect (v.checks.validateVRFKeyRegistration input)

def validateHeader : ValidateResult :=
  let result := v.collected input
  if result.valid then
    { result with nextOpCertCounter := some ((v.validateOpCertSequence input).toOption.getD 0) }
  else result

end HeaderValidator

/-! ## Runs -/

/-- A header that a run tries, with the hash of its bytes. -/
structure ChainHeader (Rest : Type) where
  slot : UInt64
  blockNumber : UInt64
  prevHash : ByteString
  hash : ByteString
  issuerVkey : ByteString
  opCertSequenceNumber : UInt64
  rest : Rest

/-- What the next header is checked against: the last accepted header, and the counter last
returned for each issuer. -/
structure ChainState where
  slot : UInt64
  blockNumber : UInt64
  hash : ByteString
  counters : ByteString → UInt64

namespace HeaderValidator

variable (v : HeaderValidator Rest)

def inputOf (s : ChainState) (h : ChainHeader Rest) : ValidateHeaderInput Rest where
  slot := h.slot
  blockNumber := h.blockNumber
  prevHash := h.prevHash
  issuerVkey := h.issuerVkey
  opCertSequenceNumber := h.opCertSequenceNumber
  opCertCounterState := some (s.counters h.issuerVkey)
  prevSlot := s.slot
  prevBlockNumber := s.blockNumber
  prevHeaderHash := s.hash
  rest := h.rest

/-- The state after a header: only a returned counter moves it. -/
def advance (s : ChainState) (h : ChainHeader Rest) : ChainState :=
  match (v.validateHeader (inputOf s h)).nextOpCertCounter with
  | some counter =>
    { slot := h.slot, blockNumber := h.blockNumber, hash := h.hash
      counters := Function.update s.counters h.issuerVkey counter }
  | none => s

def accepted (s : ChainState) : List (ChainHeader Rest) → List (ChainHeader Rest)
  | [] => []
  | h :: headers =>
    if (v.validateHeader (inputOf s h)).valid then h :: accepted (v.advance s h) headers
    else accepted (v.advance s h) headers

end HeaderValidator

/-- The headers follow on each other from a slot, a block number and a hash. -/
def Chained : UInt64 → UInt64 → ByteString → List (ChainHeader Rest) → Prop
  | _, _, _, [] => True
  | slot, blockNumber, hash, h :: headers =>
    slot < h.slot ∧ h.blockNumber.toNat = blockNumber.toNat + 1 ∧ h.prevHash = hash ∧
      Chained h.slot h.blockNumber h.hash headers

def CounterFollows (mode : ConsensusMode) (previous current : UInt64) : Prop :=
  previous ≤ current ∧ (mode = .cPraos → current.toNat ≤ previous.toNat + 1)

/-! ## What an accepted header satisfies -/

@[simp] theorem ValidateResult.valid_collect {α : Type} (result : ValidateResult)
    (e : Except String α) : (result.collect e).valid ↔ result.valid ∧ ∃ a, e = .ok a := by
  cases e <;> simp [collect]

@[simp] theorem ValidateResult.collect_nextOpCertCounter {α : Type} (result : ValidateResult)
    (e : Except String α) : (result.collect e).nextOpCertCounter = result.nextOpCertCounter := by
  cases e <;> rfl

namespace HeaderValidator

variable {v : HeaderValidator Rest} {input : ValidateHeaderInput Rest} {s : ChainState}
  {h : ChainHeader Rest}

theorem validateOpCertSequence_eq_ok {next : UInt64}
    (hok : v.validateOpCertSequence input = .ok next) :
    next = input.opCertSequenceNumber ∧
      ∀ previous, input.opCertCounterState = some previous →
        CounterFollows v.mode previous input.opCertSequenceNumber := by
  cases hstate : input.opCertCounterState with
  | none => simp [validateOpCertSequence, hstate] at hok
  | some previous =>
    simp only [validateOpCertSequence, hstate, guard_eq_ok, Except.ok.injEq] at hok
    obtain ⟨hback, hskip, rfl⟩ := hok
    refine ⟨rfl, ?_⟩
    rintro _ ⟨⟩
    have hle : previous ≤ input.opCertSequenceNumber := by simpa using hback
    refine ⟨hle, fun hmode => ?_⟩
    simp only [hmode, true_and, not_and, gt_iff_lt, UInt64.lt_iff_toNat_lt,
      UInt64.toNat_sub_of_le _ _ hle, UInt64.toNat_one] at hskip
    omega

theorem validateHeader_valid : (v.validateHeader input).valid = (v.collected input).valid := by
  unfold validateHeader
  dsimp only
  split <;> rfl

theorem checks_of_valid (hvalid : (v.validateHeader input).valid) :
    validateSlotOrdering input = .ok () ∧ validateBlockNumber input = .ok () ∧
      validatePrevHash input = .ok () ∧ ∃ next, v.validateOpCertSequence input = .ok next := by
  rw [validateHeader_valid] at hvalid
  simp only [collected, ValidateResult.valid_collect] at hvalid
  grind

theorem nextOpCertCounter_eq :
    (v.validateHeader input).nextOpCertCounter =
      if (v.validateHeader input).valid then some input.opCertSequenceNumber else none := by
  split
  · rename_i hvalid
    obtain ⟨-, -, -, next, hnext⟩ := checks_of_valid hvalid
    rw [validateHeader_valid] at hvalid
    simp [validateHeader, hvalid, hnext, Except.toOption, (validateOpCertSequence_eq_ok hnext).1]
  · rename_i hvalid
    rw [validateHeader_valid] at hvalid
    have hnone : (v.collected input).nextOpCertCounter = none := by simp [collected]
    simp [validateHeader, hvalid, hnone]

theorem links_of_valid (hstart : s.blockNumber.toNat ≤ s.slot.toNat)
    (hvalid : (v.validateHeader (inputOf s h)).valid) :
    s.slot < h.slot ∧ h.blockNumber.toNat = s.blockNumber.toNat + 1 ∧ h.prevHash = s.hash ∧
      CounterFollows v.mode (s.counters h.issuerVkey) h.opCertSequenceNumber := by
  obtain ⟨hslot, hnumber, hhash, next, hnext⟩ := checks_of_valid hvalid
  have hslot : s.slot < h.slot := UInt64.not_le.mp (guard_eq_ok.mp hslot).1
  have hnumber : h.blockNumber = s.blockNumber + 1 := not_not.mp (guard_eq_ok.mp hnumber).1
  have hlt := UInt64.lt_iff_toNat_lt.mp hslot
  have hbound := h.slot.toNat_lt
  have hplus : h.blockNumber.toNat = s.blockNumber.toNat + 1 := by
    rw [hnumber, UInt64.toNat_add, UInt64.toNat_one]
    omega
  refine ⟨hslot, hplus, ?_, (validateOpCertSequence_eq_ok hnext).2 _ rfl⟩
  have hpos : h.blockNumber > 0 := by
    rw [gt_iff_lt, UInt64.lt_iff_toNat_lt, hplus]
    simp
  simp only [validatePrevHash, inputOf] at hhash
  grind

theorem advance_eq (s : ChainState) (h : ChainHeader Rest) :
    v.advance s h =
      if (v.validateHeader (inputOf s h)).valid then
        { slot := h.slot, blockNumber := h.blockNumber, hash := h.hash
          counters := Function.update s.counters h.issuerVkey h.opCertSequenceNumber }
      else s := by
  unfold advance
  rw [nextOpCertCounter_eq]
  cases (v.validateHeader (inputOf s h)).valid <;> rfl

/-! ## The run -/

section

variable (hstart : s.blockNumber.toNat ≤ s.slot.toNat) (headers : List (ChainHeader Rest))
include hstart headers

theorem chained_accepted : Chained s.slot s.blockNumber s.hash (v.accepted s headers) := by
  induction headers generalizing s with
  | nil => trivial
  | cons h headers ih =>
    unfold accepted
    rw [advance_eq]
    split
    · rename_i hvalid
      obtain ⟨hslot, hnumber, hhash, -⟩ := links_of_valid hstart hvalid
      have hnext : h.blockNumber.toNat ≤ h.slot.toNat := by
        have := UInt64.lt_iff_toNat_lt.mp hslot
        omega
      exact ⟨hslot, hnumber, hhash, ih (s := ⟨h.slot, h.blockNumber, h.hash, _⟩) hnext⟩
    · exact ih hstart

theorem counters_accepted (issuer : ByteString) :
    List.IsChain (CounterFollows v.mode) (s.counters issuer ::
      ((v.accepted s headers).filter (·.issuerVkey = issuer)).map (·.opCertSequenceNumber)) := by
  induction headers generalizing s with
  | nil => exact .singleton _
  | cons h headers ih =>
    unfold accepted
    rw [advance_eq]
    split
    · rename_i hvalid
      obtain ⟨hslot, hnumber, -, hcounter⟩ := links_of_valid hstart hvalid
      have hnext : h.blockNumber.toNat ≤ h.slot.toNat := by
        have := UInt64.lt_iff_toNat_lt.mp hslot
        omega
      have hrest := ih (s := ⟨h.slot, h.blockNumber, h.hash,
        Function.update s.counters h.issuerVkey h.opCertSequenceNumber⟩) hnext
      by_cases hissuer : h.issuerVkey = issuer
      · subst hissuer
        simpa using ⟨hcounter, by simpa using hrest⟩
      · simpa [hissuer, Function.update_of_ne (Ne.symm hissuer)] using hrest
    · exact ih hstart

end

theorem accepted_headers_form_chain (v : HeaderValidator Rest) (start : ChainState)
    (hstart : start.blockNumber.toNat ≤ start.slot.toNat) (headers : List (ChainHeader Rest)) :
    Chained start.slot start.blockNumber start.hash (v.accepted start headers) ∧
    (∀ issuer, List.IsChain (CounterFollows v.mode) (start.counters issuer ::
      ((v.accepted start headers).filter (·.issuerVkey = issuer)).map
        (·.opCertSequenceNumber))) ∧
    ∀ (s : ChainState) (h : ChainHeader Rest), (v.validateHeader (inputOf s h)).valid = false →
      (v.validateHeader (inputOf s h)).nextOpCertCounter = none ∧ v.advance s h = s := by
  refine ⟨chained_accepted hstart headers, counters_accepted hstart headers, ?_⟩
  intro s h hinvalid
  rw [advance_eq, nextOpCertCounter_eq, hinvalid]
  exact ⟨rfl, rfl⟩

def lenient : HeaderValidator Unit where
  mode := .cPraos
  checks :=
    { validateVRFProof := fun _ => .ok none
      validateLeadership := fun _ _ => .ok ()
      validateNonceVRFProof := fun _ => .ok ()
      validateKESPeriod := fun _ => .ok ()
      validateKESSignature := fun _ => .ok ()
      validateOpCertSignature := fun _ => .ok ()
      validateVRFKeyRegistration := fun _ => .ok () }

/-- Two issuers; the second header skips a counter and is rejected. -/
def twoIssuers : List (ChainHeader Unit) :=
  [⟨5, 4, [1], [2], [10], 1, ()⟩, ⟨6, 5, [2], [3], [11], 2, ()⟩, ⟨7, 5, [2], [4], [11], 1, ()⟩]

theorem accepted_headers_form_chain_twoIssuers :
    (lenient.accepted ⟨3, 3, [1], fun _ => 0⟩ twoIssuers).map (·.hash) = [[2], [4]] ∧
      Chained 3 3 [1] (lenient.accepted ⟨3, 3, [1], fun _ => 0⟩ twoIssuers) :=
  ⟨by decide, (accepted_headers_form_chain lenient ⟨3, 3, [1], fun _ => 0⟩ (by decide)
    twoIssuers).1⟩

end HeaderValidator

end Gouroboros.Consensus

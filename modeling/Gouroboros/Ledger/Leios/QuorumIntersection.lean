import Mathlib.Tactic.Linarith
import Mathlib.Tactic.Ring
import Gouroboros.Lib.ExceptFold
import Gouroboros.Lib.WeightedQuorum
import Gouroboros.Ledger.Leios.Certificate

/-!
# Leios certificates meet in a verified seat

An accepted certificate selects seats that all have verified keys and whose stake,
as a natural number, reaches the threshold (`Accepted`). The loop checks the stake
of all seats against the total, selected or not, so two quorums of one committee meet
(`certificates_intersect`).

The cache of verified keys does not matter: whatever calls have filled it, an
entry is what the checks would give again (`KeyCache.Sound`).
-/

namespace Gouroboros.Ledger.Leios

open Finset ExceptFold

variable {curve : Curve}

/-! ## The cache -/

/-- Every entry is what the checks give for its key. -/
def KeyCache.Sound (cache : KeyCache curve) : Prop :=
  ∀ dst publicKey proof pub, cache.lookup ⟨dst, publicKey, proof⟩ = some pub →
    checkPossessionKey curve ⟨publicKey, proof⟩ dst = .ok pub

/-- The caches that calls can leave, one after the other, from an empty one. -/
inductive KeyCache.Reached : KeyCache curve → Prop where
  | empty : Reached ∅
  | verified {cache : KeyCache curve} (h : Reached cache) (key : LeiosKey) (dst : String) :
      Reached (verifiedPossessionKey curve cache key dst).2

variable {cache cache' : KeyCache curve} {dst dst' : String}

theorem KeyCache.sound_insert (h : KeyCache.Sound cache) {key : LeiosKey} {pub : curve.G2}
    (hcheck : checkPossessionKey curve key dst = .ok pub) :
    KeyCache.Sound (cache.insert ⟨dst, key.publicKey, key.possessionProof⟩ pub) := by
  intro dst' publicKey' proof' pub' hlookup
  rw [GoMap.lookup_insert_ite] at hlookup
  split at hlookup
  · rename_i heq
    injection heq with hdst hkey hproof
    injection hlookup with hpub
    rw [hdst, hkey, hproof, ← hpub]
    exact hcheck
  · exact h _ _ _ _ hlookup

theorem KeyCache.sound_empty : KeyCache.Sound (∅ : KeyCache curve) := by
  intro _ _ _ _ hlookup
  cases hlookup

theorem verifiedPossessionKey_spec (h : KeyCache.Sound cache) (key : LeiosKey) (dst : String) :
    (verifiedPossessionKey curve cache key dst).1 = checkPossessionKey curve key dst ∧
      KeyCache.Sound (verifiedPossessionKey curve cache key dst).2 := by
  unfold verifiedPossessionKey
  dsimp only
  split
  · rename_i pub hfound
    split at hfound
    · exact ⟨(h _ _ _ _ hfound).symm, h⟩
    · cases hfound
  · cases hcheck : checkPossessionKey curve key dst with
    | error error => exact ⟨rfl, h⟩
    | ok pub =>
      refine ⟨rfl, ?_⟩
      dsimp only
      split
      · unfold cacheKey
        split
        · exact KeyCache.sound_insert KeyCache.sound_empty hcheck
        · exact KeyCache.sound_insert h hcheck
      · exact h

theorem KeyCache.Reached.sound (h : KeyCache.Reached cache) : KeyCache.Sound cache := by
  induction h with
  | empty => exact KeyCache.sound_empty
  | verified _ key dst ih => exact (verifiedPossessionKey_spec ih key dst).2

/-! ## The loop over the seats -/

def stakeAt (committee : List CommitteeMember) (i : ℕ) : ℕ := (committee[i]?).elim 0 (·.stake.toNat)

def selected (signers : List UInt8) (committeeSize : ℕ) : Finset ℕ :=
  (range committeeSize).filter fun i => leiosSignerBit signers i = true

def VerifiedSeat (curve : Curve) (dst : String) (seat : CommitteeMember) : Prop :=
  ∃ key pub, seat.key = some key ∧ checkPossessionKey curve key dst = .ok pub

theorem toNat_add_of_guard {sum stake total : UInt64} (hsum : sum ≤ total)
    (hstake : stake ≤ total - sum) :
    (sum + stake).toNat = sum.toNat + stake.toNat ∧ sum + stake ≤ total := by
  rw [UInt64.le_iff_toNat_le, UInt64.toNat_sub_of_le _ _ hsum] at hstake
  rw [UInt64.le_iff_toNat_le] at hsum
  have hlt := total.toNat_lt
  have hadd : (sum + stake).toNat = sum.toNat + stake.toNat := by
    rw [UInt64.toNat_add]
    exact Nat.mod_eq_of_lt (by omega)
  refine ⟨hadd, ?_⟩
  rw [UInt64.le_iff_toNat_le, hadd]
  omega

/-- What the loop has established when it has read `seats` from seat `i` on. -/
structure SeatsRead (curve : Curve) (signers : List UInt8) (total : UInt64) (dst : String)
    (seats : List CommitteeMember) (i : ℕ) (loop loop' : SeatLoop curve) : Prop where
  committeeStake : loop'.committeeStake.toNat =
    loop.committeeStake.toNat + ∑ j ∈ range seats.length, stakeAt seats j
  committeeStake_le : loop'.committeeStake ≤ total
  signerStake : loop'.signerStake.toNat = loop.signerStake.toNat +
    ∑ j ∈ range seats.length, if leiosSignerBit signers (i + j) then stakeAt seats j else 0
  signerCount : loop'.signerCount = loop.signerCount +
    ∑ j ∈ range seats.length, if leiosSignerBit signers (i + j) then 1 else 0
  verified : ∀ j seat, seats[j]? = some seat → leiosSignerBit signers (i + j) = true →
    VerifiedSeat curve dst seat

@[simp] theorem stakeAt_cons_zero (seat : CommitteeMember) (rest : List CommitteeMember) :
    stakeAt (seat :: rest) 0 = seat.stake.toNat := rfl

@[simp] theorem stakeAt_cons_succ (seat : CommitteeMember) (rest : List CommitteeMember) (j : ℕ) :
    stakeAt (seat :: rest) (j + 1) = stakeAt rest j := rfl

variable {signers : List UInt8} {total : UInt64} {dst : String}

theorem add_one_add (i j : ℕ) : i + 1 + j = i + (j + 1) := by omega

variable {loop loop' : SeatLoop curve}

theorem SeatsRead.cons {seat : CommitteeMember} {rest : List CommitteeMember} {i : ℕ}
    {mid : SeatLoop curve} (h : SeatsRead curve signers total dst rest (i + 1) mid loop')
    (hcommittee : mid.committeeStake.toNat = loop.committeeStake.toNat + seat.stake.toNat)
    (hsigner : mid.signerStake.toNat = loop.signerStake.toNat +
      if leiosSignerBit signers i then seat.stake.toNat else 0)
    (hcount : mid.signerCount = loop.signerCount + if leiosSignerBit signers i then 1 else 0)
    (hverified : leiosSignerBit signers i → VerifiedSeat curve dst seat) :
    SeatsRead curve signers total dst (seat :: rest) i loop loop' where
  committeeStake := by
    rw [h.committeeStake, hcommittee, List.length_cons, Finset.sum_range_succ']
    simp only [stakeAt_cons_succ, stakeAt_cons_zero]
    omega
  committeeStake_le := h.committeeStake_le
  signerStake := by
    rw [h.signerStake, hsigner, List.length_cons, Finset.sum_range_succ']
    simp only [stakeAt_cons_succ, stakeAt_cons_zero, Nat.add_zero, add_one_add]
    omega
  signerCount := by
    rw [h.signerCount, hcount, List.length_cons, Finset.sum_range_succ']
    simp only [Nat.add_zero, add_one_add]
    omega
  verified := by
    intro j seat' hseat hbit
    cases j with
    | zero =>
      cases hseat
      exact hverified hbit
    | succ j =>
      refine h.verified j seat' hseat ?_
      rw [add_one_add]
      exact hbit

theorem seatsRead_of_seatLoop {seats : List CommitteeMember} {i : ℕ} (hcache : KeyCache.Sound cache)
    (hloop : loop.committeeStake ≤ total)
    (h : (seatLoop curve signers total dst seats i loop cache).1 = .ok loop') :
    SeatsRead curve signers total dst seats i loop loop' := by
  induction seats generalizing i loop cache with
  | nil =>
    cases h
    exact ⟨rfl, hloop, rfl, rfl, nofun⟩
  | cons seat rest ih =>
    unfold seatLoop at h
    split at h
    · cases h
    · rename_i hguard
      rw [Bool.or_eq_true, not_or, decide_eq_true_iff, decide_eq_true_iff, UInt64.not_lt,
        UInt64.not_lt] at hguard
      obtain ⟨-, hstake⟩ := hguard
      obtain ⟨hadd, hle⟩ := toNat_add_of_guard hloop hstake
      split at h
      · rename_i hbit
        have hbit : leiosSignerBit signers i = false := by simpa using hbit
        refine (ih hcache hle h).cons hadd ?_ ?_ fun hset => ?_
        · rw [hbit]
          rfl
        · rw [hbit]
          rfl
        · rw [hbit] at hset
          cases hset
      · rename_i hbit
        have hbit : leiosSignerBit signers i := by simpa using hbit
        split at h
        · cases h
        · rename_i key hkey
          obtain ⟨hcheck, hcache'⟩ := verifiedPossessionKey_spec hcache key dst
          cases hverified : verifiedPossessionKey curve cache key dst with
          | mk result cache' =>
            rw [hverified] at h hcheck hcache'
            cases result with
            | error error =>
              cases error with
              | decode | proof => cases h
            | ok pub =>
              dsimp only at h
              split at h
              · cases h
              · rename_i hsigner
                -- The seat's stake is below the total, so the guard does not wrap either.
                have hseat : seat.stake ≤ total := by
                  rw [UInt64.le_iff_toNat_le] at hstake ⊢
                  rw [UInt64.toNat_sub_of_le _ _ hloop] at hstake
                  omega
                have hsigner : loop.signerStake ≤ total - seat.stake := UInt64.not_lt.mp hsigner
                obtain ⟨hsigners, -⟩ := toNat_add_of_guard hseat hsigner
                rw [UInt64.add_comm, Nat.add_comm] at hsigners
                refine (ih hcache' hle h).cons hadd ?_ ?_ fun _ => ⟨key, pub, hkey, hcheck.symm⟩
                · rw [hbit]
                  exact hsigners
                · rw [hbit]
                  rfl

variable {signers' signature signers : List UInt8}

/-- The verdict of the loop depends neither on the cache nor on bits beyond the seats. -/
theorem seatLoop_congr {seats : List CommitteeMember} {i : ℕ} (hcache : KeyCache.Sound cache)
    (hcache' : KeyCache.Sound cache')
    (hbits : ∀ j < seats.length, leiosSignerBit signers (i + j) = leiosSignerBit signers' (i + j)) :
    (seatLoop curve signers total dst seats i loop cache).1 =
      (seatLoop curve signers' total dst seats i loop cache').1 := by
  induction seats generalizing i loop cache cache' with
  | nil => rfl
  | cons seat rest ih =>
    have hrest : ∀ j < rest.length,
        leiosSignerBit signers (i + 1 + j) = leiosSignerBit signers' (i + 1 + j) := by
      intro j hj
      rw [add_one_add]
      exact hbits (j + 1) (Nat.succ_lt_succ hj)
    have hbit : leiosSignerBit signers i = leiosSignerBit signers' i := hbits 0 (Nat.succ_pos _)
    unfold seatLoop
    rw [hbit]
    split
    · rfl
    · split
      · exact ih hcache hcache' hrest
      · cases seat.key with
        | none => rfl
        | some key =>
          obtain ⟨hcheck, hnext⟩ := verifiedPossessionKey_spec hcache key dst
          obtain ⟨hcheck', hnext'⟩ := verifiedPossessionKey_spec hcache' key dst
          rw [← hcheck'] at hcheck
          dsimp only
          cases hverified : verifiedPossessionKey curve cache key dst with
          | mk result next =>
            cases hverified' : verifiedPossessionKey curve cache' key dst with
            | mk result' next' =>
              rw [hverified] at hcheck hnext
              rw [hverified'] at hcheck hnext'
              rw [show result = result' from hcheck]
              cases result' with
              | error error =>
                cases error with
                | decode | proof => rfl
              | ok pub =>
                dsimp only
                split
                · rfl
                · exact ih hnext hnext' hrest

/-! ## Accepted certificates -/

/-- What the checks of an accepted certificate have established. -/
structure Accepted (curve : Curve) (dst : String) (signers : List UInt8) (threshold : ℚ)
    (context : CertificateContext) : Prop where
  nonempty : (selected signers context.committee.length).Nonempty
  verified : ∀ i ∈ selected signers context.committee.length, ∃ seat,
    context.committee[i]? = some seat ∧ VerifiedSeat curve dst seat
  quorum : threshold * context.totalActiveStake.toNat ≤
    ((∑ i ∈ selected signers context.committee.length, stakeAt context.committee i : ℕ) : ℚ)
  committee_le : ∑ i ∈ range context.committee.length, stakeAt context.committee i ≤
    context.totalActiveStake.toNat
  total_pos : 0 < context.totalActiveStake.toNat

variable {threshold : ℚ}

theorem quorum_of_products {stake total : ℕ}
    (h : ¬ (stake : ℤ) * threshold.den < total * threshold.num) : threshold * total ≤ stake := by
  have hden : (0 : ℚ) < threshold.den := by exact_mod_cast threshold.den_pos
  have hproducts : (total : ℚ) * threshold.num ≤ stake * threshold.den := by
    exact_mod_cast not_lt.mp h
  have hnum : threshold * threshold.den = threshold.num := Rat.mul_den_eq_num threshold
  have hscaled : threshold * total * threshold.den ≤ stake * threshold.den := by
    calc threshold * total * threshold.den = total * (threshold * threshold.den) := by ring
      _ = total * threshold.num := by rw [hnum]
      _ ≤ stake * threshold.den := hproducts
  exact le_of_mul_le_mul_right hscaled hden

variable {context : CertificateContext}

theorem accepted_of_seatsRead (htotal : context.totalActiveStake ≠ 0)
    (hread : SeatsRead curve signers context.totalActiveStake dst context.committee 0 {} loop)
    (hquorum : checkQuorum curve signature threshold context loop = .ok ()) :
    Accepted curve dst signers threshold context := by
  obtain ⟨hcommittee, hle, hsigner, hcount, hverified⟩ := hread
  simp only [UInt64.toNat_zero, Nat.zero_add] at hcommittee hsigner hcount hverified
  unfold checkQuorum at hquorum
  rw [guard_eq_ok, guard_eq_ok] at hquorum
  obtain ⟨hpos, hproducts, -⟩ := hquorum
  refine ⟨?_, fun i hi => ?_, ?_, ?_, ?_⟩
  · -- Some seat was counted.
    rw [hcount] at hpos
    obtain ⟨i, hi, hne⟩ := Finset.exists_ne_zero_of_sum_ne_zero hpos
    refine ⟨i, mem_filter.mpr ⟨hi, ?_⟩⟩
    by_contra hunset
    exact hne (if_neg hunset)
  · obtain ⟨hi, hbit⟩ := mem_filter.mp hi
    have hseat := List.getElem?_eq_getElem (mem_range.mp hi)
    exact ⟨_, hseat, hverified i _ hseat hbit⟩
  · unfold selected
    rw [Finset.sum_filter, ← hsigner]
    exact quorum_of_products hproducts
  · rw [← hcommittee]
    exact UInt64.le_iff_toNat_le.mp hle
  · apply Nat.pos_of_ne_zero
    intro hzero
    exact htotal (UInt64.toNat_inj.mp hzero)

theorem accepted_of_verify {committeeSize : UInt16} {domain : UInt8} (hcache : KeyCache.Sound cache)
    (h : (verifyDijkstraCertificateForDomain curve cache signers signature committeeSize
      (some threshold) context domain).1 = .ok ()) :
    context.committee.length = committeeSize.toNat ∧
      ∃ dst, proofDomainDST domain = .ok dst ∧ Accepted curve dst signers threshold context := by
  unfold verifyDijkstraCertificateForDomain at h
  split at h
  · cases h
  · rename_i dst hdst
    split at h
    · cases h
    · rename_i hsize
      split at h
      · cases h
      · rename_i htotal
        dsimp only at h
        split at h
        · cases h
        · split at h
          · cases h
          · refine ⟨not_not.mp hsize, dst, hdst, ?_⟩
            split at h
            · cases h
            · rename_i loop next hloop
              have hread : SeatsRead curve signers context.totalActiveStake dst context.committee 0
                  {} loop :=
                seatsRead_of_seatLoop hcache (UInt64.le_iff_toNat_le.mpr (Nat.zero_le _))
                  (by rw [hloop])
              exact accepted_of_seatsRead htotal hread h

section

variable (h : Accepted curve dst signers threshold context)
  (h' : Accepted curve dst' signers' threshold context)
include h h'

theorem Accepted.inter_stake :
    (2 * threshold - 1) * context.totalActiveStake.toNat ≤
      ((∑ i ∈ selected signers context.committee.length ∩
        selected signers' context.committee.length, stakeAt context.committee i : ℕ) : ℚ) := by
  have hle := WeightedQuorum.weight_add_le (stakeAt context.committee)
    (filter_subset (fun i => leiosSignerBit signers i = true) (range context.committee.length))
    (filter_subset (fun i => leiosSignerBit signers' i = true) (range context.committee.length))
  have hle := hle.trans (Nat.add_le_add_right h.committee_le _)
  have hcast : ((∑ i ∈ selected signers context.committee.length, stakeAt context.committee i : ℕ) :
        ℚ) + ((∑ i ∈ selected signers' context.committee.length, stakeAt context.committee i : ℕ) :
        ℚ) ≤ context.totalActiveStake.toNat +
      ((∑ i ∈ selected signers context.committee.length ∩
        selected signers' context.committee.length, stakeAt context.committee i : ℕ) : ℚ) := by
    exact_mod_cast hle
  have hquorum := h.quorum
  have hquorum' := h'.quorum
  linarith

theorem Accepted.exists_common (hthreshold : 1 / 2 < threshold) :
    ∃ i seat, i ∈ selected signers context.committee.length ∩
        selected signers' context.committee.length ∧
      context.committee[i]? = some seat ∧ VerifiedSeat curve dst seat ∧
      VerifiedSeat curve dst' seat := by
  have htotal : (0 : ℚ) < context.totalActiveStake.toNat := by exact_mod_cast h.total_pos
  have hstake := h.inter_stake h'
  have hpos : (0 : ℚ) < (2 * threshold - 1) * context.totalActiveStake.toNat :=
    mul_pos (by linarith) htotal
  have hne : ∑ i ∈ selected signers context.committee.length ∩
      selected signers' context.committee.length, stakeAt context.committee i ≠ 0 := by
    intro hzero
    rw [hzero] at hstake
    have hcast : ((0 : ℕ) : ℚ) = 0 := Nat.cast_zero
    linarith
  obtain ⟨i, hi, -⟩ := Finset.exists_ne_zero_of_sum_ne_zero hne
  obtain ⟨hleft, hright⟩ := mem_inter.mp hi
  obtain ⟨seat, hseat, hverified⟩ := h.verified i hleft
  obtain ⟨seat', hseat', hverified'⟩ := h'.verified i hright
  rw [hseat] at hseat'
  injection hseat' with hsame
  rw [← hsame] at hverified'
  exact ⟨i, seat, hi, hseat, hverified, hverified'⟩

end

theorem verify_congr (hcache : KeyCache.Sound cache) (hcache' : KeyCache.Sound cache')
    {committeeSize : UInt16} {threshold : Option ℚ} {domain : UInt8}
    (hlength : signers.length = signers'.length)
    (hbits : ∀ i < committeeSize.toNat, leiosSignerBit signers i = leiosSignerBit signers' i) :
    (verifyDijkstraCertificateForDomain curve cache signers signature committeeSize threshold
        context domain).1 =
      (verifyDijkstraCertificateForDomain curve cache' signers' signature committeeSize threshold
        context domain).1 := by
  unfold verifyDijkstraCertificateForDomain
  cases proofDomainDST domain with
  | error error => rfl
  | ok dst =>
    dsimp only
    split
    · rfl
    · rename_i hsize
      have hloop : (seatLoop curve signers context.totalActiveStake dst context.committee 0 {}
          cache).1 = (seatLoop curve signers' context.totalActiveStake dst context.committee 0 {}
          cache').1 := by
        refine seatLoop_congr hcache hcache' fun j hj => ?_
        rw [Nat.zero_add]
        rw [not_not.mp hsize] at hj
        exact hbits j hj
      split
      · rfl
      · cases threshold with
        | none => rfl
        | some threshold =>
          dsimp only
          split
          · rfl
          · rw [hlength]
            split
            · rfl
            · generalize seatLoop curve signers _ _ _ _ _ _ = result at hloop ⊢
              generalize seatLoop curve signers' _ _ _ _ _ _ = result' at hloop ⊢
              obtain ⟨verdict, next⟩ := result
              obtain ⟨verdict', next'⟩ := result'
              rw [show verdict = verdict' from hloop]
              cases verdict' with
              | error | ok => rfl

/-- Accepted certificates select a quorum of verified seats, two of them meet in one when
the threshold is above a half, and padding bits do not count. -/
theorem certificates_intersect (curve : Curve) (context : CertificateContext)
    (committeeSize : UInt16) (threshold : ℚ) :
    (∀ cache signers signature domain, KeyCache.Reached cache →
      (verifyDijkstraCertificateForDomain curve cache signers signature committeeSize
        (some threshold) context domain).1 = .ok () →
      (selected signers committeeSize.toNat).Nonempty ∧
      (∃ dst, proofDomainDST domain = .ok dst ∧
        ∀ i ∈ selected signers committeeSize.toNat, ∃ seat,
          context.committee[i]? = some seat ∧ VerifiedSeat curve dst seat) ∧
      threshold * context.totalActiveStake.toNat ≤
        ((∑ i ∈ selected signers committeeSize.toNat, stakeAt context.committee i : ℕ) : ℚ)) ∧
    (∀ cache signers signature domain cache' signers' signature' domain',
      KeyCache.Reached cache → KeyCache.Reached cache' →
      (verifyDijkstraCertificateForDomain curve cache signers signature committeeSize
        (some threshold) context domain).1 = .ok () →
      (verifyDijkstraCertificateForDomain curve cache' signers' signature' committeeSize
        (some threshold) context domain').1 = .ok () →
      (2 * threshold - 1) * context.totalActiveStake.toNat ≤
        ((∑ i ∈ selected signers committeeSize.toNat ∩ selected signers' committeeSize.toNat,
          stakeAt context.committee i : ℕ) : ℚ) ∧
      (1 / 2 < threshold → ∃ dst dst' i seat, proofDomainDST domain = .ok dst ∧
        proofDomainDST domain' = .ok dst' ∧
        i ∈ selected signers committeeSize.toNat ∩ selected signers' committeeSize.toNat ∧
        context.committee[i]? = some seat ∧ VerifiedSeat curve dst seat ∧
        VerifiedSeat curve dst' seat)) ∧
    (∀ cache cache' signers signers' signature threshold domain,
      KeyCache.Reached cache → KeyCache.Reached cache' → signers.length = signers'.length →
      (∀ i < committeeSize.toNat, leiosSignerBit signers i = leiosSignerBit signers' i) →
      (verifyDijkstraCertificateForDomain curve cache signers signature committeeSize threshold
          context domain).1 =
        (verifyDijkstraCertificateForDomain curve cache' signers' signature committeeSize threshold
          context domain).1) := by
  refine ⟨?_, ?_, ?_⟩
  · intro cache signers signature domain hcache hverify
    obtain ⟨hsize, dst, hdst, haccepted⟩ := accepted_of_verify hcache.sound hverify
    rw [← hsize]
    exact ⟨haccepted.nonempty, ⟨dst, hdst, haccepted.verified⟩, haccepted.quorum⟩
  · intro cache signers signature domain cache' signers' signature' domain' hcache hcache'
      hverify hverify'
    obtain ⟨hsize, dst, hdst, haccepted⟩ := accepted_of_verify hcache.sound hverify
    obtain ⟨-, dst', hdst', haccepted'⟩ := accepted_of_verify hcache'.sound hverify'
    rw [← hsize]
    refine ⟨haccepted.inter_stake haccepted', fun hthreshold => ?_⟩
    obtain ⟨i, seat, hi, hseat, hverified, hverified'⟩ :=
      haccepted.exists_common haccepted' hthreshold
    exact ⟨dst, dst', i, seat, hdst, hdst', hi, hseat, hverified, hverified'⟩
  · intro cache cache' signers signers' signature threshold domain hcache hcache' hlength hbits
    exact verify_congr hcache.sound hcache'.sound hlength hbits

/-- A curve with one point, whose pairings all agree. -/
def onePoint : Curve where
  G1 := Unit
  G2 := Unit
  G2Jac := Unit
  g1SetBytes := fun _ => some ()
  g1IsInfinity := fun _ => false
  g1IsInSubGroup := fun _ => true
  g2SetBytes := fun _ => some ()
  g2IsInfinity := fun _ => false
  g2IsInSubGroup := fun _ => true
  negG2Generator := ()
  hashToG1 := fun _ _ => some ()
  pairingCheck := fun _ _ => some true
  g2JacZero := ()
  fromAffine := id
  addMixed := fun _ _ => ()
  fromJacobian := id

def threeSeats : CertificateContext where
  announcingBlockHash := Vector.replicate 32 0
  totalActiveStake := 3
  committee := List.replicate 3 ⟨1, some ⟨List.replicate 96 0, List.replicate 48 0⟩⟩

/-- Seats 0 and 1 sign one certificate and seats 1 and 2 another. -/
theorem certificates_intersect_threeSeats :
    ∃ i seat, i ∈ selected [0xc0] 3 ∩ selected [0x60] 3 ∧
      threeSeats.committee[i]? = some seat ∧ VerifiedSeat onePoint leiosProofDST seat := by
  have hverify : (verifyDijkstraCertificateForDomain onePoint ∅ [0xc0] (List.replicate 48 0) 3
      (some (2 / 3)) threeSeats 0).1 = .ok () := by decide +kernel
  have hverify' : (verifyDijkstraCertificateForDomain onePoint ∅ [0x60] (List.replicate 48 0) 3
      (some (2 / 3)) threeSeats 0).1 = .ok () := by decide +kernel
  obtain ⟨dst, dst', i, seat, hdst, -, hi, hseat, hverified, -⟩ :=
    ((certificates_intersect onePoint threeSeats 3 (2 / 3)).2.1 ∅ _ _ 0 ∅ _ _ 0 .empty .empty
      hverify hverify').2 (by norm_num)
  injection hdst with hdst
  exact ⟨i, seat, hi, hseat, hverified⟩

end Gouroboros.Ledger.Leios

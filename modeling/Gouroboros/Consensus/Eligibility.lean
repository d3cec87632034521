import Gouroboros.Lib.GoMap
import Gouroboros.Consensus.E34Compare

/-!
# Leader eligibility

The leader check prepared from a stake and the active slot coefficient, and its decision on a
certified natural (`consensus/eligibility.go`, `consensus/eligibility_cache.go`). Prepared states
are kept in a bounded cache, a map to the elements of a list with the least recently used last; a
lock makes each of its operations one step. `fuel` is for the loops of the logarithm.
-/

namespace Gouroboros.Consensus

open ExceptFold

/-- `ConsensusMode`, an `int` of the source. -/
inductive ConsensusMode where
  | cPraos
  | tPraos
  | unknown (mode : Int)
deriving DecidableEq, Inhabited

def twoTo256 : Int := 2 ^ 256

def twoTo512 : Int := 2 ^ 512

structure LeaderEligibilityState where
  mode : ConsensusMode
  maximum : Int
  sigma : Int
  c : Int
  x : Int
  unconditional : Bool
deriving DecidableEq, Inhabited

structure LeaderEligibilityCacheKey where
  poolStake : UInt64
  totalStake : UInt64
  numerator : UInt64
  denominator : UInt64
  mode : ConsensusMode
deriving DecidableEq, Inhabited

inductive EligibilityError where
  | unknownMode (mode : Int)
  | coefficientNil
  | coefficientOutside
  | totalStakeZero
  | arithmetic (e : E34Error)
  | uninitialized
  | naturalNil
  | naturalOutside
deriving DecidableEq

/-! ## The cache -/

structure LeaderEligibilityCacheEntry where
  key : LeaderEligibilityCacheKey
  state : LeaderEligibilityState
deriving Inhabited

/-- A map from the keys to the elements of a list, the most recently used first. An element is a
pointer, here a number: `value` is what it points to, and `nextElement` the next to be allocated. -/
structure LeaderEligibilityCache where
  entries : GoMap LeaderEligibilityCacheKey Nat
  order : List Nat
  value : Nat → LeaderEligibilityCacheEntry
  nextElement : Nat
  maxSize : Int

def newLeaderEligibilityCache (maxSize : Int) : LeaderEligibilityCache where
  entries := ∅
  order := []
  value := default
  nextElement := 0
  maxSize := maxSize

namespace LeaderEligibilityCache

def moveToFront (cache : LeaderEligibilityCache) (elem : Nat) : LeaderEligibilityCache :=
  { cache with order := elem :: cache.order.erase elem }

def pushFront (cache : LeaderEligibilityCache) (entry : LeaderEligibilityCacheEntry) :
    LeaderEligibilityCache :=
  { cache with
    entries := cache.entries.insert entry.key cache.nextElement
    order := cache.nextElement :: cache.order
    value := Function.update cache.value cache.nextElement entry
    nextElement := cache.nextElement + 1 }

def evict (cache : LeaderEligibilityCache) : LeaderEligibilityCache :=
  match cache.order.getLast? with
  | none => cache
  | some oldest =>
    { cache with
      entries := cache.entries.erase (cache.value oldest).key
      order := cache.order.dropLast }

def get (cache : LeaderEligibilityCache) (key : LeaderEligibilityCacheKey) :
    Option LeaderEligibilityState × LeaderEligibilityCache :=
  match cache.entries.lookup key with
  | none => (none, cache)
  | some elem => (some (cache.value elem).state, cache.moveToFront elem)

def put (cache : LeaderEligibilityCache) (key : LeaderEligibilityCacheKey)
    (state : LeaderEligibilityState) : LeaderEligibilityCache :=
  match cache.entries.lookup key with
  | some elem =>
    let cache := cache.moveToFront elem
    { cache with value := Function.update cache.value elem { cache.value elem with state } }
  | none =>
    let cache := cache.pushFront { key, state }
    if cache.order.length > cache.maxSize then cache.evict else cache

end LeaderEligibilityCache

/-! ## Preparation -/

def validateConsensusMode : ConsensusMode → Except EligibilityError Unit
  | .cPraos => .ok ()
  | .tPraos => .ok ()
  | .unknown mode => .error (.unknownMode mode)

/-- The coefficient is in (0, 1], a fraction of 64-bit numbers, and at least `10^-19`; the product
is compared in two words. -/
def validateActiveSlotCoefficient : Option Rat → Except EligibilityError Unit
  | none => .error .coefficientNil
  | some f =>
    if 0 < f.num ∧ f.num ≤ f.den ∧ f.num < 2 ^ 64 ∧ f.den < 2 ^ 64 then
      let product := f.num.toNat * 10000000000000000000
      let hi := product / 2 ^ 64
      let lo := product % 2 ^ 64
      if hi ≠ 0 ∨ lo ≥ f.den then .ok () else .error .coefficientOutside
    else .error .coefficientOutside

def prepareLeaderEligibility (fuel : Nat) (key : LeaderEligibilityCacheKey) :
    Except E34Error LeaderEligibilityState := do
  let maximum := if key.mode = .cPraos then twoTo256 else twoTo512
  let sigma ← e34FromRatio key.poolStake.toNat key.totalStake.toNat
  if key.numerator = key.denominator then
    .ok { mode := key.mode, maximum, sigma, c := 0, x := 0, unconditional := true }
  else do
    let f ← e34FromRatio key.numerator.toNat key.denominator.toNat
    let c ← e34Ln fuel (e34Scale - f)
    -- negating before the multiplication would round the other way
    .ok { mode := key.mode, maximum, sigma, c, x := -e34Mul sigma c, unconditional := false }

def eligibilityKey (poolStake totalStake : UInt64) (f : Rat) (mode : ConsensusMode) :
    LeaderEligibilityCacheKey where
  poolStake := if poolStake > totalStake then totalStake else poolStake
  totalStake := totalStake
  numerator := UInt64.ofNat f.num.toNat
  denominator := UInt64.ofNat f.den
  mode := mode

/-- The checks of `newLeaderEligibility`, up to its key. -/
def checkedKey (poolStake totalStake : UInt64) (activeSlotCoeff : Option Rat) (mode : ConsensusMode) :
    Except EligibilityError LeaderEligibilityCacheKey := do
  validateConsensusMode mode
  validateActiveSlotCoefficient activeSlotCoeff
  if totalStake = 0 then .error .totalStakeZero
  else
    match activeSlotCoeff with
    -- refused above
    | none => .error .coefficientNil
    | some f => .ok (eligibilityKey poolStake totalStake f mode)

def newLeaderEligibility (fuel : Nat) (cache : LeaderEligibilityCache)
    (poolStake totalStake : UInt64) (activeSlotCoeff : Option Rat) (mode : ConsensusMode) :
    Except EligibilityError LeaderEligibilityState × LeaderEligibilityCache :=
  match checkedKey poolStake totalStake activeSlotCoeff mode with
  | .error e => (.error e, cache)
  | .ok key =>
    match cache.get key with
    | (some state, cache) => (.ok state, cache)
    | (none, cache) =>
      match prepareLeaderEligibility fuel key with
      | .error e => (.error (.arithmetic e), cache)
      | .ok state => (.ok state, cache.put key state)

/-! ## Decisions -/

/-- The quotient that is compared; at the endpoint it is not divided. -/
def certifiedQuotient (maximum v : Int) : Int :=
  if maximum - v ≠ 0 then (maximum * e34Scale).tdiv (maximum - v) else maximum * e34Scale

/-- Only BELOW elects. -/
def checkCertifiedNatural (e : Option LeaderEligibilityState) (v : Option Int) :
    Except EligibilityError Bool :=
  match e, v with
  | none, _ => .error .uninitialized
  | some _, none => .error .naturalNil
  | some state, some v =>
    if v < 0 ∨ v > state.maximum then .error .naturalOutside
    else if state.unconditional then .ok true
    else
      match e34Compare (certifiedQuotient state.maximum v) state.x with
      | .error err => .error (.arithmetic err)
      | .ok (classification, _, _) => .ok (decide (classification = .below))

/-! ## Sound caches -/

/-- A key is on an element of its own, which holds the prepared state of the key. -/
def LeaderEligibilityCache.Sound (fuel : Nat) (cache : LeaderEligibilityCache) : Prop :=
  ∀ key elem, cache.entries.lookup key = some elem → elem < cache.nextElement ∧
    (cache.value elem).key = key ∧ prepareLeaderEligibility fuel key = .ok (cache.value elem).state

namespace LeaderEligibilityCache

variable {fuel : Nat} {cache : LeaderEligibilityCache} {key : LeaderEligibilityCacheKey}
  {state : LeaderEligibilityState}

section

variable (h : cache.Sound fuel)
include h

theorem Sound.get (key : LeaderEligibilityCacheKey) : (cache.get key).2.Sound fuel := by
  unfold LeaderEligibilityCache.get
  cases cache.entries.lookup key with
  | none => exact h
  | some elem => exact h

theorem Sound.evict : cache.evict.Sound fuel := by
  unfold LeaderEligibilityCache.evict
  cases cache.order.getLast? with
  | none => exact h
  | some oldest =>
    intro key elem helem
    rw [GoMap.lookup_erase_ite] at helem
    split at helem
    · cases helem
    · exact h key elem helem

theorem Sound.pushFront (hstate : prepareLeaderEligibility fuel key = .ok state) :
    (cache.pushFront { key, state }).Sound fuel := by
  intro key' elem helem
  simp only [LeaderEligibilityCache.pushFront, GoMap.lookup_insert_ite] at helem ⊢
  split at helem
  next hsame =>
    injection helem with helem
    rw [← helem, Function.update_self, hsame]
    exact ⟨Nat.lt_succ_self _, rfl, hstate⟩
  next =>
    rcases h key' elem helem with ⟨hlt, hkey, hprepared⟩
    rw [Function.update_of_ne hlt.ne]
    exact ⟨Nat.lt_succ_of_lt hlt, hkey, hprepared⟩

theorem Sound.put (hstate : prepareLeaderEligibility fuel key = .ok state) :
    (cache.put key state).Sound fuel := by
  unfold LeaderEligibilityCache.put
  cases hlookup : cache.entries.lookup key with
  | none =>
    dsimp only
    split
    · exact (h.pushFront hstate).evict
    · exact h.pushFront hstate
  | some elem =>
    intro key' elem' helem
    rcases h key' elem' helem with ⟨hlt, hkey, hprepared⟩
    refine ⟨hlt, ?_⟩
    dsimp only [moveToFront]
    by_cases hsame : elem' = elem
    · -- two keys on one element are both the key that it holds
      have hown : (cache.value elem).key = key := (h key elem hlookup).2.1
      rw [hsame] at hkey ⊢
      rw [Function.update_self, ← hkey, hown]
      exact ⟨rfl, hstate⟩
    · rw [Function.update_of_ne hsame]
      exact ⟨hkey, hprepared⟩

end

end LeaderEligibilityCache

section
variable {fuel : Nat} {cache : LeaderEligibilityCache} {poolStake totalStake : UInt64}
  {activeSlotCoeff : Option Rat} {mode : ConsensusMode} {state : LeaderEligibilityState}

theorem newLeaderEligibility_eq (hcache : cache.Sound fuel) :
    (newLeaderEligibility fuel cache poolStake totalStake activeSlotCoeff mode).1 =
      checkedKey poolStake totalStake activeSlotCoeff mode >>= fun key =>
        (prepareLeaderEligibility fuel key).mapError .arithmetic := by
  unfold newLeaderEligibility
  cases checkedKey poolStake totalStake activeSlotCoeff mode with
  | error e => rfl
  | ok key =>
    dsimp only [bind, Except.bind]
    unfold LeaderEligibilityCache.get
    cases hlookup : cache.entries.lookup key with
    | some elem =>
      rw [(hcache key elem hlookup).2.2]
      rfl
    | none =>
      cases prepareLeaderEligibility fuel key with
      | error e => rfl
      | ok state => rfl

theorem LeaderEligibilityCache.Sound.newLeaderEligibility (hcache : cache.Sound fuel)
    (poolStake totalStake : UInt64) (activeSlotCoeff : Option Rat) (mode : ConsensusMode) :
    (newLeaderEligibility fuel cache poolStake totalStake activeSlotCoeff mode).2.Sound fuel := by
  unfold Consensus.newLeaderEligibility
  split
  next => exact hcache
  next key _ =>
    have hget := hcache.get key
    split
    next heq =>
      rw [heq] at hget
      exact hget
    next heq =>
      rw [heq] at hget
      split
      next => exact hget
      next state hstate => exact hget.put hstate

/-- Whatever calls came before, on a cache of any size, the result is the preparation's. -/
theorem eligibility_cache_transparent (fuel : Nat) (maxSize : Int)
    (calls : List (UInt64 × UInt64 × Option Rat × ConsensusMode)) (poolStake totalStake : UInt64)
    (activeSlotCoeff : Option Rat) (mode : ConsensusMode) :
    (newLeaderEligibility fuel (calls.foldl (fun cache (pool, total, coeff, mode) =>
        (newLeaderEligibility fuel cache pool total coeff mode).2) (newLeaderEligibilityCache maxSize))
      poolStake totalStake activeSlotCoeff mode).1 =
      checkedKey poolStake totalStake activeSlotCoeff mode >>= fun key =>
        (prepareLeaderEligibility fuel key).mapError .arithmetic := by
  refine newLeaderEligibility_eq (List.foldlRecOn calls _ ?_ ?_)
  · exact nofun
  · intro cache hcache call _
    exact hcache.newLeaderEligibility _ _ _ _

theorem checkedKey_eq_ok {key : LeaderEligibilityCacheKey}
    (h : checkedKey poolStake totalStake activeSlotCoeff mode = .ok key) :
    ∃ f, activeSlotCoeff = some f ∧ validateConsensusMode mode = .ok () ∧
      validateActiveSlotCoefficient (some f) = .ok () ∧ totalStake ≠ 0 ∧
      key = eligibilityKey poolStake totalStake f mode := by
  unfold checkedKey at h
  rw [seq_eq_ok, seq_eq_ok, guard_eq_ok] at h
  rcases h with ⟨hmode, hcoeff, htotal, hkey⟩
  cases activeSlotCoeff with
  | none => cases hkey
  | some f =>
    injection hkey with hkey
    exact ⟨f, rfl, hmode, hcoeff, htotal, hkey.symm⟩

end

/-! ## Monotonicity -/

theorem e34FromRatio_of_pos {numerator denominator : Int} (h : 0 < denominator) :
    e34FromRatio numerator denominator = .ok (numerator * e34Scale / denominator) :=
  e34FloorQuotient_of_pos h

section

variable {fuel : Nat} {key : LeaderEligibilityCacheKey} (htotal : 0 < key.totalStake.toNat)
include htotal

theorem prepareLeaderEligibility_eq_ok {state : LeaderEligibilityState}
    (h : prepareLeaderEligibility fuel key = .ok state) :
    state.maximum = (if key.mode = .cPraos then twoTo256 else twoTo512) ∧
      state.sigma = key.poolStake.toNat * e34Scale / key.totalStake.toNat ∧
      state.unconditional = decide (key.numerator = key.denominator) ∧
      (key.numerator ≠ key.denominator → state.x = -e34Mul state.sigma state.c ∧
        ∃ f, e34FromRatio key.numerator.toNat key.denominator.toNat = .ok f ∧
          e34Ln fuel (e34Scale - f) = .ok state.c) := by
  rw [prepareLeaderEligibility, e34FromRatio_of_pos (Int.natCast_pos.mpr htotal)] at h
  dsimp only [bind, Except.bind] at h
  split at h
  next hone =>
    cases h
    exact ⟨rfl, rfl, (decide_eq_true hone).symm, fun hne => absurd hone hne⟩
  next hne =>
    cases hf : e34FromRatio key.numerator.toNat key.denominator.toNat with
    | error e =>
      rw [hf] at h
      cases h
    | ok f =>
      rw [hf] at h
      dsimp only at h
      cases hc : e34Ln fuel (e34Scale - f) with
      | error e =>
        rw [hc] at h
        cases h
      | ok c =>
        rw [hc] at h
        cases h
        exact ⟨rfl, rfl, (decide_eq_false hne).symm, fun _ => ⟨rfl, f, rfl, hc⟩⟩

theorem prepareLeaderEligibility_of_ne (hdenominator : 0 < key.denominator.toNat)
    (hne : key.numerator ≠ key.denominator) :
    prepareLeaderEligibility fuel key =
      (e34Ln fuel (e34Scale - key.numerator.toNat * e34Scale / key.denominator.toNat)).map fun c =>
        { mode := key.mode
          maximum := if key.mode = .cPraos then twoTo256 else twoTo512
          sigma := key.poolStake.toNat * e34Scale / key.totalStake.toNat
          c
          x := -e34Mul (key.poolStake.toNat * e34Scale / key.totalStake.toNat) c
          unconditional := false } := by
  rw [prepareLeaderEligibility, e34FromRatio_of_pos (Int.natCast_pos.mpr htotal),
    e34FromRatio_of_pos (Int.natCast_pos.mpr hdenominator)]
  rw [ok_bind, if_neg hne, ok_bind]
  cases e34Ln fuel (e34Scale - key.numerator.toNat * e34Scale / key.denominator.toNat) with
  | error e => rfl
  | ok c => rfl

end

theorem certifiedQuotient_mono {maximum v₁ v₂ : Int} (hmax : 0 < maximum) (hv : v₂ ≤ v₁)
    (hv₁ : v₁ ≤ maximum) : certifiedQuotient maximum v₂ ≤ certifiedQuotient maximum v₁ := by
  have hnum : 0 ≤ maximum * e34Scale := (mul_pos hmax e34Scale_pos).le
  unfold certifiedQuotient
  rw [Int.tdiv_eq_ediv_of_nonneg hnum, Int.tdiv_eq_ediv_of_nonneg hnum]
  by_cases hend₁ : maximum - v₁ = 0
  · rw [if_neg (not_not_intro hend₁)]
    split
    · exact Int.ediv_le_self _ hnum
    · exact le_refl _
  · have hend₂ : maximum - v₂ ≠ 0 := by omega
    rw [if_pos hend₁, if_pos hend₂]
    apply Int.le_ediv_of_mul_le (by omega)
    calc maximum * e34Scale / (maximum - v₂) * (maximum - v₁)
        ≤ maximum * e34Scale / (maximum - v₂) * (maximum - v₂) :=
          mul_le_mul_of_nonneg_left (by omega) (Int.ediv_nonneg hnum (by omega))
      _ ≤ maximum * e34Scale := Int.ediv_mul_le _ hend₂

theorem checkCertifiedNatural_eq_true {state : LeaderEligibilityState} {v : Int} :
    checkCertifiedNatural (some state) (some v) = .ok true ↔
      0 ≤ v ∧ v ≤ state.maximum ∧ (state.unconditional ∨
        ∃ acc i, e34Compare (certifiedQuotient state.maximum v) state.x =
          .ok (.below, acc, i)) := by
  unfold checkCertifiedNatural
  dsimp only
  by_cases hrange : v < 0 ∨ v > state.maximum
  · rw [if_pos hrange]
    constructor
    · intro h
      cases h
    · rintro ⟨hlow, hhigh, -⟩
      omega
  · rw [if_neg hrange]
    have hlow : 0 ≤ v := by omega
    have hhigh : v ≤ state.maximum := by omega
    cases hunconditional : state.unconditional with
    | true => simp [hlow, hhigh]
    | false =>
      cases hcompare : e34Compare (certifiedQuotient state.maximum v) state.x with
      | error e => simp
      | ok result =>
        rcases result with ⟨classification, acc, i⟩
        simp [hlow, hhigh]

theorem comparedArgument_mono {c sigma₁ sigma₂ : Int} (hc : c ≤ 0) (hsigma₁ : 0 ≤ sigma₁)
    (hle : sigma₁ ≤ sigma₂) (hsigma₂ : sigma₂ ≤ e34Scale) :
    0 ≤ -e34Mul sigma₁ c ∧ -e34Mul sigma₁ c ≤ -e34Mul sigma₂ c ∧ -e34Mul sigma₂ c ≤ -c := by
  rw [e34Mul_eq, e34Mul_eq]
  have hzero : sigma₁ * c / e34Scale ≤ 0 / e34Scale :=
    Int.ediv_le_ediv e34Scale_pos (mul_nonpos_of_nonneg_of_nonpos hsigma₁ hc)
  have hstake : sigma₂ * c / e34Scale ≤ sigma₁ * c / e34Scale :=
    Int.ediv_le_ediv e34Scale_pos (mul_le_mul_of_nonpos_right hle hc)
  have hwhole : e34Scale * c / e34Scale ≤ sigma₂ * c / e34Scale :=
    Int.ediv_le_ediv e34Scale_pos (mul_le_mul_of_nonpos_right hsigma₂ hc)
  rw [Int.zero_ediv] at hzero
  rw [Int.mul_ediv_cancel_left c e34Scale_pos.ne'] at hwhole
  exact ⟨by omega, by omega, by omega⟩

theorem sigma_mono {fuel : Nat} {p₁ p₂ totalStake : UInt64} {f : Rat} {mode : ConsensusMode}
    {s₁ s₂ : LeaderEligibilityState} (htotal : totalStake ≠ 0) (hp : p₁ ≤ p₂)
    (h₁ : prepareLeaderEligibility fuel (eligibilityKey p₁ totalStake f mode) = .ok s₁)
    (h₂ : prepareLeaderEligibility fuel (eligibilityKey p₂ totalStake f mode) = .ok s₂) :
    0 ≤ s₁.sigma ∧ s₁.sigma ≤ s₂.sigma ∧ s₂.sigma ≤ e34Scale := by
  have htotal : 0 < totalStake.toNat := by
    apply Nat.pos_of_ne_zero
    intro hzero
    exact htotal (UInt64.toNat_inj.mp hzero)
  have hclamp : ∀ p : UInt64, ((if p > totalStake then totalStake else p).toNat) =
      min p.toNat totalStake.toNat := by
    intro p
    split
    next hgt =>
      have hgt : totalStake.toNat < p.toNat := UInt64.lt_iff_toNat_lt.mp hgt
      omega
    next hle =>
      have hle : ¬ totalStake.toNat < p.toNat := fun h => hle (UInt64.lt_iff_toNat_lt.mpr h)
      omega
  have hp : p₁.toNat ≤ p₂.toNat := UInt64.le_iff_toNat_le.mp hp
  rw [(prepareLeaderEligibility_eq_ok htotal h₁).2.1, (prepareLeaderEligibility_eq_ok htotal h₂).2.1]
  simp only [eligibilityKey, hclamp]
  have hpos : (0 : Int) < totalStake.toNat := Int.natCast_pos.mpr htotal
  have hscale : 0 ≤ e34Scale := e34Scale_pos.le
  refine ⟨Int.ediv_nonneg (mul_nonneg (Int.natCast_nonneg _) hscale) hpos.le, ?_, ?_⟩
  · exact Int.ediv_le_ediv hpos (mul_le_mul_of_nonneg_right (by omega) hscale)
  · apply Int.ediv_le_of_le_mul hpos
    rw [mul_comm]
    exact mul_le_mul_of_nonneg_left (by omega) hscale

/-- A smaller certified natural or a larger stake never loses leadership. The comparison answers
BELOW for a smaller `q` and a larger `x` where it did before; so does the decision, for states of
one mode, total stake and coefficient. -/
theorem leader_eligibility_monotone :
    (∀ q₁ q₂ x₁ x₂ : Int, q₂ ≤ q₁ → x₁ ≤ x₂ → 0 ≤ x₁ → x₂ ≤ 50 * 10 ^ 34 →
      (∃ acc i, e34Compare q₁ x₁ = .ok (.below, acc, i)) →
        ∃ acc i, e34Compare q₂ x₂ = .ok (.below, acc, i)) ∧
    ∀ (fuel : Nat) (cache₁ cache₂ : LeaderEligibilityCache), cache₁.Sound fuel → cache₂.Sound fuel →
      ∀ (p₁ p₂ totalStake : UInt64) (coeff : Option Rat) (mode : ConsensusMode)
        (s₁ s₂ : LeaderEligibilityState), p₁ ≤ p₂ →
        (newLeaderEligibility fuel cache₁ p₁ totalStake coeff mode).1 = .ok s₁ →
        (newLeaderEligibility fuel cache₂ p₂ totalStake coeff mode).1 = .ok s₂ →
        -50 * 10 ^ 34 ≤ s₁.c → s₁.c ≤ 0 →
        ∀ v₁ v₂ : Int, v₂ ≤ v₁ → 0 ≤ v₂ → v₁ ≤ s₁.maximum →
          checkCertifiedNatural (some s₁) (some v₁) = .ok true →
            checkCertifiedNatural (some s₂) (some v₂) = .ok true := by
  refine ⟨fun q₁ q₂ x₁ x₂ hq hle hx hx₂ h => e34Compare_below_mono hq hx hle hx₂ h, ?_⟩
  intro fuel cache₁ cache₂ hcache₁ hcache₂ p₁ p₂ totalStake coeff mode s₁ s₂ hp hnew₁ hnew₂ hlow hc
    v₁ v₂ hv hv₂ hv₁ helected
  rw [newLeaderEligibility_eq hcache₁, bind_eq_ok] at hnew₁
  rw [newLeaderEligibility_eq hcache₂, bind_eq_ok] at hnew₂
  rcases hnew₁ with ⟨key₁, hkey₁, hprepare₁⟩
  rcases hnew₂ with ⟨key₂, hkey₂, hprepare₂⟩
  rcases checkedKey_eq_ok hkey₁ with ⟨f, rfl, -, -, htotal, rfl⟩
  rcases checkedKey_eq_ok hkey₂ with ⟨f', hf', -, -, -, rfl⟩
  cases hf'
  rw [mapError_eq_ok] at hprepare₁ hprepare₂
  rcases sigma_mono htotal hp hprepare₁ hprepare₂ with ⟨hsigma₁, hsigma, hsigma₂⟩
  have hpos : 0 < totalStake.toNat :=
    Nat.pos_of_ne_zero fun hzero => htotal (UInt64.toNat_inj.mp hzero)
  rcases prepareLeaderEligibility_eq_ok hpos hprepare₁ with ⟨hmax₁, -, hun₁, hln₁⟩
  rcases prepareLeaderEligibility_eq_ok hpos hprepare₂ with ⟨hmax₂, -, hun₂, hln₂⟩
  have hmax : s₂.maximum = s₁.maximum := hmax₂.trans hmax₁.symm
  have hmaxPos : 0 < s₁.maximum := by
    rw [hmax₁]
    split
    · exact pow_pos (by decide) 256
    · exact pow_pos (by decide) 512
  rw [checkCertifiedNatural_eq_true] at helected ⊢
  rcases helected with ⟨-, -, hwin⟩
  rw [hmax]
  refine ⟨hv₂, by omega, ?_⟩
  by_cases hone : (eligibilityKey p₁ totalStake f mode).numerator =
      (eligibilityKey p₁ totalStake f mode).denominator
  · exact .inl (hun₂.trans (decide_eq_true hone))
  · -- the two states have one logarithm, so only the stake moves the argument
    rcases hln₁ hone with ⟨hx₁, g₁, hg₁, hc₁⟩
    rcases hln₂ hone with ⟨hx₂, g₂, hg₂, hc₂⟩
    have hg : g₁ = g₂ := Except.ok.inj (hg₁.symm.trans hg₂)
    subst hg
    have hsame : s₁.c = s₂.c := Except.ok.inj (hc₁.symm.trans hc₂)
    rcases comparedArgument_mono hc hsigma₁ hsigma hsigma₂ with ⟨harg₁, harg, harg₂⟩
    rw [hsame] at harg₁ harg harg₂
    rw [hun₁, decide_eq_false hone] at hwin
    rcases hwin with hfalse | hbelow
    · cases hfalse
    · right
      rw [hx₁, hsame] at hbelow
      rw [hx₂]
      have hbound : -e34Mul s₂.sigma s₂.c ≤ 50 * e34Scale := by
        have hscale : (50 : Int) * 10 ^ 34 = 50 * e34Scale := rfl
        omega
      exact e34Compare_below_mono (certifiedQuotient_mono hmaxPos hv hv₁) harg₁ harg hbound hbelow

def emptyCache : LeaderEligibilityCache := newLeaderEligibilityCache 4096

theorem emptyCache_sound (fuel : Nat) : emptyCache.Sound fuel := nofun

theorem e34Ln_half :
    e34Ln 10 (e34Scale - ((1 : UInt64).toNat : Int) * e34Scale / (2 : UInt64).toNat) =
      .ok (-6931471805599453094172321354910343) := by
  have hexp : e34Exp e34Scale = .ok 27182818284590452353602874043083282 := by decide
  have hpower : e34Power 27182818284590452353602874043083282 (-1) =
      .ok 3678794411714423215955237792349248 := by decide
  have hquotient : e34Div 5000000000000000000000000000000000 3678794411714423215955237792349248 =
      .ok 13591409142295226176801437021541642 := by decide
  have hfraction : e34LnCF (13591409142295226176801437021541642 - e34Scale) 1000 =
      .ok 3068528194400546905827678645089657 := by decide +kernel
  have hbracket : e34Bracket 5000000000000000000000000000000000 10
      3678794411714423215955237792349248 27182818284590452353602874043083282 (-1) 1 =
      .ok (-1, 1) := by decide
  have hbisect : e34Bisect 5000000000000000000000000000000000
      27182818284590452353602874043083282 10 (-1) 1 = .ok (-1) := by decide +kernel
  have hvalue : e34Scale - ((1 : UInt64).toNat : Int) * e34Scale / (2 : UInt64).toNat =
      5000000000000000000000000000000000 := by decide
  have hpositive : (0 : Int) < 5000000000000000000000000000000000 := by decide
  rw [hvalue, e34Ln_of_steps hpositive hexp hpower hbracket hbisect hpower hquotient, hfraction]
  rfl

def evenOddsState (sigma : Int) : LeaderEligibilityState where
  mode := .cPraos
  maximum := twoTo256
  sigma := sigma
  c := -6931471805599453094172321354910343
  x := -e34Mul sigma (-6931471805599453094172321354910343)
  unconditional := false

theorem newLeaderEligibility_evenOdds {poolStake : UInt64} (hpool : ¬ poolStake > 2) :
    (newLeaderEligibility 10 emptyCache poolStake 2 (some (mkRat 1 2)) .cPraos).1 =
      .ok (evenOddsState (poolStake.toNat * e34Scale / 2)) := by
  have hkey : checkedKey poolStake 2 (some (mkRat 1 2)) .cPraos =
      .ok ⟨if poolStake > 2 then 2 else poolStake, 2, 1, 2, .cPraos⟩ := rfl
  rw [if_neg hpool] at hkey
  have htwo : 0 < (2 : UInt64).toNat := by decide
  have hne : (1 : UInt64) ≠ 2 := by decide
  rw [newLeaderEligibility_eq (emptyCache_sound 10), hkey, ok_bind,
    prepareLeaderEligibility_of_ne htwo htwo hne, e34Ln_half]
  rfl

/-- Half of the stake wins with the natural 1, so the whole stake wins with 0. -/
theorem leader_eligibility_monotone_even_odds :
    (∃ acc i, e34Compare 0 (e34Scale / 2) = .ok (.below, acc, i)) ∧
      checkCertifiedNatural (some (evenOddsState e34Scale)) (some 0) = .ok true := by
  have hbelow : e34Compare 1 (e34Scale / 4) =
      .ok (.below, 12500000000000000000000000000000000, 1) := by decide
  have hwon : checkCertifiedNatural (some (evenOddsState (e34Scale / 2))) (some 1) =
      .ok true := by decide
  have hcompare := leader_eligibility_monotone.1
  have hdecision := leader_eligibility_monotone.2
  refine ⟨hcompare 1 0 (e34Scale / 4) (e34Scale / 2) (by decide) (by decide) (by decide)
    (by decide) ⟨_, _, hbelow⟩, ?_⟩
  exact hdecision 10 emptyCache emptyCache (emptyCache_sound 10) (emptyCache_sound 10) 1 2 2
    (some (mkRat 1 2)) .cPraos (evenOddsState (e34Scale / 2)) (evenOddsState e34Scale) (by decide)
    (newLeaderEligibility_evenOdds (by decide)) (newLeaderEligibility_evenOdds (by decide))
    (by decide) (by decide) 1 0 (by decide) (by decide) (by decide) hwon

end Gouroboros.Consensus

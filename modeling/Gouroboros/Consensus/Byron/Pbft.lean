import Gouroboros.Lib.ExceptFold
import Gouroboros.Lib.SlidingWindow
import Gouroboros.Ledger.Common.Types

/-!
# The PBFT signature quota

`PBFTState` keeps the genesis issuers charged in the last `k` signed headers
(`consensus/byron/pbft.go`). A header is accepted when its issuer then has at most
`k * numerator / denominator` signatures in that window. Each step looks at the issuer just
appended only; over a chain that bounds every issuer in every window.

`bits.Mul64` and `bits.Div64` are the 128-bit product and quotient of the Go library.
-/

namespace Gouroboros.Consensus.Byron

open ExceptFold

open Ledger (Blake2b224)

structure PbftState where
  signatureHistory : List Blake2b224
  securityParam : UInt64
  thresholdNumerator : UInt64
  thresholdDenominator : UInt64
deriving DecidableEq

inductive PbftError where
  | zeroSecurityParam
  | invalidThreshold (numerator denominator : UInt64)
  | historyTooLong (length : Nat) (securityParam : UInt64)
  | invalidStateZeroSecurityParam
  | invalidStateHistoryTooLong (length : Nat) (securityParam : UInt64)
  | thresholdExceeded (issuer : Blake2b224) (issuerCount securityParam maxSignatures : UInt64)
deriving DecidableEq

def newPbftStateWithThreshold (signatureHistory : List Blake2b224)
    (securityParam numerator denominator : UInt64) : Except PbftError PbftState :=
  if securityParam = 0 then .error .zeroSecurityParam
  else if denominator = 0 then .error (.invalidThreshold numerator denominator)
  else if securityParam.toNat < signatureHistory.length then
    .error (.historyTooLong signatureHistory.length securityParam)
  else .ok ⟨signatureHistory, securityParam, numerator, denominator⟩

def mul64 (x y : UInt64) : UInt64 × UInt64 :=
  (UInt64.ofNat (x.toNat * y.toNat / 2 ^ 64), UInt64.ofNat (x.toNat * y.toNat % 2 ^ 64))

def div64 (hi lo y : UInt64) : UInt64 × UInt64 :=
  (UInt64.ofNat ((hi.toNat * 2 ^ 64 + lo.toNat) / y.toNat),
    UInt64.ofNat ((hi.toNat * 2 ^ 64 + lo.toNat) % y.toNat))

def pbftMaxSignatures (securityParam numerator denominator : UInt64) : UInt64 :=
  let product := mul64 securityParam numerator
  if denominator ≤ product.1 then UInt64.ofNat (2 ^ 64 - 1)
  else (div64 product.1 product.2 denominator).1

namespace PbftState

/-- The window moves on without the threshold. -/
def observe (s : PbftState) (issuer : Blake2b224) : Except PbftError PbftState :=
  if s.securityParam = 0 then .error .invalidStateZeroSecurityParam
  else if s.securityParam.toNat < s.signatureHistory.length then
    .error (.invalidStateHistoryTooLong s.signatureHistory.length s.securityParam)
  else
    let history :=
      if s.securityParam.toNat ≤ s.signatureHistory.length then s.signatureHistory.drop 1
      else s.signatureHistory
    .ok { s with signatureHistory := history ++ [issuer] }

/-- The issuer's signatures in the new window are within the threshold. -/
def transition (s : PbftState) (issuer : Blake2b224) : Except PbftError PbftState := do
  let next ← s.observe issuer
  let issuerCount : UInt64 := next.signatureHistory.foldl
    (fun count historicalIssuer => if historicalIssuer = issuer then count + 1 else count) 0
  let maxSignatures := pbftMaxSignatures s.securityParam s.thresholdNumerator s.thresholdDenominator
  if maxSignatures < issuerCount then
    .error (.thresholdExceeded issuer issuerCount s.securityParam maxSignatures)
  else .ok next

def run (s : PbftState) (issuers : List Blake2b224) : Except PbftError PbftState :=
  issuers.foldlM transition s

end PbftState

/-! ## The quota -/

def quota (securityParam numerator denominator : UInt64) : Nat :=
  min (securityParam.toNat * numerator.toNat / denominator.toNat) (2 ^ 64 - 1)

/-- The 128-bit computation is the rational floor, saturated. -/
theorem toNat_pbftMaxSignatures (securityParam numerator : UInt64) {denominator : UInt64}
    (h : denominator ≠ 0) :
    (pbftMaxSignatures securityParam numerator denominator).toNat =
      quota securityParam numerator denominator := by
  have hden : 0 < denominator.toNat := by
    rw [Nat.pos_iff_ne_zero]
    exact fun hzero => h (UInt64.toNat_inj.mp hzero)
  have hk := securityParam.toNat_lt
  have hn := numerator.toNat_lt
  unfold pbftMaxSignatures quota mul64 div64
  dsimp only
  generalize hproduct : securityParam.toNat * numerator.toNat = product
  have hhi : product / 2 ^ 64 < 2 ^ 64 := by
    rw [Nat.div_lt_iff_lt_mul (by norm_num), ← hproduct]
    exact Nat.mul_lt_mul'' hk hn
  have hlo : product % 2 ^ 64 < 2 ^ 64 := Nat.mod_lt _ (by norm_num)
  rw [UInt64.toNat_ofNat_of_lt' hhi, UInt64.toNat_ofNat_of_lt' hlo, Nat.div_add_mod']
  split
  · rename_i hlarge
    rw [UInt64.le_iff_toNat_le, UInt64.toNat_ofNat_of_lt' hhi] at hlarge
    -- The quotient has more than 64 bits.
    have hfits : 2 ^ 64 ≤ product / denominator.toNat := by
      rw [Nat.le_div_iff_mul_le hden, Nat.mul_comm]
      exact (Nat.le_div_iff_mul_le (by norm_num)).mp hlarge
    rw [UInt64.toNat_ofNat_of_lt' (by norm_num)]
    omega
  · rename_i hsmall
    rw [UInt64.le_iff_toNat_le, UInt64.toNat_ofNat_of_lt' hhi] at hsmall
    have hfits : product / denominator.toNat < 2 ^ 64 := by
      rw [Nat.div_lt_iff_lt_mul hden, Nat.mul_comm]
      exact (Nat.div_lt_iff_lt_mul (by norm_num)).mp (Nat.lt_of_not_le hsmall)
    rw [UInt64.toNat_ofNat_of_lt' hfits]
    omega

namespace PbftState

variable {s s' : PbftState} {issuer : Blake2b224} {issuers : List Blake2b224}

theorem toNat_count (issuer : Blake2b224) {history : List Blake2b224}
    (hlength : history.length < 2 ^ 64) :
    (history.foldl (fun (count : UInt64) historicalIssuer =>
      if historicalIssuer = issuer then count + 1 else count) 0).toNat = history.count issuer := by
  induction history using List.reverseRecOn with
  | nil => rfl
  | append_singleton history last ih =>
    rw [List.length_append, List.length_singleton] at hlength
    have hcount := List.count_le_length (l := history) (a := issuer)
    rw [List.foldl_append, List.foldl_cons, List.foldl_nil, List.count_append]
    by_cases hlast : last = issuer
    · rw [if_pos hlast, UInt64.toNat_add, ih (by omega), hlast, List.count_singleton_self]
      exact Nat.mod_eq_of_lt (by show _ + 1 < 2 ^ 64; omega)
    · rw [if_neg hlast, ih (by omega), List.count_singleton]
      simp [hlast]

/-- A state whose window holds the last issuers of a chain. -/
structure Holds (s : PbftState) (issuers : List Blake2b224) : Prop where
  securityParam_ne : s.securityParam ≠ 0
  denominator_ne : s.thresholdDenominator ≠ 0
  history : s.signatureHistory = issuers.rtake s.securityParam.toNat

def maxSignatures (s : PbftState) : Nat :=
  quota s.securityParam s.thresholdNumerator s.thresholdDenominator

theorem observe_eq (h : Holds s issuers) (issuer : Blake2b224) :
    s.observe issuer =
      .ok { s with signatureHistory := (issuers ++ [issuer]).rtake s.securityParam.toNat } := by
  have hpos : 0 < s.securityParam.toNat := by
    rw [Nat.pos_iff_ne_zero]
    exact fun hzero => h.securityParam_ne (UInt64.toNat_inj.mp hzero)
  have hlength := SlidingWindow.length_rtake_le s.securityParam.toNat issuers
  unfold observe
  rw [if_neg h.securityParam_ne, h.history, if_neg (Nat.not_lt.mpr hlength),
    ← SlidingWindow.push_rtake hpos]
  rfl

theorem transition_eq (h : Holds s issuers) (issuer : Blake2b224) :
    let window := (issuers ++ [issuer]).rtake s.securityParam.toNat
    (window.count issuer ≤ s.maxSignatures →
      s.transition issuer = .ok { s with signatureHistory := window }) ∧
    (s.maxSignatures < window.count issuer → ∃ issuerCount maxSignatures : UInt64,
      issuerCount.toNat = window.count issuer ∧ maxSignatures.toNat = s.maxSignatures ∧
      s.transition issuer =
        .error (.thresholdExceeded issuer issuerCount s.securityParam maxSignatures)) := by
  intro window
  have hlength : window.length < 2 ^ 64 :=
    Nat.lt_of_le_of_lt (SlidingWindow.length_rtake_le _ _) s.securityParam.toNat_lt
  have hcount := toNat_count issuer hlength
  have hmax := toNat_pbftMaxSignatures s.securityParam s.thresholdNumerator h.denominator_ne
  unfold transition
  rw [observe_eq h]
  dsimp only [bind, Except.bind]
  constructor
  · intro hle
    rw [if_neg]
    rw [UInt64.lt_iff_toNat_lt, hcount, hmax]
    exact Nat.not_lt.mpr hle
  · intro hlt
    refine ⟨_, _, hcount, hmax, if_pos ?_⟩
    rw [UInt64.lt_iff_toNat_lt, hcount, hmax]
    exact hlt

theorem Holds.transition (h : Holds s issuers) (hstep : s.transition issuer = .ok s') :
    Holds s' (issuers ++ [issuer]) ∧ s'.securityParam = s.securityParam ∧
      s'.maxSignatures = s.maxSignatures ∧
      ((issuers ++ [issuer]).rtake s.securityParam.toNat).count issuer ≤ s.maxSignatures := by
  obtain ⟨haccepted, hrefused⟩ := transition_eq h issuer
  rcases Nat.lt_or_ge s.maxSignatures
    (((issuers ++ [issuer]).rtake s.securityParam.toNat).count issuer) with hlt | hle
  · obtain ⟨_, _, -, -, herror⟩ := hrefused hlt
    rw [hstep] at herror
    cases herror
  · rw [hstep] at haccepted
    injection haccepted hle with hs'
    rw [hs']
    exact ⟨⟨h.securityParam_ne, h.denominator_ne, rfl⟩, rfl, rfl, hle⟩

/-- Along a chain the window is the last issuers, and each was within the bound when it
came. -/
theorem Holds.run {start : PbftState} (h : Holds start []) (hrun : start.run issuers = .ok s) :
    Holds s issuers ∧ s.securityParam = start.securityParam ∧
      s.maxSignatures = start.maxSignatures ∧
      ∀ p x, p ++ [x] <+: issuers →
        ((p ++ [x]).rtake start.securityParam.toNat).count x ≤ start.maxSignatures := by
  induction issuers using List.reverseRecOn generalizing s with
  | nil =>
    cases hrun
    refine ⟨h, rfl, rfl, fun p x hp => ?_⟩
    have hlength := hp.length_le
    rw [List.length_append] at hlength
    cases hlength
  | append_singleton issuers issuer ih =>
    unfold PbftState.run at hrun
    rw [List.foldlM_append] at hrun
    obtain ⟨t, hinit, hlast⟩ := bind_eq_ok.mp hrun
    obtain ⟨u, hstep, hnil⟩ := foldlM_cons_eq_ok.mp hlast
    injection hnil with hnil
    rw [hnil] at hstep
    obtain ⟨ht, hparam, hmax, hbound⟩ := ih hinit
    obtain ⟨hs, hparam', hmax', hcount⟩ := ht.transition hstep
    refine ⟨hs, hparam'.trans hparam, hmax'.trans hmax, fun p x hp => ?_⟩
    rcases List.prefix_concat_iff.mp hp with heq | hp
    · obtain ⟨rfl, hx⟩ := List.append_inj' heq rfl
      rw [List.singleton_inj.mp hx, ← hparam, ← hmax]
      exact hcount
    · exact hbound p x hp

end PbftState

/-- The quota over whole chains. From the empty history, the window is the last issuers of the
chain; every issuer has at most the quota in every window of at most `k` consecutive ones; and
the next issuer is refused exactly when it would have more in the new window. -/
theorem signature_quota (securityParam numerator denominator : UInt64) (hk : securityParam ≠ 0)
    (hdenominator : denominator ≠ 0) :
    ∃ start, newPbftStateWithThreshold [] securityParam numerator denominator = .ok start ∧
      ∀ issuers s, start.run issuers = .ok s →
        s.signatureHistory = issuers.rtake securityParam.toNat ∧
        (∀ window, window <:+: issuers → window.length ≤ securityParam.toNat →
          ∀ issuer, window.count issuer ≤ quota securityParam numerator denominator) ∧
        ∀ issuer, (∃ e, s.transition issuer = .error e) ↔
          quota securityParam numerator denominator <
            ((issuers ++ [issuer]).rtake securityParam.toNat).count issuer := by
  refine ⟨⟨[], securityParam, numerator, denominator⟩, ?_, fun issuers s hrun => ?_⟩
  · unfold newPbftStateWithThreshold
    rw [if_neg hk, if_neg hdenominator, List.length_nil, if_neg (Nat.not_lt_zero _)]
  · have hstart : PbftState.Holds ⟨[], securityParam, numerator, denominator⟩ [] :=
      ⟨hk, hdenominator, by rw [List.rtake_nil]⟩
    obtain ⟨hs, hparam, hmax, hbound⟩ := hstart.run hrun
    refine ⟨?_, fun window hwindow hlength issuer => ?_, fun issuer => ?_⟩
    · rw [hs.history, hparam]
    · exact SlidingWindow.count_le hbound hwindow hlength issuer
    · obtain ⟨haccepted, hrefused⟩ := PbftState.transition_eq hs issuer
      rw [hmax, hparam] at haccepted hrefused
      constructor
      · rintro ⟨e, he⟩
        refine Nat.lt_of_not_le fun hle => ?_
        have hok := haccepted hle
        rw [he] at hok
        cases hok
      · intro hlt
        obtain ⟨_, _, -, -, herror⟩ := hrefused hlt
        exact ⟨_, herror⟩

/-- With a window of 4 and a threshold of one half, two issuers that take turns are accepted,
and the third signature of one in a window is not. -/
theorem signature_quota_turns :
    ∃ start s, newPbftStateWithThreshold [] 4 1 2 = .ok start ∧ start.run [1, 2, 1, 2] = .ok s ∧
      s.signatureHistory = [1, 2, 1, 2] ∧ (∃ e, s.transition 2 = .error e) := by
  obtain ⟨start, hstart, hchains⟩ := signature_quota 4 1 2 (by decide) (by decide)
  cases hstart
  obtain ⟨hhistory, -, hrefused⟩ := hchains [1, 2, 1, 2] _ rfl
  exact ⟨_, _, rfl, rfl, hhistory.trans (by decide), (hrefused 2).mpr (by decide)⟩

end Gouroboros.Consensus.Byron

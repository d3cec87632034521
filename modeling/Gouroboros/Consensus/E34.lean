import Mathlib.Algebra.Order.Group.Unbundled.Int
import Gouroboros.Lib.ExceptFold

/-!
# Fixed-point arithmetic of the leader check

Numbers with 34 decimal places as integers scaled by `10^34` (`consensus/e34.go`). Every division
rounds down, as the reference implementation does, and the results are compared bit for bit, so
the roundings are part of the model. A `big.Int` is an `Int`; the source's destinations are the
results here.

The bracketing and bisection loops of `e34Ln` have no bound in the source. They take `fuel` here
and report `diverges` when it runs out, which is no error of the source.
-/

namespace Gouroboros.Consensus

def e34Scale : Int := 10 ^ 34

def e34Epsilon : Int := 10 ^ 10

inductive E34Error where
  | divisionByZero
  | logarithmNotPositive
  | continuedFractionNegative
  | diverges
deriving DecidableEq

/-! ## Rounded operations -/

def e34FloorQuotient (numerator denominator : Int) : Except E34Error Int :=
  if denominator = 0 then .error .divisionByZero
  else
    let n := if denominator < 0 then -numerator else numerator
    let d := if denominator < 0 then -denominator else denominator
    if 0 ≤ n then .ok (n.tdiv d)
    else if n.tmod d < 0 then .ok (n.tdiv d - 1)
    else .ok (n.tdiv d)

def e34FromRatio (numerator denominator : Int) : Except E34Error Int :=
  e34FloorQuotient (numerator * e34Scale) denominator

/-- The scale is not zero, so the error is never taken. -/
def e34Mul (a b : Int) : Int :=
  match e34FloorQuotient (a * b) e34Scale with
  | .ok quotient => quotient
  | .error _ => a * b

def e34Div (a b : Int) : Except E34Error Int := e34FromRatio a b

/-- Powers with a natural exponent: halve an even one, take one factor off an odd one. The
exponent falls in every call, so that it is fuel enough for itself. -/
def e34PowerNat (base : Int) : Nat → Nat → Int
  | 0, _ => e34Scale
  | fuel + 1, exponent =>
    if exponent = 0 then e34Scale
    else if exponent % 2 = 0 then
      let power := e34PowerNat base fuel (exponent / 2)
      e34Mul power power
    else e34Mul base (e34PowerNat base fuel (exponent - 1))

def e34Power (base exponent : Int) : Except E34Error Int :=
  if exponent < 0 then e34Div e34Scale (e34PowerNat base exponent.natAbs exponent.natAbs)
  else .ok (e34PowerNat base exponent.natAbs exponent.natAbs)

/-! ## The exponential -/

/-- The Taylor terms, for at most the given number of rounds. -/
def e34ExpLoop (x : Int) : Nat → Int → Int → Int → Except E34Error Int
  | 0, _, acc, _ => .ok acc
  | rounds + 1, last, acc, divisor => do
      let next ← e34Div (e34Mul last x) divisor
      if |next| < e34Epsilon then .ok acc
      else e34ExpLoop x rounds next (acc + next) (divisor + e34Scale)

def e34ExpPositive (v : Int) (budget : Nat) : Except E34Error Int := do
  let n := if v.tmod e34Scale ≠ 0 then v.tdiv e34Scale + 1 else v.tdiv e34Scale
  let x ← e34Div v (n * e34Scale)
  let acc ← e34ExpLoop x (budget - 1) e34Scale e34Scale e34Scale
  e34Power acc n

def e34ExpWithBudget (v : Int) (budget : Nat) : Except E34Error Int :=
  if v = 0 then .ok e34Scale
  else if v < 0 then do
    let result ← e34ExpPositive (-v) budget
    e34Div e34Scale result
  else e34ExpPositive v budget

def e34Exp (v : Int) : Except E34Error Int := e34ExpWithBudget v 1000

/-! ## The logarithm -/

structure LnCFState where
  aOlder : Int
  bOlder : Int
  aPrev : Int
  bPrev : Int
  previous : Int
deriving DecidableEq

/-- The rounds from `depth` on, with `rounds` left until the budget. -/
def e34LnCFLoop (r : Int) : Nat → Nat → LnCFState → Except E34Error Int
  | rounds, depth, s => do
      let k : Int := ((depth + 1) / 2 : Nat)
      let coefficient := if depth > 0 then r * (k * k) else r
      let denominator := ((depth + 1 : Nat) : Int) * e34Scale
      let a := e34Mul denominator s.aPrev + e34Mul coefficient s.aOlder
      let b := e34Mul denominator s.bPrev + e34Mul coefficient s.bOlder
      let convergent ← e34Div a b
      let difference := |s.previous - convergent|
      match rounds with
      | 0 => .ok convergent
      | rounds + 1 =>
        if depth > 0 ∧ difference < e34Epsilon then .ok convergent
        else e34LnCFLoop r rounds (depth + 1) ⟨s.aPrev, s.bPrev, a, b, convergent⟩

def e34LnCF (r : Int) (budget : Nat) : Except E34Error Int :=
  if r < 0 then .error .continuedFractionNegative
  else e34LnCFLoop r budget 0 ⟨e34Scale, 0, 0, e34Scale, 0⟩

/-- Square both values until they enclose `v`; the exponents double along. -/
def e34Bracket (v : Int) : Nat → Int → Int → Int → Int → Except E34Error (Int × Int)
  | 0, _, _, _, _ => .error .diverges
  | fuel + 1, lowerValue, upperValue, lower, upper =>
    if lowerValue > v ∨ upperValue < v then
      e34Bracket v fuel (e34Mul lowerValue lowerValue) (e34Mul upperValue upperValue)
        (lower * 2) (upper * 2)
    else .ok (lower, upper)

/-- Halve the interval of exponents until it has length one; its lower end. -/
def e34Bisect (v e : Int) : Nat → Int → Int → Except E34Error Int
  | 0, _, _ => .error .diverges
  | fuel + 1, lower, upper =>
    let distance := upper - lower
    if distance = 1 then .ok lower
    else do
      let mid := lower + distance / 2
      let power ← e34Power e mid
      if v < power then e34Bisect v e fuel lower mid else e34Bisect v e fuel mid upper

def e34Ln (fuel : Nat) (v : Int) : Except E34Error Int :=
  if v ≤ 0 then .error .logarithmNotPositive
  else do
    let e ← e34Exp e34Scale
    let lowerValue ← e34Div e34Scale e
    let (bracketLower, bracketUpper) ← e34Bracket v fuel lowerValue e (-1) 1
    let lower ← e34Bisect v e fuel bracketLower bracketUpper
    let power ← e34Power e lower
    let quotient ← e34Div v power
    let fraction ← e34LnCF (quotient - e34Scale) 1000
    .ok (lower * e34Scale + fraction)

theorem e34Ln_of_steps {fuel : Nat} {v e lowerValue bracketLower bracketUpper lower power
    quotient : Int} (hv : 0 < v) (hexp : e34Exp e34Scale = .ok e)
    (hlower : e34Div e34Scale e = .ok lowerValue)
    (hbracket : e34Bracket v fuel lowerValue e (-1) 1 = .ok (bracketLower, bracketUpper))
    (hbisect : e34Bisect v e fuel bracketLower bracketUpper = .ok lower)
    (hpower : e34Power e lower = .ok power) (hquotient : e34Div v power = .ok quotient) :
    e34Ln fuel v = (e34LnCF (quotient - e34Scale) 1000).map (lower * e34Scale + ·) := by
  rw [e34Ln, if_neg (Int.not_le.mpr hv), hexp]
  simp only [bind, Except.bind, hlower, hbracket, hbisect, hpower, hquotient]
  cases e34LnCF (quotient - e34Scale) 1000 with
  | error err => rfl
  | ok fraction => rfl

/-! ## The comparison -/

inductive E34Comparison where
  | above
  | below
  | maxReached
deriving DecidableEq

def e34CompareLoop (q x : Int) : Nat → Nat → Int → Int → Int →
    Except E34Error (E34Comparison × Int × Nat)
  | 0, _, acc, _, _ => .ok (.maxReached, acc, 1000)
  | rounds + 1, iteration, acc, errTerm, divisor => do
      let divisor := divisor + e34Scale
      let scaled ← e34FloorQuotient (errTerm * x) e34Scale
      let nextErr ← e34FloorQuotient (scaled * e34Scale) divisor
      let acc := acc + errTerm
      let errorBound := |nextErr * 3|
      if q ≥ acc + errorBound then .ok (.above, acc, iteration)
      else if q < acc - errorBound then .ok (.below, acc, iteration)
      else e34CompareLoop q x rounds (iteration + 1) acc nextErr divisor

def e34Compare (q x : Int) : Except E34Error (E34Comparison × Int × Nat) :=
  e34CompareLoop q x 1000 1 e34Scale x e34Scale

end Gouroboros.Consensus

import Mathlib.Data.List.Basic

/-!
# Executable transition systems

A system is a partial step function: `step s c` is the state after the choice
`c` of the environment, or `none` when `c` is not enabled in `s`. A run takes a
list of choices, so a property of every run holds at every moment of one.
-/

namespace Transition

variable {S C : Type} {step : S → C → Option S}

/-- The state after taking the choices one after the other. -/
def run (step : S → C → Option S) (s : S) (choices : List C) : Option S := choices.foldlM step s

@[simp] theorem run_cons (s : S) (c : C) (choices : List C) :
    run step s (c :: choices) = (step s c).bind fun s' => run step s' choices := rfl

/-- What holds at the start and is kept by every step holds after every run. -/
theorem run_invariant {P : S → Prop} (hstep : ∀ s c s', P s → step s c = some s' → P s')
    {s s' : S} {choices : List C} (h : P s) (hrun : run step s choices = some s') : P s' := by
  induction choices generalizing s with
  | nil =>
    cases hrun
    exact h
  | cons c choices ih =>
    rw [run_cons, Option.bind_eq_some_iff] at hrun
    obtain ⟨mid, hmid, hrest⟩ := hrun
    exact ih (hstep s c mid h hmid) hrest

/-- Every step of the run satisfies `Q`, a condition on the choice and the state before it. -/
def StepsMeet (step : S → C → Option S) (Q : S → C → Prop) : S → List C → Prop
  | _, [] => True
  | s, c :: choices => Q s c ∧ ∀ s', step s c = some s' → StepsMeet step Q s' choices

instance decidableStepsMeet {Q : S → C → Prop} [∀ s c, Decidable (Q s c)] :
    ∀ (s : S) (choices : List C), Decidable (StepsMeet step Q s choices)
  | _, [] => isTrue trivial
  | s, c :: choices =>
    match h : step s c with
    | none =>
      decidable_of_iff (Q s c)
        ⟨fun hq => ⟨hq, fun s' hs' => by rw [h] at hs'; cases hs'⟩, And.left⟩
    | some mid =>
      have : Decidable (StepsMeet step Q mid choices) := decidableStepsMeet mid choices
      decidable_of_iff (Q s c ∧ StepsMeet step Q mid choices)
        ⟨fun hq => ⟨hq.1, fun s' hs' => Option.some.inj (h.symm.trans hs') ▸ hq.2⟩,
          fun hq => ⟨hq.1, hq.2 mid h⟩⟩

theorem run_invariant_of_stepsMeet {P : S → Prop} {Q : S → C → Prop}
    (hstep : ∀ s c s', P s → Q s c → step s c = some s' → P s') {s s' : S} {choices : List C}
    (h : P s) (hmeet : StepsMeet step Q s choices) (hrun : run step s choices = some s') :
    P s' := by
  induction choices generalizing s with
  | nil =>
    cases hrun
    exact h
  | cons c choices ih =>
    rw [run_cons, Option.bind_eq_some_iff] at hrun
    obtain ⟨mid, hmid, hrest⟩ := hrun
    exact ih (hstep s c mid h hmeet.1 hmid) (hmeet.2 mid hmid) hrest

end Transition

import Mathlib.Algebra.BigOperators.Finprod

/-!
# How far a change moves a total

A state that holds an amount under every key of a possibly infinite type is a
function to the integers. `Moves f g d` says that `g` differs from `f` under
finitely many keys and that the differences add up to `d`. It composes along a
run (`Moves.trans`), one change of one key is `Moves.of_ne`, and the two
functions determine `d` (`Moves.unique`).
-/

namespace Total

variable {K : Type} {f g h : K → Int} {d e : Int}

/-- `g` differs from `f` under finitely many keys, by `d` altogether. -/
structure Moves (f g : K → Int) (d : Int) : Prop where
  finite : (Function.support fun k => g k - f k).Finite
  sum : ∑ᶠ k, (g k - f k) = d

theorem Moves.refl (f : K → Int) : Moves f f 0 := by
  constructor
  · simp [Function.support]
  · simp

theorem Moves.trans (h₁ : Moves f g d) (h₂ : Moves g h e) : Moves f h (d + e) := by
  have hsplit : (fun k => h k - f k) = fun k => (g k - f k) + (h k - g k) := by
    funext k
    ring
  constructor
  · rw [hsplit]
    exact (h₁.finite.union h₂.finite).subset (Function.support_add _ _)
  · rw [hsplit, finsum_add_distrib h₁.finite h₂.finite, h₁.sum, h₂.sum]

theorem Moves.of_ne (a : K) (hne : ∀ k, k ≠ a → g k = f k) : Moves f g (g a - f a) := by
  have hoff : ∀ k, k ≠ a → g k - f k = 0 := by
    intro k hk
    rw [hne k hk, sub_self]
  refine ⟨(Set.finite_singleton a).subset ?_, finsum_eq_single _ a hoff⟩
  intro k hk
  by_contra hka
  exact hk (hoff k hka)

theorem Moves.unique (h₁ : Moves f g d) (h₂ : Moves f g e) : d = e := h₁.sum.symm.trans h₂.sum

theorem foldl_total {σ α : Type} {step : σ → α → σ} {total : σ → Int} {amount : α → Int}
    (hstep : ∀ s a, total (step s a) = total s + amount a) (l : List α) (s : σ) :
    total (l.foldl step s) = total s + (l.map amount).sum := by
  induction l generalizing s with
  | nil => simp
  | cons a l ih => rw [List.foldl_cons, ih, hstep, List.map_cons, List.sum_cons, add_assoc]

end Total

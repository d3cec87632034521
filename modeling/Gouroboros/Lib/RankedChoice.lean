import Mathlib.Data.List.Basic
import Mathlib.Data.Prod.Lex
import Mathlib.Order.WithBot

/-!
# Comparators that follow a rank

A comparator in the style of C (positive, negative or zero) that agrees with the order of a
rank in some linear order is a total preorder, and the choice that keeps a running best does
not depend on the order of the candidates, up to rank. Ranks are put together
lexicographically, with a least element for a missing value.
-/

namespace RankedChoice

variable {K : Type} [LinearOrder K]

/-- 1 when the first is larger, -1 when the second is, 0 when they are equal. -/
def cmpInt (x y : K) : Int := if y < x then 1 else if x < y then -1 else 0

variable {x y : K}

theorem cmpInt_of_lt (h : x < y) : cmpInt x y = -1 := by
  rw [cmpInt, if_neg (lt_asymm h), if_pos h]

theorem cmpInt_of_gt (h : y < x) : cmpInt x y = 1 := if_pos h

@[simp] theorem cmpInt_self (x : K) : cmpInt x x = 0 := by
  rw [cmpInt, if_neg (lt_irrefl x), if_neg (lt_irrefl x)]

theorem cmpInt_pos : 0 < cmpInt x y ↔ y < x := by
  rcases lt_trichotomy x y with h | rfl | h
  · rw [cmpInt_of_lt h]
    exact ⟨fun hpos => absurd hpos (by decide), fun hgt => absurd hgt (lt_asymm h)⟩
  · rw [cmpInt_self]
    exact ⟨fun hpos => absurd hpos (lt_irrefl 0), fun hgt => absurd hgt (lt_irrefl x)⟩
  · rw [cmpInt_of_gt h]
    exact ⟨fun _ => h, fun _ => by decide⟩

theorem cmpInt_swap (x y : K) : cmpInt y x = -cmpInt x y := by
  rcases lt_trichotomy x y with h | rfl | h
  · rw [cmpInt_of_lt h, cmpInt_of_gt h]
    rfl
  · rw [cmpInt_self]
    rfl
  · rw [cmpInt_of_lt h, cmpInt_of_gt h]

theorem cmpInt_nonneg : 0 ≤ cmpInt x y ↔ y ≤ x := by
  have hlt : 0 < cmpInt y x ↔ x < y := cmpInt_pos
  rw [← not_lt (a := x), ← hlt, cmpInt_swap x y]
  omega

theorem cmpInt_eq_zero : cmpInt x y = 0 ↔ x = y := by
  rw [le_antisymm_iff (a := x), ← cmpInt_nonneg (x := y), ← cmpInt_nonneg (x := x), cmpInt_swap x y]
  omega

/-! ## Ranks put together -/

theorem cmpInt_toDual (x y : K) : cmpInt (OrderDual.toDual x) (OrderDual.toDual y) = cmpInt y x :=
  rfl

theorem cmpInt_coe (x y : K) : cmpInt (x : WithBot K) (y : WithBot K) = cmpInt x y := by
  unfold cmpInt
  simp only [WithBot.coe_lt_coe]

theorem cmpInt_bot_coe (y : K) : cmpInt (⊥ : WithBot K) (y : WithBot K) = -1 :=
  cmpInt_of_lt (WithBot.bot_lt_coe y)

theorem cmpInt_coe_bot (x : K) : cmpInt (x : WithBot K) (⊥ : WithBot K) = 1 :=
  cmpInt_of_gt (WithBot.bot_lt_coe x)

theorem cmpInt_toLex {L : Type} [LinearOrder L] (x x' : K) (y y' : L) :
    cmpInt (toLex (x, y)) (toLex (x', y')) =
      if cmpInt x x' ≠ 0 then cmpInt x x' else cmpInt y y' := by
  rcases lt_trichotomy x x' with h | rfl | h
  · rw [cmpInt_of_lt h, if_pos (by decide)]
    exact cmpInt_of_lt (Prod.Lex.toLex_lt_toLex.mpr (.inl h))
  · rw [cmpInt_self, if_neg (not_not.mpr rfl)]
    rcases lt_trichotomy y y' with h | rfl | h
    · rw [cmpInt_of_lt h]
      exact cmpInt_of_lt (Prod.Lex.toLex_lt_toLex.mpr (.inr ⟨rfl, h⟩))
    · rw [cmpInt_self, cmpInt_self]
    · rw [cmpInt_of_gt h]
      exact cmpInt_of_gt (Prod.Lex.toLex_lt_toLex.mpr (.inr ⟨rfl, h⟩))
  · rw [cmpInt_of_gt h, if_pos (by decide)]
    exact cmpInt_of_gt (Prod.Lex.toLex_lt_toLex.mpr (.inl h))

/-! ## The running best -/

variable {α : Type} {compare : α → α → Int} {rank : α → K}

/-- The candidate that beats the best so far takes its place. -/
def keepBest (compare : α → α → Int) (best candidate : α) : α :=
  if 0 < compare candidate best then candidate else best

theorem foldl_keepBest (h : ∀ a b, compare a b = cmpInt (rank a) (rank b)) (first : α)
    (rest : List α) :
    rest.foldl (keepBest compare) first ∈ first :: rest ∧
      ∀ a ∈ first :: rest, rank a ≤ rank (rest.foldl (keepBest compare) first) := by
  induction rest generalizing first with
  | nil => exact ⟨List.mem_singleton_self first, fun a ha => (List.mem_singleton.mp ha ▸ le_refl _)⟩
  | cons candidate rest ih =>
    rw [List.foldl_cons]
    obtain ⟨hmem, hbest⟩ := ih (keepBest compare first candidate)
    -- The new best is one of the two, and at least both.
    have hstep : keepBest compare first candidate ∈ [first, candidate] ∧
        rank first ≤ rank (keepBest compare first candidate) ∧
        rank candidate ≤ rank (keepBest compare first candidate) := by
      unfold keepBest
      split
      · rename_i hpos
        rw [h, cmpInt_pos] at hpos
        exact ⟨by simp, le_of_lt hpos, le_refl _⟩
      · rename_i hge
        rw [h, cmpInt_pos, not_lt] at hge
        exact ⟨by simp, le_refl _, hge⟩
    constructor
    · rcases List.mem_cons.mp hmem with heq | hrest
      · rw [heq]
        exact List.mem_append_left rest hstep.1
      · exact List.mem_append_right [first, candidate] hrest
    · have hnew := hbest _ List.mem_cons_self
      intro a ha
      rcases List.mem_cons.mp ha with rfl | ha
      · exact hstep.2.1.trans hnew
      · rcases List.mem_cons.mp ha with rfl | ha
        · exact hstep.2.2.trans hnew
        · exact hbest a (List.mem_cons_of_mem _ ha)

end RankedChoice

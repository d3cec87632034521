import Mathlib.Tactic.FieldSimp
import Mathlib.Tactic.Ring
import Mathlib.Tactic.Linarith
import Mathlib.Tactic.Positivity

/-!
# Continued fractions with nonnegative terms

`cut c d j m` is the fraction `c j / (d j + c (j + 1) / (d (j + 1) + …))` cut after `m` levels.
Cuts after an even number of levels are below every later cut, and cuts after an odd number above
every later one. A program evaluates such a fraction forward, by a three-term recurrence for its
numerators and denominators (`cut_eq_div`).
-/

namespace ContinuedFraction

section Definitions
variable {K : Type} [Field K]

/-- The fraction from level `j` on, cut after `m` levels. -/
def cut (c d : ℕ → K) : ℕ → ℕ → K
  | _, 0 => 0
  | j, m + 1 => c j / (d j + cut c d (j + 1) m)

/-- The solutions of the three-term recurrence, by their first two values. -/
def solution (c d : ℕ → K) (u v : K) : ℕ → K
  | 0 => u
  | 1 => v
  | n + 2 => d n * solution c d u v (n + 1) + c n * solution c d u v n

def numer (c d : ℕ → K) : ℕ → K := solution c d 1 0

def denom (c d : ℕ → K) : ℕ → K := solution c d 0 1

variable {c d : ℕ → K}

theorem solution_succ_succ (u v : K) (n : ℕ) :
    solution c d u v (n + 2) = d n * solution c d u v (n + 1) + c n * solution c d u v n := by
  rw [solution]

theorem numer_succ_succ (n : ℕ) :
    numer c d (n + 2) = d n * numer c d (n + 1) + c n * numer c d n := solution_succ_succ 1 0 n

theorem denom_succ_succ (n : ℕ) :
    denom c d (n + 2) = d n * denom c d (n + 1) + c n * denom c d n := solution_succ_succ 0 1 n

end Definitions

section Cuts
variable {K : Type} [Field K] [LinearOrder K] [IsStrictOrderedRing K] {c d : ℕ → K}

section

variable (hc : ∀ j, 0 ≤ c j) (hd : ∀ j, 0 < d j)
include hc hd

theorem solution_nonneg {u v : K} (hu : 0 ≤ u)
    (hv : 0 ≤ v) : ∀ n, 0 ≤ solution c d u v n ∧ 0 ≤ solution c d u v (n + 1)
  | 0 => ⟨hu, hv⟩
  | n + 1 => by
      rcases solution_nonneg hu hv n with ⟨hn, hsucc⟩
      rw [solution_succ_succ]
      exact ⟨hsucc, add_nonneg (mul_nonneg (hd n).le hsucc) (mul_nonneg (hc n) hn)⟩

theorem denom_nonneg (n : ℕ) : 0 ≤ denom c d n := (solution_nonneg hc hd le_rfl zero_le_one n).1

theorem cut_nonneg : ∀ m j, 0 ≤ cut c d j m
  | 0, _ => le_rfl
  | m + 1, j => div_nonneg (hc j) (add_nonneg (hd j).le (cut_nonneg m (j + 1)))

theorem add_cut_pos (m j : ℕ) : 0 < d j + cut c d (j + 1) m :=
  add_pos_of_pos_of_nonneg (hd j) (cut_nonneg hc hd m (j + 1))

theorem cut_add_eq_div : ∀ n m,
    cut c d 0 (n + m) = (numer c d (n + 1) + cut c d n m * numer c d n) /
      (denom c d (n + 1) + cut c d n m * denom c d n)
  | 0, m => by simp [numer, denom, solution]
  | n + 1, m => by
      have hpos := add_cut_pos hc hd m n
      have hcut : cut c d n (m + 1) = c n / (d n + cut c d (n + 1) m) := by rw [cut]
      rw [Nat.succ_add_eq_add_succ, cut_add_eq_div n (m + 1), hcut, numer_succ_succ,
        denom_succ_succ, ← mul_div_mul_left _ _ hpos.ne']
      congr 1
      · field_simp
        ring
      · field_simp
        ring

theorem cut_eq_div (n : ℕ) : cut c d 0 n = numer c d (n + 1) / denom c d (n + 1) := by
  have hwhole := cut_add_eq_div hc hd n 0
  simp only [cut, zero_mul, add_zero] at hwhole
  exact hwhole

/-! ### Cuts bracket the later cuts -/

theorem cut_succ_le {j m m' : ℕ}
    (h : cut c d (j + 1) m' ≤ cut c d (j + 1) m) : cut c d j (m + 1) ≤ cut c d j (m' + 1) :=
  div_le_div_of_nonneg_left (hc j) (add_cut_pos hc hd m' j) (add_le_add_right h _)

theorem cut_bracket : ∀ m j m', m ≤ m' →
    (Even m → cut c d j m ≤ cut c d j m') ∧ (Odd m → cut c d j m' ≤ cut c d j m)
  | 0, j, m', _ => ⟨fun _ => cut_nonneg hc hd m' j, fun h => absurd h (by decide)⟩
  | m + 1, j, 0, hle => absurd hle (by omega)
  | m + 1, j, m' + 1, hle => by
      rcases cut_bracket m (j + 1) m' (by omega) with ⟨heven, hodd⟩
      constructor
      · intro h
        exact cut_succ_le hc hd (hodd (Nat.not_even_iff_odd.mp (Nat.even_add_one.mp h)))
      · intro h
        exact cut_succ_le hc hd (heven (Nat.not_odd_iff_even.mp (Nat.odd_add_one.mp h)))

/-- An odd cut is above all even cuts and all later ones. -/
theorem cut_le_cut_of_odd {m n : ℕ} (hn : Odd n)
    (hm : Even m ∨ n ≤ m) (j : ℕ) : cut c d j m ≤ cut c d j n := by
  rcases le_total n m with hle | hle
  · exact (cut_bracket hc hd n j m hle).2 hn
  · rcases hm with heven | hge
    · exact (cut_bracket hc hd m j n hle).1 heven
    · rw [le_antisymm hle hge]

theorem cut_mono_scale {x y : K}
    (hx : 0 ≤ x) (hxy : x ≤ y) : ∀ m j,
    cut (fun i => x * c i) d j m ≤ cut (fun i => y * c i) d j m ∧
      x * cut (fun i => y * c i) d j m ≤ y * cut (fun i => x * c i) d j m
  | 0, j => by simp [cut]
  | m + 1, j => by
      have hy : 0 ≤ y := hx.trans hxy
      have hposx := add_cut_pos (fun i => mul_nonneg hx (hc i)) hd m j
      have hposy := add_cut_pos (fun i => mul_nonneg hy (hc i)) hd m j
      rcases cut_mono_scale hx hxy m (j + 1) with ⟨hmono, hslow⟩
      rw [cut, cut]
      constructor
      · rw [div_le_div_iff₀ hposx hposy]
        have hrest : x * (d j + cut (fun i => y * c i) d (j + 1) m) ≤
            y * (d j + cut (fun i => x * c i) d (j + 1) m) := by
          rw [mul_add, mul_add]
          exact add_le_add (mul_le_mul_of_nonneg_right hxy (hd j).le) hslow
        calc x * c j * (d j + cut (fun i => y * c i) d (j + 1) m)
            = c j * (x * (d j + cut (fun i => y * c i) d (j + 1) m)) := by ring
          _ ≤ c j * (y * (d j + cut (fun i => x * c i) d (j + 1) m)) :=
              mul_le_mul_of_nonneg_left hrest (hc j)
          _ = y * c j * (d j + cut (fun i => x * c i) d (j + 1) m) := by ring
      · have hnum : 0 ≤ x * y * c j := mul_nonneg (mul_nonneg hx hy) (hc j)
        calc x * (y * c j / (d j + cut (fun i => y * c i) d (j + 1) m))
            = x * y * c j / (d j + cut (fun i => y * c i) d (j + 1) m) := by ring
          _ ≤ x * y * c j / (d j + cut (fun i => x * c i) d (j + 1) m) :=
              div_le_div_of_nonneg_left hnum hposx (add_le_add_right hmono _)
          _ = y * (x * c j / (d j + cut (fun i => x * c i) d (j + 1) m)) := by ring

end

theorem one_le_denom (hc : ∀ j, 0 ≤ c j) (hd : ∀ j, 1 ≤ d j) : ∀ n, 1 ≤ denom c d (n + 1)
  | 0 => le_rfl
  | n + 1 => by
      have hprev := one_le_denom hc hd n
      have holder : 0 ≤ denom c d n := denom_nonneg hc (fun j => one_pos.trans_le (hd j)) n
      rw [denom_succ_succ]
      calc (1 : K) ≤ d n * denom c d (n + 1) := one_le_mul_of_one_le_of_one_le (hd n) hprev
        _ ≤ d n * denom c d (n + 1) + c n * denom c d n :=
            le_add_of_nonneg_right (mul_nonneg (hc n) holder)

end Cuts

end ContinuedFraction

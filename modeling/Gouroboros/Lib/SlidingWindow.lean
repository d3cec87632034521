import Mathlib.Data.List.DropRight
import Mathlib.Data.List.Infix

/-!
# Sliding windows

A window of the last `k` elements of a growing list, kept by dropping the oldest element once
the window is full. A rule that checks only the element just added, in the window that it
ends, bounds every element in every window: the last occurrence of an element is the one
whose check counts all of them.
-/

namespace SlidingWindow

variable {α : Type}

def push (k : Nat) (window : List α) (x : α) : List α :=
  (if k ≤ window.length then window.drop 1 else window) ++ [x]

theorem push_rtake {k : Nat} (hk : 0 < k) (l : List α) (x : α) :
    push k (l.rtake k) x = (l ++ [x]).rtake k := by
  obtain ⟨n, rfl⟩ := Nat.exists_eq_succ_of_ne_zero (Nat.pos_iff_ne_zero.mp hk)
  rw [List.rtake_concat_succ, push]
  congr 1
  have hlength : (l.rtake (n + 1)).length = min (n + 1) l.length := by
    rw [List.rtake, List.length_drop]
    omega
  rw [hlength]
  unfold List.rtake
  split
  · rw [List.drop_drop]
    congr 1
    omega
  · rw [show l.length - (n + 1) = 0 by omega, show l.length - n = 0 by omega]

theorem length_rtake_le (k : Nat) (l : List α) : (l.rtake k).length ≤ k := by
  rw [List.rtake, List.length_drop]
  omega

variable {w l : List α}

theorem suffix_rtake {k : Nat} (h : w <:+ l) (hlength : w.length ≤ k) : w <:+ l.rtake k := by
  obtain ⟨p, rfl⟩ := h
  refine ⟨p.drop ((p ++ w).length - k), ?_⟩
  rw [List.rtake, List.drop_append_of_le_length]
  rw [List.length_append]
  omega

theorem exists_last {x : α} (h : x ∈ w) : ∃ u v, w = u ++ [x] ++ v ∧ x ∉ v := by
  -- the first occurrence from the other end
  obtain ⟨v, u, hw, hv⟩ := List.eq_append_cons_of_mem (List.mem_reverse.mpr h)
  refine ⟨u.reverse, v.reverse, ?_, List.mem_reverse.not.mpr hv⟩
  rw [← List.reverse_reverse w, hw]
  simp

variable [DecidableEq α]

/-- When each element was within `q` in the window that it ended, every element is in every
window. -/
theorem count_le {k q : Nat} (h : ∀ p x, p ++ [x] <+: l → ((p ++ [x]).rtake k).count x ≤ q)
    (hw : w <:+: l) (hlength : w.length ≤ k) (x : α) : w.count x ≤ q := by
  by_cases hx : x ∈ w
  · obtain ⟨u, v, rfl, hv⟩ := exists_last hx
    obtain ⟨p, r, hl⟩ := hw
    have hprefix : p ++ u ++ [x] <+: l := ⟨v ++ r, by rw [← hl]; simp⟩
    have hsuffix : u ++ [x] <:+ (p ++ u ++ [x]).rtake k := by
      refine suffix_rtake ⟨p, by simp⟩ ?_
      rw [List.length_append] at hlength
      omega
    calc (u ++ [x] ++ v).count x = (u ++ [x]).count x := by
          rw [List.count_append, List.count_eq_zero_of_not_mem hv, Nat.add_zero]
      _ ≤ ((p ++ u ++ [x]).rtake k).count x := hsuffix.sublist.count_le x
      _ ≤ q := h (p ++ u) x hprefix
  · rw [List.count_eq_zero_of_not_mem hx]
    exact Nat.zero_le q

end SlidingWindow

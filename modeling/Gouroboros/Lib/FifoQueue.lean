import Mathlib.Algebra.Order.BigOperators.Group.List
import Mathlib.Algebra.Order.Ring.Nat
import Mathlib.Data.List.Nodup

/-!
# Queues with weighted entries

A queue is a list with the oldest entry first. `weight w q` is the sum of the weights of its
entries, and the lemmas say how it moves when an entry leaves or the queue is split. A queue that
was filled in the order of a log, and lost entries since, is the log restricted to what is left
(`filter_mem_eq`).
-/

namespace FifoQueue

variable {α : Type}

def weight (w : α → Nat) (q : List α) : Nat := (q.map w).sum

variable {w : α → Nat}

@[simp] theorem weight_nil : weight w [] = 0 := rfl

@[simp] theorem weight_cons (a : α) (q : List α) : weight w (a :: q) = w a + weight w q := by
  simp [weight]

@[simp] theorem weight_append (p q : List α) : weight w (p ++ q) = weight w p + weight w q := by
  simp [weight]

variable {q p : List α}

theorem weight_congr {v : α → Nat} (h : ∀ a ∈ q, v a = w a) : weight v q = weight w q := by
  rw [weight, weight, List.map_congr_left h]

theorem weight_perm (h : p.Perm q) : weight w p = weight w q := (h.map w).sum_nat

theorem weight_erase [DecidableEq α] {a : α} (h : a ∈ q) :
    weight w q = w a + weight w (q.erase a) := by
  rw [weight_perm (List.perm_cons_erase h), weight_cons]

theorem weight_filter_add (p : α → Bool) (q : List α) :
    weight w (q.filter p) + weight w (q.filter fun a => !p a) = weight w q := by
  rw [← weight_append, weight_perm (List.filter_append_perm p q)]

theorem weight_sublist (h : p.Sublist q) : weight w p ≤ weight w q :=
  (h.map w).sum_le_sum fun _ _ => Nat.zero_le _

theorem weight_eq_zero (h : ∀ a ∈ q, w a = 0) : weight w q = 0 :=
  List.sum_eq_zero (List.forall_mem_map.mpr h)

/-- A queue whose entries stand in the order of a log without repetitions is the log restricted to
them. -/
theorem filter_mem_eq [DecidableEq α] {log : List α} (h : q.Sublist log) (hnodup : log.Nodup) :
    log.filter (· ∈ q) = q := by
  have hsub : q.Sublist (log.filter (· ∈ q)) := by
    have hkept : q.filter (· ∈ q) = q := List.filter_eq_self.mpr fun a ha => decide_eq_true ha
    rw [← hkept]
    simpa using h.filter (· ∈ q)
  -- what the filter keeps is in the queue, and occurs once
  have hsubset : log.filter (· ∈ q) ⊆ q := fun a ha => by simpa using (List.mem_filter.mp ha).2
  exact (hsub.eq_of_length_le
    (List.subperm_of_subset (hnodup.filter _) hsubset).length_le).symm

end FifoQueue

import Mathlib.Data.List.Basic

/-!
# Slices

Reading and overwriting a part of a byte array by its bounds, and what that gives on an array
that is put together from parts of known lengths.
-/

namespace Slices

variable {α : Type}

/-- `l[start:stop]`. -/
def slice (l : List α) (start stop : Nat) : List α := (l.take stop).drop start

/-- `copy(l[start:stop], src)`: as many elements as both hold. -/
def copyInto (l : List α) (start stop : Nat) (src : List α) : List α :=
  l.take start ++ src.take (stop - start) ++ l.drop (start + min (stop - start) src.length)

variable {x y z y' : List α} {n m k : Nat}

theorem slice_left (hx : x.length = n) : slice (x ++ y) 0 n = x := by
  rw [slice, List.drop_zero, ← hx, List.take_left]

theorem slice_middle (hx : x.length = m) (hy : m + y.length = n) :
    slice (x ++ (y ++ z)) m n = y := by
  rw [slice, ← List.append_assoc, List.take_left' (by rw [List.length_append, hx, hy]),
    List.drop_left' hx]

theorem copyInto_middle (hx : x.length = m) (hy : m + y.length = n) (hy' : y'.length = y.length) :
    copyInto (x ++ (y ++ z)) m n y' = x ++ (y' ++ z) := by
  have hsize : n - m = y.length := by omega
  rw [copyInto, hsize, List.take_left' hx, List.take_of_length_le (Nat.le_of_eq hy'), hy', Nat.min_self,
    ← List.append_assoc x y z, List.drop_left' (by rw [List.length_append, hx]), List.append_assoc]

theorem copyInto_left (hy : y.length = n) (hy' : y'.length = n) :
    copyInto (y ++ z) 0 n y' = y' ++ z :=
  copyInto_middle (x := []) rfl (by rw [hy, Nat.zero_add]) (hy'.trans hy.symm)

theorem slice_right (hx : x.length = k) (m n : Nat) :
    slice (x ++ y) (k + m) (k + n) = slice y m n := by
  rw [slice, slice, ← hx, List.take_length_add_append, List.drop_length_add_append]

theorem copyInto_right {src : List α} (hx : x.length = k) (m n : Nat) :
    copyInto (x ++ y) (k + m) (k + n) src = x ++ copyInto y m n src := by
  rw [copyInto, copyInto, Nat.add_sub_add_left, ← hx, List.take_length_add_append, Nat.add_assoc,
    List.drop_length_add_append, List.append_assoc, List.append_assoc, List.append_assoc]

theorem slice_append_left (m : Nat) (h : n ≤ x.length) : slice (x ++ y) m n = slice x m n := by
  rw [slice, slice, List.take_append_of_le_length h]

theorem slice_all (hx : x.length = n) : slice x 0 n = x := by
  rw [slice, List.drop_zero, ← hx, List.take_length]

theorem copyInto_all (hx : x.length = n) (hy : y.length = n) : copyInto x 0 n y = y := by
  have h := copyInto_left (z := []) hx hy
  rwa [List.append_nil, List.append_nil] at h

theorem exists_append {l : List α} (h : l.length = m + n) :
    ∃ x y, l = x ++ y ∧ x.length = m ∧ y.length = n := by
  refine ⟨l.take m, l.drop m, (List.take_append_drop m l).symm, ?_, ?_⟩
  · rw [List.length_take]
    omega
  · rw [List.length_drop]
    omega

theorem slice_flatMap {β : Type} {f : β → List α} (hf : ∀ b, (f b).length = n) {l : List β}
    {i : Nat} {b : β} (hb : l[i]? = some b) : slice (l.flatMap f) (n * i) (n * i + n) = f b := by
  induction l generalizing i with
  | nil => cases hb
  | cons a l ih =>
    rw [List.flatMap_cons]
    cases i with
    | zero =>
      injection hb with hb
      subst hb
      rw [Nat.mul_zero, Nat.zero_add]
      exact slice_left (hf a)
    | succ i =>
      have hstart : n * (i + 1) = n + n * i := by rw [Nat.mul_succ, Nat.add_comm]
      rw [hstart, Nat.add_assoc, slice_right (hf a)]
      exact ih hb

end Slices

import Mathlib.Data.List.Basic

/-!
# Buffers with a read position and a capacity

Go's `bytes.Buffer`: a slice, of which the part in front of an offset has been read,
and the capacity up to which it can grow in place. Only writes that fit in place are
here, so the capacity never changes; a caller that wants to grow a buffer makes a
new one.
-/

/-- What is in the slice fits its capacity, and nothing past its end has been read. -/
structure GoBuffer (α : Type) where
  buf : List α
  off : Nat
  cap : Nat
  off_le : off ≤ buf.length
  length_le : buf.length ≤ cap
deriving DecidableEq

namespace GoBuffer

variable {α : Type}

/-- `NewBuffer(nil)`. -/
def empty : GoBuffer α := ⟨[], 0, 0, Nat.le_refl _, Nat.le_refl _⟩

/-- `NewBuffer` of a slice with a capacity. -/
def ofSlice (slice : List α) (cap : Nat) (h : slice.length ≤ cap) : GoBuffer α :=
  ⟨slice, 0, cap, Nat.zero_le _, h⟩

/-- What is not read yet. -/
def bytes (b : GoBuffer α) : List α := b.buf.drop b.off

def len (b : GoBuffer α) : Nat := b.buf.length - b.off

def available (b : GoBuffer α) : Nat := b.cap - b.buf.length

/-- `Write`, of data that fits. -/
def write (b : GoBuffer α) (data : List α) (h : data.length ≤ b.available) : GoBuffer α where
  buf := b.buf ++ data
  off := b.off
  cap := b.cap
  off_le := by
    rw [List.length_append]
    exact Nat.le_trans b.off_le (Nat.le_add_right _ _)
  length_le := by
    have hcap := b.length_le
    unfold available at h
    rw [List.length_append]
    omega

def next (b : GoBuffer α) (n : Nat) : GoBuffer α where
  buf := b.buf
  off := b.off + min n b.len
  cap := b.cap
  off_le := by
    have hoff := b.off_le
    unfold len
    omega
  length_le := b.length_le

@[simp] theorem length_bytes (b : GoBuffer α) : b.bytes.length = b.len := List.length_drop ..

@[simp] theorem bytes_ofSlice (slice : List α) (cap : Nat) (h : slice.length ≤ cap) :
    (ofSlice slice cap h).bytes = slice := rfl

@[simp] theorem bytes_write (b : GoBuffer α) (data : List α) (h : data.length ≤ b.available) :
    (b.write data h).bytes = b.bytes ++ data :=
  List.drop_append_of_le_length b.off_le

@[simp] theorem bytes_next (b : GoBuffer α) (n : Nat) : (b.next n).bytes = b.bytes.drop n := by
  have hoff : (b.next n).bytes = b.buf.drop (b.off + min n b.len) := rfl
  rw [hoff, bytes, List.drop_drop]
  by_cases h : n ≤ b.len
  · rw [Nat.min_eq_left h]
  · unfold len at h ⊢
    rw [List.drop_of_length_le (by omega), List.drop_of_length_le (by omega)]

end GoBuffer

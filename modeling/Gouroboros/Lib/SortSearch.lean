import Mathlib.Data.List.Basic

/-!
# Sorting and searching slices

`sort.Slice` and `sort.Search` of the Go library. The order that an unstable sort leaves equal
elements in is not specified, so a sort is any function that permutes and orders (`SliceSort`). The
search is the library's loop; over a predicate that stays true once it is, it finds the first place
where it is (`search_spec`).
-/

namespace SortSearch

structure SliceSort {α : Type} (less : α → α → Prop) where
  sort : List α → List α
  perm : ∀ l, (sort l).Perm l
  sorted : ∀ l, (sort l).Pairwise fun a b => ¬ less b a

def searchLoop (f : Nat → Bool) (i j : Nat) : Nat :=
  if i < j then
    let h := (i + j) / 2
    if f h then searchLoop f i h else searchLoop f (h + 1) j
  else i
termination_by j - i

def search (n : Nat) (f : Nat → Bool) : Nat := searchLoop f 0 n

theorem searchLoop_spec {f : Nat → Bool} {n i j : Nat} (hle : i ≤ j) (hj : j ≤ n)
    (hmono : ∀ a b, a ≤ b → b < n → f a → f b)
    (hbelow : ∀ k < i, f k = false) (habove : ∀ k, j ≤ k → k < n → f k) :
    searchLoop f i j ≤ n ∧ (∀ k < searchLoop f i j, f k = false) ∧
      ∀ k, searchLoop f i j ≤ k → k < n → f k := by
  fun_induction searchLoop f i j with
  | case1 i j hlt h htrue ih =>
    -- true in the middle, so true from there on
    refine ih (by omega) (by omega) hbelow fun k hk hkn => ?_
    exact hmono _ k hk hkn htrue
  | case2 i j hlt h hfalse ih =>
    refine ih (by omega) hj (fun k hk => ?_) habove
    by_contra htrue
    exact hfalse (hmono k _ (by omega) (by omega) (by simpa using htrue))
  | case3 i j hge =>
    have hij : i = j := by omega
    exact ⟨hij ▸ hj, hbelow, hij ▸ habove⟩

theorem search_spec {f : Nat → Bool} {n : Nat} (hmono : ∀ a b, a ≤ b → b < n → f a → f b) :
    search n f ≤ n ∧ (∀ k < search n f, f k = false) ∧
      ∀ k, search n f ≤ k → k < n → f k :=
  searchLoop_spec (Nat.zero_le n) (Nat.le_refl n) hmono
    (fun k hk => absurd hk (Nat.not_lt_zero k)) fun _ hk hkn => absurd hkn (Nat.not_lt.mpr hk)

end SortSearch

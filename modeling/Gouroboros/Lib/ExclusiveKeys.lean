import Mathlib.Logic.Function.Basic

/-!
# Owners with a current and a pending key

Each owner has at most one current key and at most one pending key. Registering
a key makes it current for an owner without a current key and pending for any
other, replacing the owner's earlier pending key. If a key is registered only
when nobody holds it, or by the owner whose current key it already is, then no
key ever has two owners.
-/

/-- The current and the pending key of every owner. -/
structure KeyHolders (P K : Type) where
  current : P → Option K
  future : P → Option K

namespace KeyHolders

variable {P K : Type} {h : KeyHolders P K} {p q : P} {k k' : K}

def Holds (h : KeyHolders P K) (p : P) (k : K) : Prop := h.current p = some k ∨ h.future p = some k

def Exclusive (h : KeyHolders P K) : Prop := ∀ p q k, h.Holds p k → h.Holds q k → p = q

/-- `k` is free, or already the current key of `p`. -/
def CanRegister (h : KeyHolders P K) (p : P) (k : K) : Prop :=
  ∀ q, h.Holds q k → q = p ∧ h.current p = some k

variable [DecidableEq P]

def register (h : KeyHolders P K) (p : P) (k : K) : KeyHolders P K :=
  match h.current p with
  | none => { h with current := Function.update h.current p (some k) }
  | some _ => { h with future := Function.update h.future p (some k) }

theorem holds_of_holds_register (hq : (h.register p k).Holds q k') :
    (q = p ∧ k' = k) ∨ h.Holds q k' := by
  unfold register at hq
  by_cases hqp : q = p
  · subst hqp
    split at hq
    · rcases hq with hq | hq
      · simp only [Function.update_self, Option.some.injEq] at hq
        exact .inl ⟨rfl, hq.symm⟩
      · exact .inr (.inr hq)
    · rcases hq with hq | hq
      · exact .inr (.inl hq)
      · simp only [Function.update_self, Option.some.injEq] at hq
        exact .inl ⟨rfl, hq.symm⟩
  · right
    split at hq <;> simpa [Holds, Function.update_of_ne hqp] using hq

theorem Exclusive.register (hex : h.Exclusive) (hcan : h.CanRegister p k) :
    (h.register p k).Exclusive := by
  intro q r k' hq hr
  rcases holds_of_holds_register hq with ⟨rfl, rfl⟩ | hq'
  · rcases holds_of_holds_register hr with ⟨rfl, _⟩ | hr'
    · rfl
    · exact (hcan r hr').1.symm
  · rcases holds_of_holds_register hr with ⟨rfl, rfl⟩ | hr'
    · exact (hcan q hq').1
    · exact hex q r k' hq' hr'

end KeyHolders

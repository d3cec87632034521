import Gouroboros.Lib.ExceptFold

/-!
# Loops that update distinct keys

A loop may update a keyed state one key at a time, each update depending on the
current value of its own key. When the keys of the list are distinct, every key
is updated from its initial value, so the result does not depend on the order
(`foldlM_pointwise`, `Pointwise.eq_of_mem_iff`), and what holds of the initial
values holds when their turn comes (`AllSteps`).
-/

namespace ExceptFold

variable {ε α σ K V : Type}

/-- `P` holds of the state and the element at every step of the loop. -/
def AllSteps (f : σ → α → Except ε σ) (P : σ → α → Prop) : σ → List α → Prop
  | _, [] => True
  | s, a :: l => P s a ∧ ∀ s', f s a = .ok s' → AllSteps f P s' l

variable {f : σ → α → Except ε σ} {l : List α} {s : σ}

theorem allSteps_of_forall {P : σ → α → Prop} (h : ∀ s, ∀ a ∈ l, P s a) : AllSteps f P s l := by
  induction l generalizing s with
  | nil => trivial
  | cons a l ih =>
    exact ⟨h s a (by simp), fun s' _ => ih fun t x hx => h t x (List.mem_cons_of_mem a hx)⟩

theorem AllSteps.imp {P Q : σ → α → Prop} (h : AllSteps f P s l)
    (himp : ∀ s, ∀ a ∈ l, P s a → Q s a) : AllSteps f Q s l := by
  induction l generalizing s with
  | nil => trivial
  | cons a l ih =>
    obtain ⟨ha, hrest⟩ := h
    refine ⟨himp s a (by simp) ha, fun s' hs' => ?_⟩
    exact ih (hrest s' hs') fun t x hx => himp t x (List.mem_cons_of_mem a hx)

/-- `after` is `before` with the key of every element of the list updated. -/
structure Pointwise (key : α → K) (value : α → V → V) (l : List α) (before after : K → V) :
    Prop where
  updated : ∀ a ∈ l, after (key a) = value a (before (key a))
  kept : ∀ k, (∀ a ∈ l, key a ≠ k) → after k = before k

variable {key : α → K} {value : α → V → V}

variable {before after : K → V}

/-- The order of the updates does not show. -/
theorem Pointwise.eq_of_mem_iff {l' : List α} {after' : K → V}
    (h : Pointwise key value l before after) (h' : Pointwise key value l' before after')
    (hmem : ∀ a, a ∈ l ↔ a ∈ l') : after = after' := by
  funext k
  by_cases hk : ∃ a ∈ l, key a = k
  · obtain ⟨a, ha, rfl⟩ := hk
    rw [h.updated a ha, h'.updated a ((hmem a).mp ha)]
  · rw [not_exists] at hk
    have hnot : ∀ a ∈ l, key a ≠ k := fun a ha heq => hk a ⟨ha, heq⟩
    rw [h.kept k hnot, h'.kept k fun a ha => hnot a ((hmem a).mpr ha)]

theorem Pointwise.map {W : Type} (h : Pointwise key value l before after) (g : V → W)
    (value' : α → W → W) (hg : ∀ a v, g (value a v) = value' a (g v)) :
    Pointwise key value' l (fun k => g (before k)) (fun k => g (after k)) := by
  refine ⟨fun a ha => ?_, fun k hk => ?_⟩
  · rw [h.updated a ha, hg]
  · rw [h.kept k hk]

theorem Pointwise.nil (before : K → V) : Pointwise key value [] before before :=
  ⟨fun _ ha => absurd ha List.not_mem_nil, fun _ _ => rfl⟩

theorem Pointwise.cons [DecidableEq K] {a : α} {mid : K → V}
    (hmid : ∀ k, mid k = if k = key a then value a (before k) else before k)
    (hne : ∀ x ∈ l, key x ≠ key a) (h : Pointwise key value l mid after) :
    Pointwise key value (a :: l) before after := by
  refine ⟨fun x hx => ?_, fun k hk => ?_⟩
  · rcases List.mem_cons.mp hx with rfl | hx
    · rw [h.kept _ hne, hmid, if_pos rfl]
    · rw [h.updated x hx, hmid, if_neg (hne x hx)]
  · obtain ⟨hka, hkl⟩ := List.forall_mem_cons.mp hk
    rw [h.kept k hkl, hmid, if_neg hka.symm]

theorem allSteps_of_distinct (answer : σ → K → V) {Q : α → V → Prop}
    (hstep : ∀ s s' a, a ∈ l → f s a = .ok s' → ∀ k, k ≠ key a → answer s' k = answer s k)
    (hnodup : (l.map key).Nodup) (hQ : ∀ a ∈ l, Q a (answer s (key a))) :
    AllSteps f (fun s a => Q a (answer s (key a))) s l := by
  induction l generalizing s with
  | nil => trivial
  | cons a l ih =>
    obtain ⟨hmem, hnodup⟩ := List.nodup_cons.mp hnodup
    refine ⟨hQ a (by simp), fun t ht => ?_⟩
    refine ih (fun u u' x hx => hstep u u' x (List.mem_cons_of_mem a hx)) hnodup ?_
    intro x hx
    have hne : key x ≠ key a := fun heq => hmem (heq ▸ List.mem_map_of_mem hx)
    rw [hstep s t a (by simp) ht _ hne]
    exact hQ x (List.mem_cons_of_mem a hx)

theorem allSteps_map {β : Type} {f : σ → β → Except ε σ} {P : σ → β → Prop} {g : α → β}
    (h : AllSteps (fun s a => f s (g a)) (fun s a => P s (g a)) s l) :
    AllSteps f P s (l.map g) := by
  induction l generalizing s with
  | nil => trivial
  | cons a l ih => exact ⟨h.1, fun s' hs' => ih (h.2 s' hs')⟩

theorem pointwise_of_foldlM_eq_ok [DecidableEq K] (answer : σ → K → V) (value : α → V → V)
    (P : α → V → Prop)
    (hstep : ∀ s s' a, a ∈ l → f s a = .ok s' → P a (answer s (key a)) ∧
      ∀ k, answer s' k = if k = key a then value a (answer s k) else answer s k)
    (hnodup : (l.map key).Nodup) {s' : σ} (hrun : l.foldlM f s = .ok s') :
    (∀ a ∈ l, P a (answer s (key a))) ∧ Pointwise key value l (answer s) (answer s') := by
  induction l generalizing s with
  | nil =>
    rw [foldlM_nil_eq_ok] at hrun
    subst hrun
    exact ⟨fun a ha => absurd ha (by simp), .nil _⟩
  | cons a l ih =>
    obtain ⟨hmem, hnodup⟩ := List.nodup_cons.mp hnodup
    obtain ⟨t, hfa, hrest⟩ := foldlM_cons_eq_ok.mp hrun
    obtain ⟨hPa, hanswer⟩ := hstep s t a (by simp) hfa
    have hne : ∀ x ∈ l, key x ≠ key a := fun x hx heq => hmem (heq ▸ List.mem_map_of_mem hx)
    obtain ⟨hP, hpoint⟩ :=
      ih (fun u u' x hx => hstep u u' x (List.mem_cons_of_mem a hx)) hnodup hrest
    refine ⟨List.forall_mem_cons.mpr ⟨hPa, fun x hx => ?_⟩, .cons hanswer hne hpoint⟩
    have hx' := hP x hx
    rwa [hanswer, if_neg (hne x hx)] at hx'

/-- A loop over distinct keys whose body succeeds on acceptable values. -/
theorem foldlM_pointwise [DecidableEq K] (answer : σ → K → V) (value : α → V → V) (P : α → V → Prop)
    (hstep : ∀ s a, a ∈ l → P a (answer s (key a)) → ∃ s', f s a = .ok s' ∧
      ∀ k, answer s' k = if k = key a then value a (answer s k) else answer s k)
    (hnodup : (l.map key).Nodup) (hP : ∀ a ∈ l, P a (answer s (key a))) :
    AllSteps f (fun s a => P a (answer s (key a))) s l ∧
      ∃ s', l.foldlM f s = .ok s' ∧ Pointwise key value l (answer s) (answer s') := by
  induction l generalizing s with
  | nil => exact ⟨trivial, s, rfl, .nil _⟩
  | cons a l ih =>
    obtain ⟨hmem, hnodup⟩ := List.nodup_cons.mp hnodup
    obtain ⟨t, hfa, hanswer⟩ := hstep s a (by simp) (hP a (by simp))
    -- the later keys are other keys, so their values are still the initial ones
    have hne : ∀ x ∈ l, key x ≠ key a := fun x hx heq => hmem (heq ▸ List.mem_map_of_mem hx)
    have hPt : ∀ x ∈ l, P x (answer t (key x)) := by
      intro x hx
      rw [hanswer, if_neg (hne x hx)]
      exact hP x (List.mem_cons_of_mem a hx)
    obtain ⟨hall, s', hrest, hpoint⟩ :=
      ih (fun u x hx => hstep u x (List.mem_cons_of_mem a hx)) hnodup hPt
    refine ⟨⟨hP a (by simp), fun t' ht' => ?_⟩, s', foldlM_cons_eq_ok.mpr ⟨t, hfa, hrest⟩,
      .cons hanswer hne hpoint⟩
    rw [hfa] at ht'
    cases ht'
    exact hall

end ExceptFold

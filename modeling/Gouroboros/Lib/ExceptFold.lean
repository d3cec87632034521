import Mathlib.Data.List.Induction

/-!
# Folds that may stop with an error

A loop whose body may return early with an error is a `foldlM` in `Except`.
Two rules carry the proofs about such loops:

* `foldlM_invariant`, with `foldlM_visited` for what depends on the elements
  visited so far;
* `foldlM_sim` for two loops over the same list in lockstep.
-/

namespace ExceptFold

variable {ε ε' α σ τ : Type}

variable {x : Except ε α}

@[grind =] theorem bind_eq_ok {β : Type} {f : α → Except ε β} {b : β} :
    (x >>= f) = .ok b ↔ ∃ a, x = .ok a ∧ f a = .ok b := by
  cases x with
  | error | ok => simp [bind, Except.bind]

theorem ok_bind {β : Type} (a : α) (f : α → Except ε β) : (Except.ok a >>= f) = f a := rfl

theorem seq_eq_ok {β : Type} {x : Except ε Unit} {f : Unit → Except ε β} {b : β} :
    (x >>= f) = .ok b ↔ x = .ok () ∧ f () = .ok b := by
  rw [bind_eq_ok]
  constructor
  · rintro ⟨⟨⟩, hx, hf⟩
    exact ⟨hx, hf⟩
  · rintro ⟨hx, hf⟩
    exact ⟨(), hx, hf⟩

theorem guard_eq_ok {p : Prop} [Decidable p] {e : ε} {a : α} :
    (if p then .error e else x) = .ok a ↔ ¬ p ∧ x = .ok a := by
  by_cases h : p <;> simp [h]

@[grind =] theorem mapError_eq_ok {ε' : Type} {f : ε → ε'} {a : α} :
    x.mapError f = .ok a ↔ x = .ok a := by
  cases x with
  | error | ok => simp [Except.mapError]

/-! ### Comparing two computations -/

theorem map_bind {β γ : Type} (x : Except ε α) (f : α → Except ε β) (g : β → γ) :
    (x >>= f).map g = x >>= fun a => (f a).map g := by
  cases x with
  | error e => rfl
  | ok a => rfl

theorem map_guard {β : Type} {p : Prop} [Decidable p] (e : ε) (x : Except ε α) (g : α → β) :
    (if p then .error e else x).map g = if p then .error e else x.map g := by
  split
  · rfl
  · rfl

theorem bind_congr {β : Type} {f g : α → Except ε β} (h : ∀ a, f a = g a) : x >>= f = x >>= g :=
  congrArg (x >>= ·) (funext h)

theorem guard_congr {p q : Prop} [Decidable p] [Decidable q] {e : ε} {y : Except ε α} (hpq : p ↔ q)
    (h : ¬ p → x = y) : (if p then .error e else x) = if q then .error e else y := by
  by_cases hp : p
  · rw [if_pos hp, if_pos (hpq.mp hp)]
  · rw [if_neg hp, if_neg fun hq => hp (hpq.mpr hq), h hp]

theorem bind_map_congr {β γ : Type} {v : σ → β} {w : τ → γ} {x x' : Except ε σ}
    {f f' : σ → Except ε τ}
    (h : x.map v = x'.map v) (hf : ∀ t t', v t = v t' → (f t).map w = (f' t').map w) :
    (x >>= f).map w = (x' >>= f').map w := by
  cases x with
  | error e =>
    cases x' with
    | error e' => exact congrArg Except.error (Except.error.inj h)
    | ok t' => cases h
  | ok t =>
    cases x' with
    | error e' => cases h
    | ok t' => exact hf t t' (Except.ok.inj h)

theorem map_mapError {ε' β : Type} (x : Except ε α) (f : α → β) (g : ε → ε') :
    (x.map f).mapError g = (x.mapError g).map f := by
  cases x with
  | error e => rfl
  | ok a => rfl

variable {f : σ → α → Except ε σ} {s s' : σ} {l : List α}

@[grind =] theorem foldlM_cons_eq_ok {a : α} :
    (a :: l).foldlM f s = .ok s' ↔ ∃ t, f s a = .ok t ∧ l.foldlM f t = .ok s' := by
  exact bind_eq_ok

@[simp, grind =] theorem foldlM_nil_eq_ok : ([] : List α).foldlM f s = .ok s' ↔ s = s' := by
  simp [pure, Except.pure]

theorem forM_eq_ok {f : α → Except ε Unit} : l.forM f = .ok () ↔ ∀ a ∈ l, f a = .ok () := by
  induction l with
  | nil => simp [pure, Except.pure]
  | cons a l ih =>
    rw [List.forM_eq_forM, List.forM_cons, bind_eq_ok, ← List.forM_eq_forM, ih]
    constructor
    · rintro ⟨⟨⟩, ha, hl⟩
      simpa [ha] using hl
    · intro h
      exact ⟨(), h a (by simp), fun x hx => h x (by simp [hx])⟩

theorem mapM_eq_ok_map {β : Type} {f : α → Except ε β} {g : α → β}
    (h : ∀ a ∈ l, f a = .ok (g a)) : l.mapM f = .ok (l.map g) := by
  induction l with
  | nil => rfl
  | cons a l ih =>
    rw [List.mapM_cons, h a (by simp), ih fun x hx => h x (List.mem_cons_of_mem a hx)]
    rfl

/-- What every accepted step preserves holds at the end of an accepted run. -/
theorem foldlM_invariant (P : σ → Prop) (hstep : ∀ t t' a, a ∈ l → P t → f t a = .ok t' → P t')
    (hs : P s) (hrun : l.foldlM f s = .ok s') : P s' := by
  induction l generalizing s with
  | nil =>
    rw [foldlM_nil_eq_ok] at hrun
    exact hrun ▸ hs
  | cons a l ih =>
    obtain ⟨t, hfa, hrest⟩ := foldlM_cons_eq_ok.mp hrun
    have ht : P t := hstep s t a (by simp) hs hfa
    exact ih (fun u u' b hb => hstep u u' b (by simp [hb])) ht hrest

theorem foldlM_visited {P : List α → σ → Prop}
    (hstep : ∀ visited a t t', visited ++ [a] <+: l → P visited t → f t a = .ok t' →
      P (visited ++ [a]) t') (hs : P [] s) (hrun : l.foldlM f s = .ok s') : P l s' := by
  induction l using List.reverseRecOn generalizing s' with
  | nil =>
    rw [foldlM_nil_eq_ok] at hrun
    exact hrun ▸ hs
  | append_singleton l a ih =>
    rw [List.foldlM_append] at hrun
    obtain ⟨t, hfirst, hlast⟩ := bind_eq_ok.mp hrun
    obtain ⟨t', hfa, hnil⟩ := foldlM_cons_eq_ok.mp hlast
    rw [foldlM_nil_eq_ok] at hnil
    have ht : P l t := by
      refine ih (fun visited b u u' hvisited => hstep visited b u u' ?_) hfirst
      exact hvisited.trans (List.prefix_append _ _)
    exact hnil ▸ hstep l a t t' (List.prefix_refl _) ht hfa

theorem foldl_visited {g : σ → α → σ} {P : List α → σ → Prop}
    (hstep : ∀ visited a t, visited ++ [a] <+: l → P visited t → P (visited ++ [a]) (g t a))
    (hs : P [] s) : P l (l.foldl g s) := by
  have hrun : l.foldlM (fun t a => (.ok (g t a) : Except Unit σ)) s = .ok (l.foldl g s) :=
    List.foldlM_pure
  refine foldlM_visited (fun visited a t t' hvisited ht hstep' => ?_) hs hrun
  rw [← Except.ok.inj hstep']
  exact hstep visited a t hvisited ht

theorem not_mem_visited {visited : List α} {a : α} (h : visited ++ [a] <+: l) (hl : l.Nodup) :
    a ∉ visited := by
  have hnodup := hl.sublist h.sublist
  rw [List.nodup_append] at hnodup
  exact fun ha => hnodup.2.2 a ha a List.mem_cons_self rfl

theorem foldlM_map_congr {β : Type} {v : σ → β}
    (hstep : ∀ t t' a, v t = v t' → (f t a).map v = (f t' a).map v) (h : v s = v s') :
    (l.foldlM f s).map v = (l.foldlM f s').map v := by
  induction l generalizing s s' with
  | nil => exact congrArg Except.ok h
  | cons a l ih => exact bind_map_congr (hstep s s' a h) fun _ _ => ih

/-- Two loops in lockstep: when related states accept the same element and stay related, either
loop's acceptance gives the other's. -/
theorem foldlM_sim {g : τ → α → Except ε' τ} (R : σ → τ → Prop) {t : τ}
    (hstep : ∀ u u' v a, a ∈ l → R u v → f u a = .ok u' → ∃ v', g v a = .ok v' ∧ R u' v')
    (hR : R s t) (hrun : l.foldlM f s = .ok s') : ∃ t', l.foldlM g t = .ok t' ∧ R s' t' := by
  induction l generalizing s t with
  | nil =>
    rw [foldlM_nil_eq_ok] at hrun
    exact ⟨t, rfl, hrun ▸ hR⟩
  | cons a l ih =>
    obtain ⟨u, hfa, hrest⟩ := foldlM_cons_eq_ok.mp hrun
    obtain ⟨v, hgv, hRv⟩ := hstep s u t a (by simp) hR hfa
    obtain ⟨t', hgl, hRt⟩ := ih (fun x x' y b hb => hstep x x' y b (by simp [hb])) hRv hrest
    exact ⟨t', foldlM_cons_eq_ok.mpr ⟨v, hgv, hgl⟩, hRt⟩

end ExceptFold

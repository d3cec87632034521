import Gouroboros.Lib.ExceptFold
import Gouroboros.Lib.GoMap

/-!
# Maps of maps

A map whose values are maps, read and written under pairs of keys. Values that cannot be told apart
by a lookup may differ in inner maps that are empty.
-/

namespace GoMap

variable {K L V W : Type}

/-! ## Counting keys -/

theorem keys_subset_of_length_eq {a : GoMap K V} {b : GoMap K W} (hsub : a.keys ⊆ b.keys)
    (hlength : a.keys.length = b.keys.length) : b.keys ⊆ a.keys := by
  intro k hk
  have hperm := (List.subperm_of_subset a.keys_nodup hsub).perm_of_length_le hlength.ge
  exact hperm.mem_iff.mpr hk

theorem keys_length_eq {a : GoMap K V} {b : GoMap K W} (h : ∀ k, k ∈ a.keys ↔ k ∈ b.keys) :
    a.keys.length = b.keys.length :=
  ((List.perm_ext_iff_of_nodup a.keys_nodup b.keys_nodup).mpr h).length_eq

/-! ## Pairs of keys -/

def toPairs₂ (m : GoMap K (GoMap L V)) : List ((K × L) × V) :=
  m.toPairs.flatMap fun outer => outer.2.toPairs.map fun inner => ((outer.1, inner.1), inner.2)

def mapVals₂ (f : V → W) (m : GoMap K (GoMap L V)) : GoMap K (GoMap L W) := m.mapVals (·.mapVals f)

theorem toPairs₂_mapVals₂ (f : V → W) (m : GoMap K (GoMap L V)) :
    (m.mapVals₂ f).toPairs₂ = m.toPairs₂.map fun e => (e.1, f e.2) := by
  simp [toPairs₂, mapVals₂, toPairs, mapVals, List.flatMap_map, List.map_flatMap, Function.comp_def]

variable [DecidableEq K] [DecidableEq L] {m : GoMap K (GoMap L V)}

def lookup₂ (m : GoMap K (GoMap L V)) (k : K × L) : Option V := (m.lookup k.1).bind (·.lookup k.2)

/-- A write under both keys, into a new inner map where there was none. -/
def insert₂ (m : GoMap K (GoMap L V)) (k : K × L) (v : V) : GoMap K (GoMap L V) :=
  m.insert k.1 (((m.lookup k.1).getD ∅).insert k.2 v)

theorem lookup₂_insert₂ (m : GoMap K (GoMap L V)) (k k' : K × L) (v : V) :
    (m.insert₂ k v).lookup₂ k' = if k' = k then some v else m.lookup₂ k' := by
  unfold lookup₂ insert₂
  rw [lookup_insert_ite]
  by_cases hk : k'.1 = k.1
  · rw [if_pos hk, Option.bind_some, lookup_insert_ite, hk]
    cases m.lookup k.1 <;> simp [Prod.ext_iff, hk]
  · simp [Prod.ext_iff, hk]

theorem mem_toPairs₂ {k : K × L} {v : V} : (k, v) ∈ m.toPairs₂ ↔ m.lookup₂ k = some v := by
  unfold toPairs₂ lookup₂
  rw [List.mem_flatMap, Option.bind_eq_some_iff]
  constructor
  · rintro ⟨outer, houter, h⟩
    rcases List.mem_map.mp h with ⟨inner, hinner, heq⟩
    cases heq
    exact ⟨outer.2, lookup_of_mem_toPairs houter, lookup_of_mem_toPairs hinner⟩
  · rintro ⟨names, houter, hinner⟩
    exact ⟨_, mem_toPairs_of_lookup houter, List.mem_map.mpr ⟨_, mem_toPairs_of_lookup hinner, rfl⟩⟩

theorem sum_toPairs₂_ite (m : GoMap K (GoMap L V)) (k : K × L) (f : V → Int) :
    (m.toPairs₂.map fun e => if k = e.1 then f e.2 else 0).sum =
      ((m.lookup₂ k).map f).getD 0 := by
  have hinner : ∀ outer : K × GoMap L V,
      ((outer.2.toPairs.map fun inner => ((outer.1, inner.1), inner.2)).map fun e =>
        if k = e.1 then f e.2 else 0).sum =
      if k.1 = outer.1 then ((outer.2.lookup k.2).map f).getD 0 else 0 := by
    intro outer
    rw [← sum_toPairs_ite]
    by_cases hk : k.1 = outer.1 <;> simp [Prod.ext_iff, hk, Function.comp_def]
  rw [toPairs₂, List.map_flatMap, List.flatMap_def, List.sum_flatten, List.map_map]
  simp only [Function.comp_def, hinner]
  rw [sum_toPairs_ite m k.1 fun inner => ((inner.lookup k.2).map f).getD 0, lookup₂]
  cases m.lookup k.1 <;> rfl

/-! ## A function on all values -/

theorem lookup₂_mapVals₂ (f : V → W) (k : K × L) : (m.mapVals₂ f).lookup₂ k = (m.lookup₂ k).map f := by
  unfold lookup₂ mapVals₂
  rw [lookup_mapVals]
  cases m.lookup k.1 <;> simp

theorem mapVals₂_congr {f g : V → W} (h : ∀ k v, m.lookup₂ k = some v → f v = g v) :
    m.mapVals₂ f = m.mapVals₂ g := by
  refine mapVals_congr fun k names hk => mapVals_congr fun l v hl => h (k, l) v ?_
  rw [lookup₂, hk, Option.bind_some, hl]

theorem mapVals₂_insert₂ (f : V → W) (k : K × L) (v : V) :
    (m.insert₂ k v).mapVals₂ f = (m.mapVals₂ f).insert₂ k (f v) := by
  unfold mapVals₂ insert₂
  rw [mapVals_insert, mapVals_insert, lookup_mapVals]
  cases m.lookup k.1 <;> rfl

/-! ## Values left out -/

def enterUnless (out : V → Bool) (ret : GoMap K (GoMap L V)) (e : (K × L) × V) : GoMap K (GoMap L V) :=
  if out e.2 then ret else ret.insert₂ e.1 e.2

/-- The values that are not left out, entered one by one. -/
def without₂ (out : V → Bool) (m : GoMap K (GoMap L V)) : GoMap K (GoMap L V) :=
  m.toPairs₂.foldl (enterUnless out) ∅

/-- After the entries `done` of `m`: their values are found unless they are left out, and every inner
map has one. -/
structure Entered (out : V → Bool) (m : GoMap K (GoMap L V)) (done : List ((K × L) × V))
    (ret : GoMap K (GoMap L V)) : Prop where
  found : ∀ k, ret.lookup₂ k =
    if k ∈ done.map Prod.fst then (m.lookup₂ k).filter fun v => !out v else none
  nonempty : ∀ k inner, ret.lookup k = some inner → ∃ l, l ∈ inner.keys

theorem Entered.step {out : V → Bool} {done : List ((K × L) × V)} {ret : GoMap K (GoMap L V)}
    (h : Entered out m done ret) {e : (K × L) × V} (he : e ∈ m.toPairs₂) :
    Entered out m (done ++ [e]) (enterUnless out ret e) := by
  have hfound := mem_toPairs₂.mp he
  have hmem : ∀ k, k ≠ e.1 → (k ∈ done.map Prod.fst ↔ k ∈ (done ++ [e]).map Prod.fst) := by
    intro k hk
    simp [hk]
  unfold enterUnless
  cases hout : out e.2 with
  | true =>
    refine ⟨fun k => ?_, h.nonempty⟩
    by_cases hk : k = e.1
    · simp [hk, h.found, hfound, hout, Option.filter]
    · exact (h.found k).trans (if_congr (hmem k hk) rfl rfl)
  | false =>
    refine ⟨fun k => ?_, fun k inner hk => ?_⟩
    · by_cases hk : k = e.1
      · simp [hk, lookup₂_insert₂, hfound, hout, Option.filter]
      · rw [if_neg Bool.false_ne_true, lookup₂_insert₂, if_neg hk]
        exact (h.found k).trans (if_congr (hmem k hk) rfl rfl)
    · simp only [Bool.false_eq_true, if_false, insert₂, lookup_insert_ite] at hk
      split at hk
      · cases hk
        exact ⟨e.1.2, mem_keys_iff.mpr ⟨_, AList.lookup_insert _⟩⟩
      · exact h.nonempty k inner hk

theorem entered_without₂ (out : V → Bool) (m : GoMap K (GoMap L V)) :
    Entered out m m.toPairs₂ (m.without₂ out) := by
  refine ExceptFold.foldl_visited (fun done e ret hdone h => h.step ?_) ⟨fun _ => rfl, nofun⟩
  exact hdone.subset (List.mem_append_right _ (List.mem_singleton_self e))

theorem lookup₂_without₂ (out : V → Bool) (k : K × L) :
    (m.without₂ out).lookup₂ k = (m.lookup₂ k).filter fun v => !out v := by
  rw [(entered_without₂ out m).found]
  split
  next => rfl
  next hk =>
    cases hlookup : m.lookup₂ k with
    | none => rfl
    | some v => exact absurd (List.mem_map.mpr ⟨_, mem_toPairs₂.mpr hlookup, rfl⟩) hk

end GoMap

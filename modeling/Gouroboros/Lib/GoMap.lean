import Mathlib.Algebra.BigOperators.Group.List.Basic
import Mathlib.Data.List.AList
import Mathlib.Tactic.Abel

/-!
# Finite maps with an iteration order

A map of an imperative program is modelled by an association list without
repeated keys. Lookups do not depend on the order of the entries; a loop over
the map visits the entries in list order, so a statement about every
association list is a statement about every iteration order. Where two loops
over one map may differ, the order is an argument (`RangeOrder`).
-/

/-- A finite map from `K` to `V` with a fixed iteration order. -/
abbrev GoMap (K V : Type) := AList fun _ : K => V

namespace GoMap

variable {K V : Type}

def toPairs (m : GoMap K V) : List (K × V) := m.entries.map fun e => (e.1, e.2)

def values (m : GoMap K V) : List V := m.entries.map fun e => e.2

def mapVals {W : Type} (f : V → W) (m : GoMap K V) : GoMap K W where
  entries := m.entries.map fun e => ⟨e.1, f e.2⟩
  nodupKeys := by
    have h := m.nodupKeys
    rw [List.NodupKeys, List.keys] at h ⊢
    simpa [List.map_map, Function.comp_def] using h

@[simp] theorem values_mapVals {W : Type} (f : V → W) (m : GoMap K V) :
    (m.mapVals f).values = m.values.map f := by
  simp [values, mapVals]

theorem toPairs_fst_nodup (m : GoMap K V) : (m.toPairs.map Prod.fst).Nodup := by
  have h : m.toPairs.map Prod.fst = m.keys := by
    simp [toPairs, AList.keys, List.keys, List.map_map, Function.comp_def]
  rw [h]
  exact m.keys_nodup

variable [DecidableEq K]

@[grind =] theorem lookup_insert_ite (m : GoMap K V) (k k' : K) (v : V) :
    (m.insert k v).lookup k' = if k' = k then some v else m.lookup k' := by
  by_cases h : k' = k
  · subst h
    simp
  · simp [AList.lookup_insert_ne h, h]

@[simp] theorem lookup_mapVals {W : Type} (f : V → W) (m : GoMap K V) (k : K) :
    (m.mapVals f).lookup k = (m.lookup k).map f :=
  List.dlookup_map₂ (f := fun _ => f) k

theorem mapVals_insert {W : Type} (f : V → W) (m : GoMap K V) (k : K) (v : V) :
    mapVals f (m.insert k v) = (m.mapVals f).insert k (f v) := by
  apply AList.ext
  simp [mapVals, AList.entries_insert, List.kerase, List.eraseP_map, Function.comp_def]

variable {m : GoMap K V}

theorem mapVals_congr {W : Type} {f g : V → W} (h : ∀ k v, m.lookup k = some v → f v = g v) :
    m.mapVals f = m.mapVals g := by
  apply AList.ext
  apply List.map_congr_left
  intro e he
  rw [h e.1 e.2 (AList.mem_lookup_iff.mpr he)]

@[grind =] theorem lookup_erase_ite (m : GoMap K V) (k k' : K) :
    (m.erase k).lookup k' = if k' = k then none else m.lookup k' := by
  by_cases h : k' = k
  · subst h
    simp
  · simp [AList.lookup_erase_ne h, h]

theorem lookup_of_mem_toPairs {k : K} {v : V} (h : (k, v) ∈ m.toPairs) : m.lookup k = some v := by
  obtain ⟨e, he, heq⟩ := List.mem_map.mp h
  obtain ⟨rfl, rfl⟩ := Prod.mk.inj heq
  exact AList.mem_lookup_iff.mpr he

theorem mem_toPairs_of_lookup {k : K} {v : V} (h : m.lookup k = some v) : (k, v) ∈ m.toPairs :=
  List.mem_map.mpr ⟨⟨k, v⟩, AList.mem_lookup_iff.mp h, rfl⟩

/-! ## Loops in any order -/

/-- The order in which one loop visits the entries of a map: any permutation of them. -/
structure RangeOrder (K V : Type) where
  visit : List (K × V) → List (K × V)
  perm : ∀ entries, (visit entries).Perm entries

def range (m : GoMap K V) (order : RangeOrder K V) : List (K × V) := order.visit m.toPairs

theorem mem_range_iff {order : RangeOrder K V} {k : K} {v : V} :
    (k, v) ∈ m.range order ↔ m.lookup k = some v := by
  rw [range, (order.perm _).mem_iff]
  exact ⟨lookup_of_mem_toPairs, mem_toPairs_of_lookup⟩

/-- Loops over maps with the same entries visit the same, whatever their orders. -/
theorem range_perm {m' : GoMap K V} (h : ∀ k, m.lookup k = m'.lookup k)
    (order order' : RangeOrder K V) : (m.range order).Perm (m'.range order') := by
  have hentries : m.entries.Perm m'.entries := by
    apply List.lookup_ext m.nodupKeys m'.nodupKeys
    intro k v
    change m.lookup k = some v ↔ m'.lookup k = some v
    rw [h]
  exact (order.perm _).trans ((hentries.map _).trans (order'.perm _).symm)

/-! ## One entry written -/

/-- The map `m'` is `m` with one entry written. -/
def Writes (m m' : GoMap K V) (k : K) (v : V) : Prop :=
  ∀ c, m'.lookup c = if c = k then some v else m.lookup c

section Writes

variable {m m' : GoMap K V} {k : K} {v : V}

theorem writes_insert (m : GoMap K V) (k : K) (v : V) : Writes m (m.insert k v) k v :=
  fun c => lookup_insert_ite m k c v

theorem Writes.of_lookup (h : m.lookup k = some v) : Writes m m k v := by
  intro c
  split
  next hc => rw [hc, h]
  next => rfl

theorem Writes.trans {m'' : GoMap K V} {v' : V} (h₁ : Writes m m' k v)
    (h₂ : Writes m' m'' k v') : Writes m m'' k v' := by
  intro c
  rw [h₂, h₁]
  split <;> rfl

end Writes

/-! ## Sums over the entries -/

theorem sum_toPairs_ite (m : GoMap K V) (k : K) (f : V → Int) :
    (m.toPairs.map fun e => if k = e.1 then f e.2 else 0).sum = ((m.lookup k).map f).getD 0 := by
  obtain ⟨l, hl⟩ := m
  unfold toPairs AList.lookup
  induction l with
  | nil => simp
  | cons e l ih =>
    obtain ⟨k', v⟩ := e
    obtain ⟨hnot, hl⟩ := List.nodupKeys_cons.mp hl
    rw [List.map_cons, List.map_cons, List.sum_cons, ih hl]
    by_cases hk : k = k'
    · subst hk
      rw [List.dlookup_cons_eq, List.dlookup_eq_none.mpr hnot]
      simp
    · simp [hk]

theorem mem_keys_iff {k : K} : k ∈ m.keys ↔ ∃ v, m.lookup k = some v := by
  rw [← AList.mem_keys, ← AList.lookup_isSome, Option.isSome_iff_exists]

theorem sum_values_eq {M : Type} [AddCommMonoid M] (m : GoMap K V) (f : V → M) {ids : List K}
    (hids : ids.Perm m.keys) :
    (m.values.map f).sum = (ids.map fun k => ((m.lookup k).map f).getD 0).sum := by
  rw [(hids.map _).sum_eq]
  have hentries : m.values.map f = m.keys.map fun k => ((m.lookup k).map f).getD 0 := by
    unfold values AList.keys List.keys
    rw [List.map_map, List.map_map]
    apply List.map_congr_left
    intro e he
    have hlookup : m.lookup e.1 = some e.2 := AList.mem_lookup_iff.mpr he
    simp [hlookup]
  rw [hentries]

theorem sum_values_insert_new {M : Type} [AddCommMonoid M] {k : K} (hnew : m.lookup k = none)
    (v : V) (f : V → M) : ((values (m.insert k v)).map f).sum = f v + (m.values.map f).sum := by
  rw [values, AList.insert_of_notMem (AList.lookup_eq_none.mp hnew)]
  rfl

theorem sum_values_insert {M : Type} [AddCommGroup M] (m : GoMap K V) (k : K) (v : V) (f : V → M) :
    ((values (m.insert k v)).map f).sum =
      (m.values.map f).sum - ((m.lookup k).map f).getD 0 + f v := by
  have hkeys : (k :: m.keys.erase k).Perm (m.insert k v).keys := by rw [AList.keys_insert]
  have hrest : (m.keys.erase k).map (fun c => (((m.insert k v).lookup c).map f).getD 0) =
      (m.keys.erase k).map fun c => ((m.lookup c).map f).getD 0 := by
    refine List.map_congr_left fun c hc => ?_
    rw [lookup_insert_ite, if_neg (m.keys_nodup.mem_erase_iff.mp hc).1]
  rw [sum_values_eq _ f hkeys, List.map_cons, List.sum_cons, hrest, AList.lookup_insert]
  by_cases hk : k ∈ m.keys
  · rw [sum_values_eq m f (List.perm_cons_erase hk).symm, List.map_cons, List.sum_cons]
    simp only [Option.map_some, Option.getD_some]
    abel
  · rw [sum_values_eq m f (.refl _), List.erase_of_not_mem hk, AList.lookup_eq_none.mpr hk]
    simp only [Option.map_some, Option.map_none, Option.getD_some, Option.getD_none]
    abel

end GoMap

import Gouroboros.Ledger.Dijkstra.Batch

/-!
# Multi-asset values as a group

A `MultiAsset` is read as the function from assets to quantities, zero where it has no entry, a nil
one or a zero. `Add` adds these functions, and `Compare` decides their equality, although it counts
the entries of normalised maps and compares those of one side with the raw map of the other.

The quantities are pointers, and maps may share them. So `Add` is first a function on a heap of big
integers, to which it only appends; what it leaves reads as the sum of the values (`add_refines`).
Its receiver is another map than its argument.
-/

namespace Gouroboros.Ledger

open Conway (assetQuantity AssetKey)

namespace MultiAsset

/-! ## Comparing values -/

def amountIsZero : Option Int → Bool
  | none => true
  | some amount => amount = 0

def amountsEqual : Option Int → Option Int → Bool
  | none, none => true
  | none, some b => b = 0
  | some a, none => a = 0
  | some a, some b => a = b

def normalize (m : MultiAsset) : GoMap Blake2b224 (GoMap ByteString (Option Int)) :=
  m.data.without₂ amountIsZero

def compare (m assets : MultiAsset) : Bool :=
  let tmpData := m.normalize
  let otherData := assets.normalize
  if otherData.keys.length ≠ tmpData.keys.length then false
  else otherData.toPairs.all fun policy =>
    policy.2.keys.length = ((tmpData.lookup policy.1).getD ∅).keys.length &&
      policy.2.toPairs.all fun asset => amountsEqual asset.2 (m.asset policy.1 asset.1)

theorem amountsEqual_iff {a b : Option Int} : amountsEqual a b ↔ a.getD 0 = b.getD 0 := by
  cases a with
  | none => cases b <;> simp [amountsEqual, eq_comm]
  | some a => cases b <;> simp [amountsEqual]

section Compare

variable {m assets : MultiAsset} {p : Blake2b224} {names : GoMap ByteString (Option Int)}

theorem lookup_normalize (key : AssetKey) : m.normalize.lookup₂ key =
    if assetQuantity (some m) key ≠ 0 then some (m.asset key.1 key.2) else none := by
  rw [normalize, GoMap.lookup₂_without₂, quantity_eq, asset_eq]
  cases m.data.lookup₂ key with
  | none => rfl
  | some amount =>
    cases amount with
    | none => rfl
    | some amount => by_cases h : amount = 0 <;> simp [Option.filter, amountIsZero, h]

theorem lookup_names (hp : m.normalize.lookup p = some names) (n : ByteString) : names.lookup n =
    if assetQuantity (some m) (p, n) ≠ 0 then some (m.asset p n) else none := by
  have h := lookup_normalize (m := m) (p, n)
  rwa [GoMap.lookup₂, hp, Option.bind_some] at h

theorem mem_names_iff (hp : m.normalize.lookup p = some names) (n : ByteString) :
    n ∈ names.keys ↔ assetQuantity (some m) (p, n) ≠ 0 := by
  rw [GoMap.mem_keys_iff, lookup_names hp]
  split <;> simp_all

theorem mem_policies_iff (p : Blake2b224) :
    p ∈ m.normalize.keys ↔ ∃ n, assetQuantity (some m) (p, n) ≠ 0 := by
  rw [GoMap.mem_keys_iff]
  constructor
  · rintro ⟨names, hp⟩
    rcases (GoMap.entered_without₂ amountIsZero m.data).nonempty p names hp with ⟨n, hn⟩
    exact ⟨n, (mem_names_iff hp n).mp hn⟩
  · rintro ⟨n, hne⟩
    have h := lookup_normalize (m := m) (p, n)
    rw [if_pos hne] at h
    rcases Option.bind_eq_some_iff.mp h with ⟨names, hp, -⟩
    exact ⟨names, hp⟩

theorem compare_iff :
    m.compare assets ↔ ∀ key, assetQuantity (some m) key = assetQuantity (some assets) key := by
  unfold compare
  dsimp only
  constructor
  · intro h key
    split at h
    · cases h
    next hlength =>
    rw [not_not] at hlength
    simp only [List.all_eq_true, Bool.and_eq_true, decide_eq_true_eq, amountsEqual_iff] at h
    -- every entry that is left of `assets` is compared
    have hother : ∀ key, assetQuantity (some assets) key ≠ 0 →
        assetQuantity (some m) key = assetQuantity (some assets) key := by
      intro key hne
      rcases GoMap.mem_keys_iff.mp ((mem_policies_iff key.1).mpr ⟨key.2, hne⟩) with ⟨names, hp⟩
      have hn := lookup_names hp key.2
      rw [if_pos hne] at hn
      exact ((h _ (GoMap.mem_toPairs_of_lookup hp)).2 _ (GoMap.mem_toPairs_of_lookup hn)).symm
    by_contra hne
    have hm : assetQuantity (some m) key ≠ 0 := by
      intro hzero
      by_cases hassets : assetQuantity (some assets) key = 0
      · exact hne (hzero.trans hassets.symm)
      · exact hne (hother key hassets)
    have hsub : assets.normalize.keys ⊆ m.normalize.keys := by
      intro p hp
      rcases (mem_policies_iff p).mp hp with ⟨n, hn⟩
      exact (mem_policies_iff p).mpr ⟨n, by rwa [hother _ hn]⟩
    -- and as many are left of `m`
    have hkey := GoMap.keys_subset_of_length_eq hsub hlength ((mem_policies_iff key.1).mpr ⟨key.2, hm⟩)
    rcases GoMap.mem_keys_iff.mp hkey with ⟨names, hp⟩
    rcases GoMap.mem_keys_iff.mp (hsub hkey) with ⟨names', hp'⟩
    have hcount := (h _ (GoMap.mem_toPairs_of_lookup hp)).1
    rw [hp', Option.getD_some] at hcount
    have hnames : names.keys ⊆ names'.keys := by
      intro n hn
      have hn := (mem_names_iff hp n).mp hn
      exact (mem_names_iff hp' n).mpr (by rwa [hother _ hn])
    have hn := GoMap.keys_subset_of_length_eq hnames hcount ((mem_names_iff hp' key.2).mpr hm)
    exact hne (hother key ((mem_names_iff hp key.2).mp hn))
  · intro h
    have hkeys : ∀ p, p ∈ assets.normalize.keys ↔ p ∈ m.normalize.keys := by
      intro p
      rw [mem_policies_iff, mem_policies_iff]
      simp only [h]
    rw [if_neg (not_not.mpr (GoMap.keys_length_eq hkeys))]
    simp only [List.all_eq_true, Bool.and_eq_true, decide_eq_true_eq, amountsEqual_iff]
    intro policy hpolicy
    have hp := GoMap.lookup_of_mem_toPairs hpolicy
    rcases GoMap.mem_keys_iff.mp ((hkeys _).mp (GoMap.mem_keys_iff.mpr ⟨_, hp⟩)) with ⟨names, hp'⟩
    rw [hp', Option.getD_some]
    constructor
    · refine GoMap.keys_length_eq fun n => ?_
      rw [mem_names_iff hp, mem_names_iff hp', h]
    · intro asset hasset
      have hn := GoMap.lookup_of_mem_toPairs hasset
      rw [lookup_names hp] at hn
      split at hn
      · rw [← Option.some.inj hn]
        exact (h (policy.1, asset.1)).symm
      · cases hn

end Compare

/-! ## Sums of values -/

def neg (m : MultiAsset) : MultiAsset := ⟨m.data.mapVals₂ (·.map Neg.neg)⟩

theorem quantity_neg (m : MultiAsset) (key : AssetKey) :
    assetQuantity (some m.neg) key = -assetQuantity (some m) key := by
  rw [quantity_eq, quantity_eq, neg, GoMap.lookup₂_mapVals₂]
  rcases m.data.lookup₂ key with - | - | amount <;> rfl

/-- A way of folding `Add` over values. -/
inductive Fold where
  | value (m : MultiAsset)
  | add (receiver argument : Fold)

namespace Fold

def values : Fold → List MultiAsset
  | value m => [m]
  | add receiver argument => receiver.values ++ argument.values

def result : Fold → MultiAsset
  | value m => m
  | add receiver argument => receiver.result.add argument.result

theorem quantity_result (fold : Fold) (key : AssetKey) : assetQuantity (some fold.result) key =
    (fold.values.map fun m => assetQuantity (some m) key).sum := by
  induction fold with
  | value m => simp [values, result]
  | add receiver argument ihr iha =>
    rw [result, values, Dijkstra.asset_add, ihr, iha, List.map_append, List.sum_append]

end Fold

end MultiAsset

/-! ## Shared quantities -/

/-- The big integers allocated so far; a pointer is a position. -/
abbrev Heap := List Int

/-- A value as the code has it: its quantities are pointers, possibly nil. -/
structure PointerAssets where
  data : GoMap Blake2b224 (GoMap ByteString (Option Nat))

namespace PointerAssets

def amount (heap : Heap) (pointer : Option Nat) : Option Int := pointer.bind (heap[·]?)

def read (heap : Heap) (m : PointerAssets) : MultiAsset := ⟨m.data.mapVals₂ (amount heap)⟩

/-- One quantity added. `addAmounts` allocates the sum and writes to neither of its operands. -/
def addQuantity (s : Heap × PointerAssets) (entry : AssetKey × Option Nat) : Heap × PointerAssets :=
  let (heap, m) := s
  let existing := (m.data.lookup₂ entry.1).join
  let newAmount := (amount heap existing).getD 0 + (amount heap entry.2).getD 0
  (heap ++ [newAmount], ⟨m.data.insert₂ entry.1 (some heap.length)⟩)

def add (s : Heap × PointerAssets) (assets : PointerAssets) : Heap × PointerAssets :=
  assets.data.toPairs₂.foldl addQuantity s

def Allocated (heap : Heap) (m : PointerAssets) : Prop :=
  ∀ key pointer, m.data.lookup₂ key = some (some pointer) → pointer < heap.length

theorem amount_of_prefix {heap heap' : Heap} (h : heap <+: heap') {pointer : Option Nat}
    (hp : ∀ p, pointer = some p → p < heap.length) : amount heap' pointer = amount heap pointer := by
  rcases h with ⟨more, rfl⟩
  cases pointer with
  | none => rfl
  | some p => exact List.getElem?_append_left (hp p rfl)

theorem read_of_prefix {heap heap' : Heap} {m : PointerAssets} (h : heap <+: heap')
    (hm : Allocated heap m) : m.read heap' = m.read heap := by
  refine congrArg MultiAsset.mk (GoMap.mapVals₂_congr fun key pointer hkey => ?_)
  exact amount_of_prefix h fun p hp => hm key p (hp ▸ hkey)

/-- The heap and the receiver in the middle of additions that started from `heap`. -/
def Grown (heap : Heap) (s : Heap × PointerAssets) : Prop := heap <+: s.1 ∧ Allocated s.1 s.2

theorem grown_foldl {α : Type} {heap : Heap} {step : Heap × PointerAssets → α → Heap × PointerAssets}
    {stepValue : MultiAsset → α → MultiAsset} {l : List α}
    (hstep : ∀ s, Grown heap s → ∀ a ∈ l, Grown heap (step s a) ∧
      (step s a).2.read (step s a).1 = stepValue (s.2.read s.1) a)
    {s : Heap × PointerAssets} (hs : Grown heap s) :
    Grown heap (l.foldl step s) ∧
      (l.foldl step s).2.read (l.foldl step s).1 = l.foldl stepValue (s.2.read s.1) := by
  induction l generalizing s with
  | nil => exact ⟨hs, rfl⟩
  | cons a l ih =>
    have hfirst := hstep s hs a List.mem_cons_self
    rw [List.foldl_cons, List.foldl_cons, ← hfirst.2]
    exact ih (fun s hs a ha => hstep s hs a (List.mem_cons_of_mem _ ha)) hfirst.1

theorem grown_addQuantity {heap : Heap} {s : Heap × PointerAssets} (hs : Grown heap s)
    {entry : AssetKey × Option Nat} (hentry : ∀ p, entry.2 = some p → p < heap.length) :
    Grown heap (addQuantity s entry) ∧
      (addQuantity s entry).2.read (addQuantity s entry).1 =
        (s.2.read s.1).addQuantity entry.1.1 entry.1.2 (amount heap entry.2) := by
  rcases s with ⟨heap', m⟩
  rcases hs with ⟨hgrown, hm⟩
  have hmore : ∀ v : Int, heap' <+: heap' ++ [v] := fun v => List.prefix_append _ _
  refine ⟨⟨hgrown.trans (hmore _), fun key pointer hkey => ?_⟩, ?_⟩
  · dsimp only [addQuantity] at hkey ⊢
    rw [List.length_append, List.length_singleton]
    rw [GoMap.lookup₂_insert₂] at hkey
    split at hkey
    · cases hkey
      exact Nat.lt_succ_self _
    · exact Nat.lt_succ_of_lt (hm key pointer hkey)
  · -- the pointers that were there read as before, the new one as the sum
    have hasset : (m.read heap').asset entry.1.1 entry.1.2 =
        amount heap' (m.data.lookup₂ entry.1).join := by
      rw [MultiAsset.asset_eq, read, GoMap.lookup₂_mapVals₂]
      cases m.data.lookup₂ entry.1 <;> rfl
    rw [MultiAsset.addQuantity, hasset, ← amount_of_prefix hgrown hentry, ← read_of_prefix (hmore _) hm]
    refine congrArg MultiAsset.mk ((GoMap.mapVals₂_insert₂ _ _ _).trans ?_)
    exact congrArg (GoMap.insert₂ _ _) (List.getElem?_concat_length)

theorem add_refines {heap : Heap} {s : Heap × PointerAssets} (hs : Grown heap s)
    {assets : PointerAssets} (hassets : Allocated heap assets) :
    Grown heap (add s assets) ∧
      (add s assets).2.read (add s assets).1 = (s.2.read s.1).add (assets.read heap) := by
  rw [MultiAsset.add_eq, show (assets.read heap).data = assets.data.mapVals₂ (amount heap) from rfl,
    GoMap.toPairs₂_mapVals₂, List.foldl_map]
  refine grown_foldl (fun s hs entry hentry => grown_addQuantity hs fun p hp => ?_) hs
  exact hassets entry.1 p (hp ▸ GoMap.mem_toPairs₂.mp hentry)

end PointerAssets

/-- Read as functions from assets to quantities, multi-asset values are added pointwise by `Add`,
which writes to no quantity that exists, and `Compare` is their equality. -/
theorem multi_assets_form_group :
    (∀ (heap : Heap) (m : PointerAssets) (values : List PointerAssets), m.Allocated heap →
      (∀ v ∈ values, v.Allocated heap) →
      let (heap', sum) := values.foldl PointerAssets.add (heap, m)
      (∀ key, assetQuantity (some (sum.read heap')) key = assetQuantity (some (m.read heap)) key +
        (values.map fun v => assetQuantity (some (v.read heap)) key).sum) ∧
      sum.Allocated heap' ∧ ∀ v : PointerAssets, v.Allocated heap → v.read heap' = v.read heap) ∧
    (∀ m assets : MultiAsset, m.compare assets = true ↔
      ∀ key, assetQuantity (some m) key = assetQuantity (some assets) key) ∧
    (Equivalence fun m assets : MultiAsset => m.compare assets = true) ∧
    (∀ fold fold' : MultiAsset.Fold, fold.values.Perm fold'.values →
      fold.result.compare fold'.result = true) ∧
    (∀ m : MultiAsset, (m.add .empty).compare m = true) ∧
    ∀ m : MultiAsset, (m.add m.neg).compare .empty = true := by
  refine ⟨fun heap m values hm hvalues => ?_, fun _ _ => MultiAsset.compare_iff, ⟨?_, ?_, ?_⟩, ?_,
    ?_, ?_⟩
  · have hrun := @PointerAssets.grown_foldl _ heap PointerAssets.add (fun m v => m.add (v.read heap))
      values (fun s hs v hv => PointerAssets.add_refines hs (hvalues v hv)) (heap, m)
      ⟨List.prefix_refl heap, hm⟩
    refine ⟨fun key => ?_, hrun.1.2, fun v hv => PointerAssets.read_of_prefix hrun.1.1 hv⟩
    rw [hrun.2]
    exact @Total.foldl_total _ _ _ (fun m => Conway.assetQuantity (some m) key) _
      (fun m v => Dijkstra.asset_add m (v.read heap) key) values _
  · intro m
    exact MultiAsset.compare_iff.mpr fun _ => rfl
  · intro m m' h
    exact MultiAsset.compare_iff.mpr fun key => (MultiAsset.compare_iff.mp h key).symm
  · intro m m' m'' h h'
    exact MultiAsset.compare_iff.mpr fun key =>
      (MultiAsset.compare_iff.mp h key).trans (MultiAsset.compare_iff.mp h' key)
  · intro fold fold' hperm
    refine MultiAsset.compare_iff.mpr fun key => ?_
    rw [MultiAsset.Fold.quantity_result, MultiAsset.Fold.quantity_result]
    exact (hperm.map _).sum_eq
  · intro m
    refine MultiAsset.compare_iff.mpr fun key => ?_
    rw [Dijkstra.asset_add]
    exact add_zero _
  · intro m
    refine MultiAsset.compare_iff.mpr fun key => ?_
    rw [Dijkstra.asset_add, MultiAsset.quantity_neg, add_neg_cancel]
    rfl

def sharedAsset : PointerAssets := ⟨AList.insert 1 (AList.insert [] (some 0) ∅) ∅⟩

theorem allocated_sharedAsset : sharedAsset.Allocated [5] := by
  intro key pointer hkey
  have hmem := GoMap.mem_toPairs₂.mpr hkey
  have hentry : (key, some pointer) = ((1, []), some 0) := List.mem_singleton.mp hmem
  injection hentry with _ hpointer
  injection hpointer with hpointer
  rw [hpointer]
  exact Nat.one_pos

/-- Two values are added to a third that has its quantity from the same pointer. -/
theorem multi_assets_form_group_shared :
    let (heap, sum) := [sharedAsset, sharedAsset].foldl PointerAssets.add ([5], sharedAsset)
    assetQuantity (some (sum.read heap)) (1, []) = 15 ∧
      sharedAsset.read heap = sharedAsset.read [5] := by
  have hvalues : ∀ v ∈ [sharedAsset, sharedAsset], v.Allocated [5] := by
    intro v hv
    have hv : v = sharedAsset := List.eq_of_mem_replicate (n := 2) hv
    rw [hv]
    exact allocated_sharedAsset
  rcases multi_assets_form_group.1 [5] sharedAsset _ allocated_sharedAsset hvalues with
    ⟨hsum, -, hread⟩
  exact ⟨(hsum (1, [])).trans (by decide), hread sharedAsset allocated_sharedAsset⟩

end Gouroboros.Ledger

import Gouroboros.Ledger.Common.StackedViews

/-!
# The committee of stacked views

A view looks for a member's cold key among its hot keys by the hash alone, and for the cold
credentials of a hot key, with loops over a map that visit it in any order. The answers are the same
in every order when no hash is that of two cold credentials and no hot credential that of two
members; then those of stacked views are the flat view's.
-/

namespace Gouroboros.Ledger

/-- The entry that a committee certificate writes. -/
def Certificate.committeeEntry? : Certificate → Option (Credential × Option Credential)
  | .authCommitteeHot cold hot => some (cold, some hot)
  | .resignCommitteeCold cold => some (cold, none)
  | _ => none

/-- No two cold credentials of the entries have the same hash. -/
def ColdsApart (entries : List (Credential × Option Credential)) : Prop :=
  ∀ e ∈ entries, ∀ e' ∈ entries, e.1.credential = e'.1.credential → e.1 = e'.1

/-- No hot credential is authorized for two cold ones. -/
def HotsApart (entries : List (Credential × Option Credential)) : Prop :=
  ∀ e ∈ entries, ∀ e' ∈ entries, e.2 = e'.2 → e.2.isSome → e.1 = e'.1

instance (entries : List (Credential × Option Credential)) : Decidable (ColdsApart entries) :=
  inferInstanceAs (Decidable (∀ e ∈ entries, ∀ e' ∈ entries, _ → _))

instance (entries : List (Credential × Option Credential)) : Decidable (HotsApart entries) :=
  inferInstanceAs (Decidable (∀ e ∈ entries, ∀ e' ∈ entries, _ → _ → _))

namespace BlockLedgerState

variable {o inner outer flat : BlockOverlay} {order order' : CommitteeOrder}

/-! ## One hash -/

def hotAt (order : CommitteeOrder) (o : BlockOverlay) (hash : Blake2b224) :
    Option (Option Credential) :=
  ((o.committeeColdHot.range order).find? fun entry => entry.1.credential = hash).map Prod.snd

def authorized (hot : Option Credential) (member : CommitteeMember) : CommitteeMember :=
  { member with hotKey := hot.map (·.credential), resigned := hot.isNone }

theorem applyCommitteeAuthorization_eq (order : CommitteeOrder) (o : BlockOverlay)
    (member : CommitteeMember) :
    applyCommitteeAuthorization order o member =
      ((hotAt order o member.coldKey).map (authorized · member)).getD member := by
  unfold applyCommitteeAuthorization hotAt
  cases (o.committeeColdHot.range order).find? fun entry => entry.1.credential = member.coldKey with
  | none => rfl
  | some entry =>
    rcases entry with ⟨cold, _ | hot⟩
    · rfl
    · rfl

def HashesApart (o : BlockOverlay) : Prop :=
  ∀ cold cold' hot hot', o.committeeColdHot.lookup cold = some hot →
    o.committeeColdHot.lookup cold' = some hot' → cold.credential = cold'.credential → cold = cold'

def HotKeysApart (o : BlockOverlay) : Prop :=
  ∀ cold cold' hot, o.committeeColdHot.lookup cold = some (some hot) →
    o.committeeColdHot.lookup cold' = some (some hot) → cold = cold'

/-- With one cold credential to a hash every loop finds the same. -/
theorem hotAt_eq_some_iff (hapart : HashesApart o) {hash : Blake2b224} {hot : Option Credential} :
    hotAt order o hash = some hot ↔
      ∃ cold, cold.credential = hash ∧ o.committeeColdHot.lookup cold = some hot := by
  constructor
  · intro hfound
    rcases Option.map_eq_some_iff.mp hfound with ⟨entry, hfind, rfl⟩
    have hhash : entry.1.credential = hash := by simpa using List.find?_some hfind
    exact ⟨entry.1, hhash, GoMap.mem_range_iff.mp (List.mem_of_find?_eq_some hfind)⟩
  · rintro ⟨cold, rfl, hlookup⟩
    unfold hotAt
    cases hfind : (o.committeeColdHot.range order).find? fun entry =>
        entry.1.credential = cold.credential with
    | none =>
      have hmissed := List.find?_eq_none.mp hfind _ (GoMap.mem_range_iff.mpr hlookup)
      simp at hmissed
    | some entry =>
      have hhash : entry.1.credential = cold.credential := by simpa using List.find?_some hfind
      have hentry := GoMap.mem_range_iff.mp (List.mem_of_find?_eq_some hfind)
      have hcold := hapart _ _ _ _ hentry hlookup hhash
      rw [hcold, hlookup] at hentry
      exact hentry.symm

/-- The entries of the flat view are the outer view's, and else the inner one's. -/
def CommitteeStacked (inner outer flat : BlockOverlay) : Prop :=
  ∀ cold, flat.committeeColdHot.lookup cold =
    (outer.committeeColdHot.lookup cold).or (inner.committeeColdHot.lookup cold)

section

variable (hstacked : CommitteeStacked inner outer flat) (hapart : HashesApart flat)
include hstacked

theorem CommitteeStacked.of_outer {cold : Credential} {hot : Option Credential}
    (h : outer.committeeColdHot.lookup cold = some hot) :
    flat.committeeColdHot.lookup cold = some hot := by
  rw [hstacked, h]
  rfl

theorem CommitteeStacked.of_inner {cold : Credential} {hot : Option Credential}
    (h : inner.committeeColdHot.lookup cold = some hot) :
    ∃ hot', flat.committeeColdHot.lookup cold = some hot' := by
  rw [hstacked, h]
  cases outer.committeeColdHot.lookup cold with
  | none => exact ⟨hot, rfl⟩
  | some hot' => exact ⟨hot', rfl⟩

include hapart

theorem hotAt_stacked (order₁ order₂ order₃ : CommitteeOrder) (hash : Blake2b224) :
    hotAt order₃ flat hash = (hotAt order₁ outer hash).or (hotAt order₂ inner hash) := by
  have houter : HashesApart outer := fun _ _ _ _ h h' =>
    hapart _ _ _ _ (hstacked.of_outer h) (hstacked.of_outer h')
  have hinner : HashesApart inner := by
    intro _ _ _ _ h h'
    rcases hstacked.of_inner h with ⟨_, hflat⟩
    rcases hstacked.of_inner h' with ⟨_, hflat'⟩
    exact hapart _ _ _ _ hflat hflat'
  cases hout : hotAt order₁ outer hash with
  | some hot =>
    rcases (hotAt_eq_some_iff houter).mp hout with ⟨cold, hcold, hlookup⟩
    exact (hotAt_eq_some_iff hapart).mpr ⟨cold, hcold, hstacked.of_outer hlookup⟩
  | none =>
    -- no cold credential of the hash is on record in the outer view
    have habsent : ∀ cold : Credential, cold.credential = hash →
        outer.committeeColdHot.lookup cold = none := by
      intro cold hcold
      rw [Option.eq_none_iff_forall_ne_some]
      intro hot hlookup
      rw [(hotAt_eq_some_iff houter).mpr ⟨cold, hcold, hlookup⟩] at hout
      cases hout
    rw [Option.none_or]
    apply Option.ext
    intro hot
    rw [hotAt_eq_some_iff hapart, hotAt_eq_some_iff hinner]
    constructor
    · rintro ⟨cold, hcold, hlookup⟩
      rw [hstacked, habsent cold hcold] at hlookup
      exact ⟨cold, hcold, hlookup⟩
    · rintro ⟨cold, hcold, hlookup⟩
      refine ⟨cold, hcold, ?_⟩
      rw [hstacked, habsent cold hcold]
      exact hlookup

theorem applyCommitteeAuthorization_stacked (order₁ order₂ order₃ : CommitteeOrder)
    (member : CommitteeMember) :
    applyCommitteeAuthorization order₁ outer (applyCommitteeAuthorization order₂ inner member) =
      applyCommitteeAuthorization order₃ flat member := by
  rw [applyCommitteeAuthorization_eq order₂, applyCommitteeAuthorization_eq order₃,
    hotAt_stacked hstacked hapart order₁ order₂, applyCommitteeAuthorization_eq]
  cases hotAt order₂ inner member.coldKey with
  | none =>
    dsimp only [Option.map_none, Option.getD_none]
    rw [Option.or_none]
  | some hot =>
    dsimp only [Option.map_some, Option.getD_some, authorized]
    cases hotAt order₁ outer member.coldKey with
    | none => rfl
    | some hot' => rfl

end

/-! ## Views with the same entries -/

section

variable (hsame : ∀ cold, outer.committeeColdHot.lookup cold = flat.committeeColdHot.lookup cold)
include hsame

theorem applyCommitteeAuthorization_congr (hapart : HashesApart flat)
    (order order' : CommitteeOrder) :
    applyCommitteeAuthorization order outer = applyCommitteeAuthorization order' flat := by
  have houter : HashesApart outer := by
    unfold HashesApart
    simp only [hsame]
    exact hapart
  funext member
  have hfound : hotAt order outer member.coldKey = hotAt order' flat member.coldKey := by
    apply Option.ext
    intro hot
    rw [hotAt_eq_some_iff houter, hotAt_eq_some_iff hapart]
    simp only [hsame]
  rw [applyCommitteeAuthorization_eq, applyCommitteeAuthorization_eq, hfound]

theorem coldCredentialTouched_congr : coldCredentialTouched outer = coldCredentialTouched flat := by
  funext hash
  rw [Bool.eq_iff_iff]
  unfold coldCredentialTouched
  simp only [List.any_eq_true, GoMap.mem_keys_iff, hsame]

/-- A list that has at most one element has no order. -/
theorem coldCredentialsFor_congr (hapart : HotKeysApart flat) (order order' : CommitteeOrder) :
    coldCredentialsFor order outer = coldCredentialsFor order' flat := by
  funext hot
  have hmem : ∀ (o : BlockOverlay) (order : CommitteeOrder) (cold : Credential),
      cold ∈ coldCredentialsFor order o hot → o.committeeColdHot.lookup cold = some (some hot) := by
    intro o order cold hcold
    rcases List.mem_map.mp hcold with ⟨entry, hentry, rfl⟩
    rcases List.mem_filter.mp hentry with ⟨hentry, hhot⟩
    rw [GoMap.mem_range_iff.mp hentry, of_decide_eq_true hhot]
  have hperm : (coldCredentialsFor order outer hot).Perm (coldCredentialsFor order' flat hot) :=
    ((GoMap.range_perm hsame order order').filter _).map _
  have hall : ∀ l : List Credential, l.Pairwise fun _ _ => True :=
    fun _ => List.pairwise_of_forall fun _ _ => trivial
  apply List.Perm.eq_of_pairwise _ (hall _) (hall _) hperm
  intro cold cold' hcold hcold' _ _
  have hcold := hmem outer order cold hcold
  rw [hsame] at hcold
  exact hapart cold cold' hot hcold (hmem flat order' cold' hcold')

end

/-! ## Runs -/

def CommitteeIn (entries : List (Credential × Option Credential)) (cert : Certificate) : Prop :=
  ∀ e, cert.committeeEntry? = some e → e ∈ entries

theorem follows_committeeFrom (entries : List (Credential × Option Credential)) :
    Follows (CommitteeIn entries) fun b _ =>
      ∀ cold hot, b.committeeColdHot.lookup cold = some hot → (cold, hot) ∈ entries where
  setAccount _ _ _ h := h
  recordProposals id ps h := by
    rw [(recordProposals_maps id ps _).1]
    exact h
  applyUtxo tx h := by
    rw [(applyUtxo_maps tx _).2.1]
    exact h
  applyCertificate pp cert hin _ h hstep _ := by
    rw [(applyCertificate_maps hstep).2.1]
    intro cold hot hlookup
    cases cert with
    | authCommitteeHot cold' _ | resignCommitteeCold cold' =>
      rw [committeeEffect, GoMap.lookup_insert_ite] at hlookup
      split at hlookup
      next hcold =>
        injection hlookup with hhot
        rw [hcold, ← hhot]
        exact hin _ rfl
      next => exact h cold hot hlookup
    | _ => exact h cold hot hlookup

theorem follows_committeeStacked (inner : BlockOverlay) :
    Follows (fun _ => True) fun outer flat =>
      CommitteeStacked inner outer.toBlockOverlay flat.toBlockOverlay where
  setAccount _ _ _ h := h
  recordProposals id ps h := by
    unfold CommitteeStacked
    rw [(recordProposals_maps id ps _).1, (recordProposals_maps id ps _).1]
    exact h
  applyUtxo tx h := by
    unfold CommitteeStacked
    rw [(applyUtxo_maps tx _).2.1, (applyUtxo_maps tx _).2.1]
    exact h
  applyCertificate pp cert _ _ h h₁ h₂ := by
    unfold CommitteeStacked
    rw [(applyCertificate_maps h₁).2.1, (applyCertificate_maps h₂).2.1]
    intro cold
    cases cert with
    | authCommitteeHot cold' _ | resignCommitteeCold cold' =>
      rw [committeeEffect, GoMap.lookup_insert_ite, committeeEffect, GoMap.lookup_insert_ite]
      split
      · rfl
      · exact h cold
    | _ => exact h cold

end BlockLedgerState

end Gouroboros.Ledger

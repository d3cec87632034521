import Gouroboros.Ledger.Common.Types

/-!
# Native scripts

The scripts without a virtual machine (`ledger/common/script.go`) and their evaluation against the
key witnesses, the guards and the validity interval of a transaction. A script asks for keys, guards
and bounds and never for their absence, so more of them keep it satisfied
(`evaluate_monotone`); a bound it asks for holds at every slot of the interval.

The types of the source are one inductive type here. `undecoded` is a script without an item.
`Evaluate` and its variants only fill in the context, and the slot they take is not read.
-/

namespace Gouroboros.Ledger

inductive NativeScript where
  | undecoded (cbor : ByteString)
  | pubkey (cbor hash : ByteString)
  | all (cbor : ByteString) (scripts : List NativeScript)
  | any (cbor : ByteString) (scripts : List NativeScript)
  | nofK (cbor : ByteString) (n : Int) (scripts : List NativeScript)
  | invalidBefore (cbor : ByteString) (slot : UInt64)
  | invalidHereafter (cbor : ByteString) (slot : UInt64)
  | requireGuard (cbor : ByteString) (credential : Credential)

/-- Nil guards are not the empty set, though no script tells them apart. -/
structure NativeScriptEvalContext where
  validityStart : UInt64
  validityEnd : UInt64
  validityStartPresent : Bool
  validityEndPresent : Bool
  keyHashes : GoMap Blake2b224 Bool
  guardCredentials : Option (GoMap Credential Bool)

namespace NativeScript

mutual

/-- The loops over child scripts, under a reading of the scripts that have none. The source leaves
a loop at the first child that decides it. -/
def satisfied (leaf : NativeScript → Bool) : NativeScript → Bool
  | all _ scripts => (satisfiedEach leaf scripts).all id
  | any _ scripts => (satisfiedEach leaf scripts).any id
  | nofK _ n scripts => decide (n ≤ (satisfiedEach leaf scripts).count true)
  | script => leaf script

def satisfiedEach (leaf : NativeScript → Bool) : List NativeScript → List Bool
  | [] => []
  | script :: scripts => satisfied leaf script :: satisfiedEach leaf scripts

end

end NativeScript

namespace NativeScriptEvalContext

variable (ctx : NativeScriptEvalContext)

def hasKeyHash (hash : Blake2b224) : Bool := (ctx.keyHashes.lookup hash).getD false

def hasGuard (credential : Credential) : Bool :=
  match ctx.guardCredentials with
  | none => false
  | some credentials => (credentials.lookup credential).getD false

/-- A hash of another length than 28 bytes is satisfied by nothing. -/
def leaf : NativeScript → Bool
  | .pubkey _ hash => decide (hash.length = 28) && ctx.hasKeyHash (newBlake2b224 hash)
  | .invalidBefore _ slot => ctx.validityStartPresent && decide (slot ≤ ctx.validityStart)
  | .invalidHereafter _ slot => ctx.validityEndPresent && decide (ctx.validityEnd ≤ slot)
  | .requireGuard _ credential => ctx.hasGuard credential
  | _ => false

end NativeScriptEvalContext

def NativeScript.evaluate (ctx : NativeScriptEvalContext) (script : NativeScript) : Bool :=
  script.satisfied ctx.leaf

/-! ## Intervals and single slots -/

namespace NativeScriptEvalContext

variable (ctx : NativeScriptEvalContext)

/-- The first slot of the interval, below all slots where it is absent. -/
def lowerBound : WithBot ℕ := if ctx.validityStartPresent then ctx.validityStart.toNat else ⊥

/-- The first slot past the interval, above all slots where it is absent. -/
def upperBound : WithTop ℕ := if ctx.validityEndPresent then ctx.validityEnd.toNat else ⊤

def Contains (slot : UInt64) : Prop := ctx.lowerBound ≤ slot.toNat ∧ slot.toNat < ctx.upperBound

/-- More keys and guards, over a part of the interval. -/
structure Extends (ctx ctx' : NativeScriptEvalContext) : Prop where
  keyHashes : ∀ hash, ctx.hasKeyHash hash = true → ctx'.hasKeyHash hash = true
  guards : ∀ credential, ctx.hasGuard credential = true → ctx'.hasGuard credential = true
  lower : ctx.lowerBound ≤ ctx'.lowerBound
  upper : ctx'.upperBound ≤ ctx.upperBound

def leafAt (slot : UInt64) : NativeScript → Bool
  | .invalidBefore _ first => decide (first ≤ slot)
  | .invalidHereafter _ last => decide (slot < last)
  | script => ctx.leaf script

variable {ctx}

theorem le_lowerBound_iff {slot : UInt64} :
    (slot.toNat : WithBot ℕ) ≤ ctx.lowerBound ↔
      ctx.validityStartPresent ∧ slot ≤ ctx.validityStart := by
  unfold lowerBound
  split
  next h => simp [h, UInt64.le_iff_toNat_le]
  next h => simp [h]

theorem upperBound_le_iff {slot : UInt64} :
    ctx.upperBound ≤ (slot.toNat : WithTop ℕ) ↔
      ctx.validityEndPresent ∧ ctx.validityEnd ≤ slot := by
  unfold upperBound
  split
  next h => simp [h, UInt64.le_iff_toNat_le]
  next h => simp [h]

theorem leaf_of_extends {ctx' : NativeScriptEvalContext} (h : ctx.Extends ctx')
    (script : NativeScript) (hleaf : ctx.leaf script) : ctx'.leaf script := by
  cases script with
  | pubkey cbor hash =>
    simp only [leaf, Bool.and_eq_true] at hleaf ⊢
    exact ⟨hleaf.1, h.keyHashes _ hleaf.2⟩
  | requireGuard cbor credential => exact h.guards credential hleaf
  | invalidBefore cbor slot =>
    simp only [leaf, Bool.and_eq_true, decide_eq_true_eq] at hleaf ⊢
    rw [← le_lowerBound_iff] at hleaf ⊢
    exact hleaf.trans h.lower
  | invalidHereafter cbor slot =>
    simp only [leaf, Bool.and_eq_true, decide_eq_true_eq] at hleaf ⊢
    rw [← upperBound_le_iff] at hleaf ⊢
    exact h.upper.trans hleaf
  | undecoded | all | any | nofK => exact hleaf

theorem leafAt_of_leaf {slot : UInt64} (hslot : ctx.Contains slot) (script : NativeScript)
    (hleaf : ctx.leaf script) : ctx.leafAt slot script := by
  obtain ⟨hlower, hupper⟩ := hslot
  cases script with
  | invalidBefore cbor first =>
    simp only [leaf, leafAt, Bool.and_eq_true, decide_eq_true_eq] at hleaf ⊢
    exact UInt64.le_iff_toNat_le.mpr (WithBot.coe_le_coe.mp ((le_lowerBound_iff.mpr hleaf).trans hlower))
  | invalidHereafter cbor last =>
    simp only [leaf, leafAt, Bool.and_eq_true, decide_eq_true_eq] at hleaf ⊢
    exact UInt64.lt_iff_toNat_lt.mpr (WithTop.coe_lt_coe.mp (hupper.trans_le (upperBound_le_iff.mpr hleaf)))
  | undecoded | all | any | nofK | pubkey | requireGuard => exact hleaf

end NativeScriptEvalContext

/-! ## Monotonicity -/

namespace NativeScript

theorem satisfiedEach_eq_map (leaf : NativeScript → Bool) (scripts : List NativeScript) :
    satisfiedEach leaf scripts = scripts.map (satisfied leaf) := by
  induction scripts with
  | nil => rfl
  | cons script scripts ih => rw [satisfiedEach, ih, List.map_cons]

variable {f g : NativeScript → Bool}

mutual

theorem satisfied_mono (hleaf : ∀ script, f script → g script) :
    ∀ script : NativeScript, script.satisfied f → script.satisfied g
  | all cbor scripts => by
    have hscripts := satisfiedEach_mono hleaf scripts
    simp only [satisfied, satisfiedEach_eq_map, List.all_map, List.all_eq_true]
    exact fun hall script hmem => hscripts script hmem (hall script hmem)
  | any cbor scripts => by
    have hscripts := satisfiedEach_mono hleaf scripts
    simp only [satisfied, satisfiedEach_eq_map, List.any_map, List.any_eq_true]
    rintro ⟨script, hmem, hscript⟩
    exact ⟨script, hmem, hscripts script hmem hscript⟩
  | nofK cbor n scripts => by
    have hscripts := satisfiedEach_mono hleaf scripts
    -- no child that was counted is lost
    have hcount : (scripts.map (satisfied f)).count true ≤ (scripts.map (satisfied g)).count true := by
      rw [List.count_eq_countP, List.countP_map, List.count_eq_countP, List.countP_map]
      exact List.countP_mono_left (by simpa using hscripts)
    simp only [satisfied, satisfiedEach_eq_map, decide_eq_true_eq]
    intro hn
    omega
  | undecoded cbor | pubkey cbor hash | invalidBefore cbor slot | invalidHereafter cbor slot
  | requireGuard cbor credential => by
    exact hleaf _

theorem satisfiedEach_mono (hleaf : ∀ script, f script → g script) :
    ∀ scripts : List NativeScript, ∀ script ∈ scripts, script.satisfied f → script.satisfied g
  | [] => nofun
  | first :: rest =>
    List.forall_mem_cons.mpr ⟨satisfied_mono hleaf first, satisfiedEach_mono hleaf rest⟩

end

/-- A script stays satisfied with more keys, more guards and a smaller interval; and what it asks of
an interval holds at every slot of it. -/
theorem evaluate_monotone (script : NativeScript) :
    (∀ ctx ctx' : NativeScriptEvalContext, ctx.Extends ctx' →
      script.evaluate ctx = true → script.evaluate ctx' = true) ∧
    ∀ (ctx : NativeScriptEvalContext) (slot : UInt64), ctx.Contains slot →
      script.evaluate ctx = true → script.satisfied (ctx.leafAt slot) = true := by
  constructor
  · intro ctx ctx' h
    exact satisfied_mono (NativeScriptEvalContext.leaf_of_extends h) script
  · intro ctx slot hslot
    exact satisfied_mono (NativeScriptEvalContext.leafAt_of_leaf hslot) script

def twoOfThree : NativeScript :=
  .nofK [] 2 [.pubkey [] (List.replicate 28 0), .requireGuard [] ⟨0, 3⟩,
    .all [] [.invalidBefore [] 5, .invalidHereafter [] 20]]

def keyContext (validityStart validityEnd : UInt64) : NativeScriptEvalContext where
  validityStart
  validityEnd
  validityStartPresent := true
  validityEndPresent := true
  keyHashes := AList.insert 0 true ∅
  guardCredentials := none

/-- A smaller interval, and a slot of the larger one. -/
theorem evaluate_monotone_twoOfThree :
    twoOfThree.evaluate (keyContext 7 12) = true ∧
      twoOfThree.satisfied ((keyContext 5 20).leafAt 9) = true := by
  have htrue : twoOfThree.evaluate (keyContext 5 20) = true := by decide
  have hextends : (keyContext 5 20).Extends (keyContext 7 12) :=
    ⟨fun _ h => h, fun _ h => h, by decide, by decide⟩
  have hcontains : (keyContext 5 20).Contains 9 := ⟨by decide, by decide⟩
  have hmonotone := evaluate_monotone twoOfThree
  exact ⟨hmonotone.1 _ _ hextends htrue, hmonotone.2 _ 9 hcontains htrue⟩

end NativeScript

end Gouroboros.Ledger

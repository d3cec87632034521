import Mathlib.Algebra.Group.Nat.Defs
import Mathlib.Data.List.Basic

/-!
# Well-formed CBOR

The bytes of a sequence of well-formed CBOR data items (RFC 8949), with a bound on their
nesting. A head is the initial byte and the bytes of its argument, in any of the lengths the
format allows; an item of indefinite length ends with a break byte.

Well-formed sequences are self-delimiting: where two of them with the same number of items start
at one place of a byte string, they end at one place (`Items.append_inj`).
-/

namespace Cbor

/-! ## Heads -/

def extraLength (info : Nat) : Nat := if info < 24 then 0 else 2 ^ (info - 24)

/-- The number that bytes spell, most significant first. -/
def bigEndian (bytes : List UInt8) : Nat := bytes.foldl (fun n b => n * 256 + b.toNat) 0

/-- The head of an item of definite length. -/
structure Head where
  major : Nat
  info : Nat
  extra : List UInt8
  major_lt : major < 8
  info_lt : info < 28
  length_extra : extra.length = extraLength info
deriving DecidableEq

namespace Head

def initialByte (head : Head) : UInt8 := UInt8.ofNat (32 * head.major + head.info)

def bytes (head : Head) : List UInt8 := head.initialByte :: head.extra

def argument (head : Head) : Nat := if head.info < 24 then head.info else bigEndian head.extra

def payloadLength (head : Head) : Nat :=
  if head.major = 2 ∨ head.major = 3 then head.argument else 0

/-- The items inside an array, a map or a tag. -/
def childCount (head : Head) : Nat :=
  match head.major with
  | 4 => head.argument
  | 5 => 2 * head.argument
  | 6 => 1
  | _ => 0

/-- Arrays, maps and tags nest; so do strings of indefinite length. -/
def nests (head : Head) : Prop := 4 ≤ head.major ∧ head.major ≤ 6

instance instDecidableNests (head : Head) : Decidable head.nests :=
  inferInstanceAs (Decidable (4 ≤ head.major ∧ head.major ≤ 6))

theorem toNat_initialByte (head : Head) : head.initialByte.toNat = 32 * head.major + head.info := by
  have hmajor := head.major_lt
  have hinfo := head.info_lt
  exact UInt8.toNat_ofNat_of_lt (by show 32 * head.major + head.info < 256; omega)

variable {head head' : Head}

theorem ext_of_initialByte (hbyte : head.initialByte = head'.initialByte)
    (hextra : head.extra = head'.extra) : head = head' := by
  have hinfo := head.info_lt
  have hinfo' := head'.info_lt
  have hsum : 32 * head.major + head.info = 32 * head'.major + head'.info := by
    rw [← toNat_initialByte, ← toNat_initialByte, hbyte]
  rcases head with ⟨major, info, extra, _, _, _⟩
  rcases head' with ⟨major', info', extra', _, _, _⟩
  simp only at hsum hinfo hinfo' hextra
  have hmajor : major = major' := by omega
  have hinfo : info = info' := by omega
  subst hmajor hinfo hextra
  rfl

theorem append_inj {x y : List UInt8} (h : head.bytes ++ x = head'.bytes ++ y) :
    head = head' ∧ x = y := by
  have hinfo := head.info_lt
  have hinfo' := head'.info_lt
  injection h with hbyte hrest
  have hsum : 32 * head.major + head.info = 32 * head'.major + head'.info := by
    rw [← toNat_initialByte, ← toNat_initialByte, hbyte]
  have hlength : head.extra.length = head'.extra.length := by
    rw [head.length_extra, head'.length_extra]
    exact congrArg extraLength (by omega)
  rcases List.append_inj hrest hlength with ⟨hextra, hrest⟩
  exact ⟨ext_of_initialByte hbyte hextra, hrest⟩

end Head

theorem foldl_bigEndian_lt : ∀ (bytes : List UInt8) (n : Nat),
    bytes.foldl (fun n b => n * 256 + b.toNat) n < (n + 1) * 256 ^ bytes.length
  | [], n => by simp
  | b :: bytes, n => by
      have hbyte : b.toNat < 256 := b.toNat_lt
      have hnext := foldl_bigEndian_lt bytes (n * 256 + b.toNat)
      have hle : n * 256 + b.toNat + 1 ≤ (n + 1) * 256 := by omega
      rw [List.foldl_cons, List.length_cons, Nat.pow_succ', ← Nat.mul_assoc]
      exact Nat.lt_of_lt_of_le hnext (Nat.mul_le_mul_right _ hle)

theorem Head.argument_lt (head : Head) : head.argument < 2 ^ 64 := by
  unfold Head.argument
  split
  next hsmall => exact Nat.lt_trans hsmall (by decide)
  next hlarge =>
    have hinfo := head.info_lt
    have hlength : head.extra.length ≤ 2 ^ 3 := by
      rw [head.length_extra, extraLength, if_neg hlarge]
      exact Nat.pow_le_pow_right (by decide) (by omega)
    have hlt := foldl_bigEndian_lt head.extra 0
    have hle : 256 ^ head.extra.length ≤ 256 ^ 2 ^ 3 := Nat.pow_le_pow_right (by decide) hlength
    unfold bigEndian
    omega

/-- The initial byte of an item of indefinite length. -/
def indefiniteByte (major : Nat) : UInt8 := UInt8.ofNat (32 * major + 31)

def breakByte : UInt8 := 0xff

variable {major depth count : Nat}

theorem toNat_indefiniteByte (h : major ≤ 5) : (indefiniteByte major).toNat = 32 * major + 31 :=
  UInt8.toNat_ofNat_of_lt (by show 32 * major + 31 < 256; omega)

theorem initialByte_ne_break (head : Head) : head.initialByte ≠ breakByte := by
  intro h
  have hinfo := head.info_lt
  have hbyte : 32 * head.major + head.info = 255 := by
    rw [← head.toNat_initialByte, h]
    rfl
  omega

theorem indefiniteByte_ne_break (hmajor : major ≤ 5) : indefiniteByte major ≠ breakByte := by
  intro h
  have hbyte : 32 * major + 31 = 255 := by
    rw [← toNat_indefiniteByte hmajor, h]
    rfl
  omega

theorem initialByte_ne_indefiniteByte (head : Head) (hmajor : major ≤ 5) :
    head.initialByte ≠ indefiniteByte major := by
  intro h
  have hinfo := head.info_lt
  have hbyte : 32 * head.major + head.info = 32 * major + 31 := by
    rw [← head.toNat_initialByte, h, toNat_indefiniteByte hmajor]
  omega

/-! ## Items -/

/-- Strings of one major type and definite length, one after the other. -/
inductive Chunks (major : Nat) : List UInt8 → Prop
  | nil : Chunks major []
  | cons {rest : List UInt8} (head : Head) (payload : List UInt8) (hmajor : head.major = major)
      (hpayload : payload.length = head.payloadLength) (hrest : Chunks major rest) :
      Chunks major (head.bytes ++ (payload ++ rest))

/-- What an item of indefinite length may hold: a string its chunks, a map whole pairs. -/
def IndefiniteContent (major count : Nat) (children : List UInt8) : Prop :=
  (major = 2 ∨ major = 3 → Chunks major children) ∧ (major = 5 → 2 ∣ count)

/-- The bytes of a number of well-formed items, nested at most `depth` deep. A two-byte simple
value below 32 is let through. -/
inductive Items : Nat → Nat → List UInt8 → Prop
  | nil {depth : Nat} : Items depth 0 []
  | definite {depth count : Nat} {children rest : List UInt8} (head : Head) (payload : List UInt8)
      (hpayload : payload.length = head.payloadLength) (hnests : head.nests → 0 < depth)
      (hchildren : Items (depth - 1) head.childCount children) (hrest : Items depth count rest) :
      Items depth (count + 1) (head.bytes ++ (payload ++ (children ++ rest)))
  | indefinite {depth count inner : Nat} {children rest : List UInt8} (major : Nat)
      (hlow : 2 ≤ major) (hhigh : major ≤ 5) (hchildren : Items depth inner children)
      (hcontent : IndefiniteContent major inner children) (hrest : Items (depth + 1) count rest) :
      Items (depth + 1) (count + 1)
        (indefiniteByte major :: (children ++ (breakByte :: rest)))

def WellFormedItem (bytes : List UInt8) : Prop := ∃ depth, Items depth 1 bytes

variable {bytes x y : List UInt8}

theorem Items.eq_nil (h : Items depth 0 bytes) : bytes = [] := by
  cases h
  rfl

theorem Items.head?_ne_break {rest : List UInt8}
    (h : Items depth (count + 1) bytes) : (bytes ++ rest).head? ≠ some breakByte := by
  intro hbreak
  cases h with
  | definite head payload => exact initialByte_ne_break head (Option.some.inj hbreak)
  | indefinite major hlow hhigh => exact indefiniteByte_ne_break hhigh (Option.some.inj hbreak)

/-- Well-formed sequences that start at one place end at one place, if they have the same number
of items or if a break follows both. -/
theorem Items.append_inj {depth' count' : Nat} {a b : List UInt8} (ha : Items depth count a)
    (hb : Items depth' count' b)
    (hstop : count = count' ∨ x.head? = some breakByte ∧ y.head? = some breakByte)
    (h : a ++ x = b ++ y) : a = b ∧ x = y := by
  induction ha generalizing depth' count' b x y with
  | nil =>
    cases count' with
    | zero =>
      rw [hb.eq_nil] at h ⊢
      exact ⟨rfl, h⟩
    | succ count' =>
      rcases hstop with hcount | ⟨hx, -⟩
      · cases hcount
      · rw [List.nil_append] at h
        rw [h] at hx
        exact absurd hx hb.head?_ne_break
  | @definite depth count children rest head payload hpayload hnests hchildren hrest ihc ihr =>
    cases hb with
    | nil =>
      rcases hstop with hcount | ⟨-, hy⟩
      · cases hcount
      · rw [List.nil_append] at h
        rw [← h] at hy
        exact absurd hy (Items.definite head payload hpayload hnests hchildren hrest).head?_ne_break
    | @definite _ count' children' rest' head' payload' hpayload' hnests' hchildren' hrest' =>
      simp only [List.append_assoc] at h
      rcases Head.append_inj h with ⟨rfl, hbody⟩
      rcases List.append_inj hbody (hpayload.trans hpayload'.symm) with ⟨rfl, hinner⟩
      rcases ihc hchildren' (.inl rfl) hinner with ⟨rfl, hafter⟩
      rcases ihr hrest' (hstop.imp_left Nat.succ.inj) hafter with ⟨rfl, rfl⟩
      exact ⟨rfl, rfl⟩
    | indefinite major hlow hhigh =>
      injection h with hbyte _
      exact absurd hbyte (initialByte_ne_indefiniteByte head hhigh)
  | @indefinite depth count inner children rest major hlow hhigh hchildren hcontent hrest ihc ihr =>
    cases hb with
    | nil =>
      rcases hstop with hcount | ⟨-, hy⟩
      · cases hcount
      · rw [List.nil_append] at h
        rw [← h] at hy
        exact absurd hy
          (Items.indefinite major hlow hhigh hchildren hcontent hrest).head?_ne_break
    | definite head' =>
      injection h with hbyte _
      exact absurd hbyte.symm (initialByte_ne_indefiniteByte head' hhigh)
    | @indefinite _ count' inner' children' rest' major' hlow' hhigh' hchildren' hcontent' hrest' =>
      simp only [List.cons_append, List.append_assoc] at h
      injection h with hbyte hinner
      have hmajor : 32 * major + 31 = 32 * major' + 31 := by
        rw [← toNat_indefiniteByte hhigh, ← toNat_indefiniteByte hhigh', hbyte]
      have hmajor : major = major' := by omega
      subst hmajor
      -- the children end at their break, however many there are
      rcases ihc hchildren' (.inr ⟨rfl, rfl⟩) hinner with ⟨rfl, hbreak⟩
      injection hbreak with _ hafter
      rcases ihr hrest' (hstop.imp_left Nat.succ.inj) hafter with ⟨rfl, rfl⟩
      exact ⟨rfl, rfl⟩

theorem flatten_inj {items items' : List (List UInt8)}
    (hitems : ∀ item ∈ items, WellFormedItem item) (hitems' : ∀ item ∈ items', WellFormedItem item)
    (h : items.flatten ++ breakByte :: x = items'.flatten ++ breakByte :: y) : items = items' := by
  induction items generalizing items' with
  | nil =>
    cases items' with
    | nil => rfl
    | cons item' items' =>
      rcases hitems' item' (by simp) with ⟨depth, hitem'⟩
      have hbreak : (item' ++ (items'.flatten ++ breakByte :: y)).head? = some breakByte := by
        rw [← List.append_assoc, ← List.flatten_cons, ← h]
        rfl
      exact absurd hbreak hitem'.head?_ne_break
  | cons item items ih =>
    rcases hitems item (by simp) with ⟨depth, hitem⟩
    cases items' with
    | nil =>
      have hbreak : (item ++ (items.flatten ++ breakByte :: x)).head? = some breakByte := by
        rw [← List.append_assoc, ← List.flatten_cons, h]
        rfl
      exact absurd hbreak hitem.head?_ne_break
    | cons item' items' =>
      rcases hitems' item' (by simp) with ⟨depth', hitem'⟩
      rw [List.flatten_cons, List.flatten_cons, List.append_assoc, List.append_assoc] at h
      rcases hitem.append_inj hitem' (.inl rfl) h with ⟨rfl, hrest⟩
      have htail := ih (fun i hi => hitems i (List.mem_cons_of_mem item hi))
        (fun i hi => hitems' i (List.mem_cons_of_mem item hi)) hrest
      rw [htail]

end Cbor

import Gouroboros.Lib.CborItems

/-!
# CBOR as a sequence of tokens

A reader without recursion sees well-formed items as a sequence of tokens: the head of an item with
the content of its string, the start of an item of indefinite length, and its break. What it has to
remember is a stack with one level for every item that is still open. `Advances` is such a reader;
`ItemTokens.advances` says that it reads all well-formed items within its bound on the stack.
-/

namespace Cbor

/-! ## Tokens -/

inductive Token where
  | item (head : Head) (payload : List UInt8)
  | start (major : Nat)
  | stop
deriving DecidableEq

namespace Token

/-- The bytes that say what the token is and how long. -/
def header : Token → List UInt8
  | item head _ => head.bytes
  | start major => [indefiniteByte major]
  | stop => [breakByte]

def payload : Token → List UInt8
  | item _ payload => payload
  | start _ => []
  | stop => []

def bytes (token : Token) : List UInt8 := token.header ++ token.payload

/-- The number of items that a definite item announces inside it. -/
def childCount : Token → Nat
  | item head _ => head.childCount
  | start _ => 0
  | stop => 0

end Token

def tokenBytes (tokens : List Token) : List UInt8 := tokens.flatMap Token.bytes

@[simp] theorem tokenBytes_nil : tokenBytes [] = [] := rfl

@[simp] theorem tokenBytes_cons (token : Token) (tokens : List Token) :
    tokenBytes (token :: tokens) = token.bytes ++ tokenBytes tokens := rfl

@[simp] theorem tokenBytes_append (tokens tokens' : List Token) :
    tokenBytes (tokens ++ tokens') = tokenBytes tokens ++ tokenBytes tokens' :=
  List.flatMap_append

/-- The tokens of a number of well-formed items, nested at most `depth` deep. -/
inductive ItemTokens : Nat → Nat → List Token → Prop
  | nil {depth : Nat} : ItemTokens depth 0 []
  | definite {depth count : Nat} {children rest : List Token} (head : Head) (payload : List UInt8)
      (hpayload : payload.length = head.payloadLength) (hnests : head.nests → 0 < depth)
      (hchildren : ItemTokens (depth - 1) head.childCount children)
      (hrest : ItemTokens depth count rest) :
      ItemTokens depth (count + 1) (.item head payload :: (children ++ rest))
  | indefinite {depth count inner : Nat} {children rest : List Token} (major : Nat)
      (hlow : 2 ≤ major) (hhigh : major ≤ 5) (hchildren : ItemTokens depth inner children)
      (hrest : ItemTokens (depth + 1) count rest) :
      ItemTokens (depth + 1) (count + 1) (.start major :: (children ++ .stop :: rest))

variable {depth count bound : Nat} {tokens tokens' : List Token}

theorem ItemTokens.eq_nil (h : ItemTokens depth 0 tokens) : tokens = [] := by
  cases h
  rfl

theorem Items.itemTokens {bytes : List UInt8} (h : Items depth count bytes) :
    ∃ tokens, ItemTokens depth count tokens ∧ tokenBytes tokens = bytes := by
  induction h with
  | nil => exact ⟨[], .nil, rfl⟩
  | definite head payload hpayload hnests _ _ ihc ihr =>
    rcases ihc with ⟨inner, hinner, rfl⟩
    rcases ihr with ⟨later, hlater, rfl⟩
    refine ⟨_, .definite head payload hpayload hnests hinner hlater, ?_⟩
    simp [Token.bytes, Token.header, Token.payload]
  | indefinite major hlow hhigh _ _ _ ihc ihr =>
    rcases ihc with ⟨inner, hinner, rfl⟩
    rcases ihr with ⟨later, hlater, rfl⟩
    refine ⟨_, .indefinite major hlow hhigh hinner hlater, ?_⟩
    simp [Token.bytes, Token.header, Token.payload]

theorem length_header_pos (token : Token) : 0 < token.header.length := by
  cases token with
  | item | start | stop => exact Nat.succ_pos _

theorem length_bytes_pos (token : Token) : 0 < token.bytes.length := by
  rw [Token.bytes, List.length_append]
  exact Nat.add_pos_left (length_header_pos token) _

theorem ItemTokens.count_le_length
    (h : ItemTokens depth count tokens) : count ≤ (tokenBytes tokens).length := by
  induction h with
  | nil => exact Nat.zero_le _
  | definite head payload _ _ _ _ _ ihr =>
    have hpos := length_bytes_pos (.item head payload)
    simp only [tokenBytes_cons, tokenBytes_append, List.length_append]
    omega
  | indefinite major _ _ _ _ _ ihr =>
    have hpos := length_bytes_pos (.start major)
    simp only [tokenBytes_cons, tokenBytes_append, List.length_append]
    omega

theorem ItemTokens.childCount_le (h : ItemTokens depth count tokens) {token : Token}
    (htoken : token ∈ tokens) : token.childCount ≤ (tokenBytes tokens).length := by
  induction h with
  | nil => cases htoken
  | definite head payload _ _ hchildren _ ihc ihr =>
    have hcount := hchildren.count_le_length
    simp only [tokenBytes_cons, tokenBytes_append, List.length_append]
    rcases List.mem_cons.mp htoken with rfl | htoken
    · simp only [Token.childCount]
      omega
    · rcases List.mem_append.mp htoken with htoken | htoken
      · have hle := ihc htoken
        omega
      · have hle := ihr htoken
        omega
  | indefinite major _ _ _ _ ihc ihr =>
    simp only [tokenBytes_cons, tokenBytes_append, List.length_append]
    rcases List.mem_cons.mp htoken with rfl | htoken
    · exact Nat.zero_le _
    · rcases List.mem_append.mp htoken with htoken | htoken
      · have hle := ihc htoken
        omega
      · rcases List.mem_cons.mp htoken with rfl | htoken
        · exact Nat.zero_le _
        · have hle := ihr htoken
          omega

/-! ## The stack of open items -/

/-- An open item: with a number of items left, or up to a break. -/
inductive Level where
  | counted (left : Nat)
  | unbounded
deriving DecidableEq

namespace Level

def less (count : Nat) : Level → Level
  | counted left => counted (left - count)
  | unbounded => unbounded

/-- Some more items fit. -/
def Has (count : Nat) : Level → Prop
  | counted left => count ≤ left
  | unbounded => True

theorem less_less (level : Level) (a b : Nat) : (level.less a).less b = level.less (a + b) := by
  cases level with
  | counted left => simp only [less, Nat.sub_sub]
  | unbounded => rfl

theorem Has.less {level : Level} {a b : Nat} (h : level.Has (a + b)) : (level.less a).Has b := by
  cases level with
  | counted left =>
    simp only [Has, Level.less] at h ⊢
    omega
  | unbounded => trivial

theorem Has.one {level : Level} {count : Nat} (h : level.Has (count + 1)) : level.Has 1 := by
  cases level with
  | counted left => exact Nat.le_trans (Nat.le_add_left 1 count) h
  | unbounded => trivial

end Level

def settle : List Level → List Level
  | .counted 0 :: levels => settle levels
  | levels => levels

@[simp] theorem settle_finished (levels : List Level) :
    settle (.counted 0 :: levels) = settle levels := by
  rw [settle]

theorem settle_of_has {level : Level} (h : level.Has (count + 1)) (levels : List Level) :
    settle (level :: levels) = level :: levels := by
  cases level with
  | counted left =>
    cases left with
    | zero => exact absurd h (Nat.not_succ_le_zero count)
    | succ left => rfl
  | unbounded => rfl

def opened (head : Head) (levels : List Level) : List Level :=
  if 4 ≤ head.major ∧ head.major ≤ 6 then .counted head.childCount :: levels else levels

/-- One token, with at most `bound` items open. -/
inductive Advance (bound : Nat) : List Level → Token → List Level → Prop
  | item {level : Level} {levels : List Level} (head : Head) (payload : List UInt8)
      (hpayload : payload.length = head.payloadLength) (hhas : level.Has 1)
      (hroom : head.nests → levels.length + 1 < bound) :
      Advance bound (level :: levels) (.item head payload)
        (settle (opened head (level.less 1 :: levels)))
  | start {level : Level} {levels : List Level} (major : Nat) (hlow : 2 ≤ major) (hhigh : major ≤ 5)
      (hhas : level.Has 1) (hroom : levels.length + 1 < bound) :
      Advance bound (level :: levels) (.start major) (.unbounded :: level.less 1 :: levels)
  | stop {levels : List Level} : Advance bound (.unbounded :: levels) .stop (settle levels)

inductive Advances (bound : Nat) : List Level → List Token → List Level → Prop
  | nil {levels : List Level} : Advances bound levels [] levels
  | cons {before between after : List Level} {token : Token} {tokens : List Token}
      (hfirst : Advance bound before token between) (hrest : Advances bound between tokens after) :
      Advances bound before (token :: tokens) after

variable {before after : List Level}

theorem Advances.append {between : List Level} (h : Advances bound before tokens between)
    (h' : Advances bound between tokens' after) :
    Advances bound before (tokens ++ tokens') after := by
  induction h with
  | nil => exact h'
  | cons hfirst _ ih => exact .cons hfirst (ih h')

theorem Advances.split {token : Token}
    (h : Advances bound before (tokens ++ token :: tokens') after) :
    ∃ between next, Advances bound before tokens between ∧ Advance bound between token next := by
  induction tokens generalizing before with
  | nil =>
    cases h with
    | cons hfirst hrest => exact ⟨_, _, .nil, hfirst⟩
  | cons first tokens ih =>
    cases h with
    | cons hfirst hrest =>
      rcases ih hrest with ⟨between, next, hrun, htoken⟩
      exact ⟨between, next, .cons hfirst hrun, htoken⟩

/-! ## Well-formed items are read -/

theorem opened_of_nests {head : Head} (h : head.nests) (levels : List Level) :
    opened head levels = .counted head.childCount :: levels := if_pos h

theorem opened_of_not_nests {head : Head} (h : ¬ head.nests) (levels : List Level) :
    opened head levels = levels := if_neg h

theorem childCount_of_not_nests {head : Head} (h : ¬ head.nests) : head.childCount = 0 := by
  unfold Head.nests at h
  unfold Head.childCount
  split
  · omega
  · omega
  · omega
  · rfl

theorem ItemTokens.advances (h : ItemTokens depth count tokens) (bound : Nat) :
    ∀ (level : Level) (levels : List Level), level.Has count → levels.length + 1 + depth ≤ bound →
      Advances bound (settle (level :: levels)) tokens (settle (level.less count :: levels)) := by
  induction h with
  | nil =>
    intro level levels _ _
    have hsame : level.less 0 = level := by cases level <;> rfl
    rw [hsame]
    exact .nil
  | @definite depth count children rest head payload hpayload hnests hchildren hrest ihc ihr =>
    intro level levels hhas hroom
    rw [settle_of_has hhas]
    have hafter : (level.less 1).Has count := Level.Has.less (Nat.add_comm count 1 ▸ hhas)
    have hlast := ihr (level.less 1) levels hafter hroom
    rw [Level.less_less, Nat.add_comm 1 count] at hlast
    have hfirst : Advance bound (level :: levels) (.item head payload)
        (settle (opened head (level.less 1 :: levels))) := by
      apply Advance.item head payload hpayload hhas.one
      intro hnest
      have hdepth := hnests hnest
      omega
    apply Advances.cons hfirst
    refine Advances.append ?_ hlast
    by_cases hnest : head.nests
    · have hdepth := hnests hnest
      have hroom : (level.less 1 :: levels).length + 1 + (depth - 1) ≤ bound := by
        rw [List.length_cons]
        omega
      have hrun := ihc (.counted head.childCount) (level.less 1 :: levels) (Nat.le_refl _) hroom
      rw [Level.less, Nat.sub_self, settle_finished] at hrun
      rw [opened_of_nests hnest]
      exact hrun
    · rw [childCount_of_not_nests hnest] at hchildren
      rw [opened_of_not_nests hnest, hchildren.eq_nil]
      exact .nil
  | @indefinite depth count inner children rest major hlow hhigh hchildren hrest ihc ihr =>
    intro level levels hhas hroom
    rw [settle_of_has hhas]
    have hafter : (level.less 1).Has count := Level.Has.less (Nat.add_comm count 1 ▸ hhas)
    have hlast := ihr (level.less 1) levels hafter hroom
    rw [Level.less_less, Nat.add_comm 1 count] at hlast
    have hinner : (level.less 1 :: levels).length + 1 + depth ≤ bound := by
      rw [List.length_cons]
      omega
    -- an unbounded level stays until its break
    have hrun := ihc .unbounded (level.less 1 :: levels) trivial hinner
    exact .cons (.start major hlow hhigh hhas.one (by omega)) (hrun.append (.cons .stop hlast))

end Cbor

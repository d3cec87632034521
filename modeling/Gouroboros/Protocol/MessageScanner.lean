import Gouroboros.Lib.CborTokens
import Gouroboros.Ledger.Common.Types

/-!
# Incremental message framing

The scanner that finds the end of a protocol message in a growing buffer
(`protocol/message_scanner.go`, `protocol/internal/cborwalk/walk.go`), and the way the read loop
calls it. The scanner keeps a stack of open items, the bytes left of a string and its offset, and
returns between any two bytes when the buffer ends; it also returns once it has read the message
type, so that the caller can check it.

Offsets, lengths and counts are natural numbers: the source's `int` and `uint64` hold them, since a
buffer is shorter than `2^63` bytes. Frames are listed from the innermost. The loop of `scan` has no
bound in the source; here it takes the fuel of `scanFuel`, which is always enough
(`scan_returns`).
-/

namespace Gouroboros.Protocol

open Ledger (ByteString)

inductive ScanError where
  | invalidIndefinite
  | invalidAdditional
  | shrank
  | notArray
  | typeNotUnsigned
  | typeExceedsUint
  | invalidInteger
  | unexpectedBreak
  | mapLengthOverflows
  | invalidTag
  | nestingExceeds (maxNestedLevels : Nat)
  | invalidMajor (major : Nat)
  | diverges
deriving DecidableEq

/-! ## Heads -/

/-- `cborwalk.Head`. -/
structure WalkHead where
  major : Nat
  argument : Nat
  indefinite : Bool
  isBreak : Bool
  encodedSize : Nat
deriving DecidableEq

/-- Nothing while bytes of the head are missing. The argument has one, two, four or eight bytes. -/
def readHead (data : ByteString) (offset : Nat) : Except ScanError (Option WalkHead) :=
  match data.drop offset with
  | [] => .ok none
  | first :: rest =>
    let major := first.toNat / 32
    let additional := first.toNat % 32
    if additional < 24 then .ok (some ⟨major, additional, false, false, 1⟩)
    else if additional < 28 then
      let size := 2 ^ (additional - 24)
      if rest.length < size then .ok none
      else .ok (some ⟨major, Cbor.bigEndian (rest.take size), false, false, size + 1⟩)
    else if additional = 31 then
      if major = 7 then .ok (some ⟨major, 0, false, true, 1⟩)
      else if major < 2 ∨ major > 5 then .error .invalidIndefinite
      else .ok (some ⟨major, 0, true, false, 1⟩)
    else .error .invalidAdditional

/-! ## The scanner -/

structure MessageScanFrame where
  remaining : Nat
  indefinite : Bool
deriving DecidableEq

structure MessageScanner where
  offset : Nat
  frames : List MessageScanFrame
  started : Bool
  complete : Bool
  pendingBytes : Nat
  rootItems : Nat
  messageType : Nat
  hasMessageType : Bool
deriving DecidableEq

structure MessageScanResult where
  messageType : Nat
  hasMessageType : Bool
  started : Bool
  messageLength : Nat
  complete : Bool
  oversized : Bool
deriving DecidableEq

/-- `messageScanner{}`. -/
def MessageScanner.new : MessageScanner := ⟨0, [], false, false, 0, 0, 0, false⟩

def closeFrames : List MessageScanFrame → List MessageScanFrame
  | frame :: frames =>
    if frame.indefinite = true ∨ frame.remaining > 0 then frame :: frames else closeFrames frames
  | [] => []

namespace MessageScanner

def pushFrame (maxNestedLevels : Nat) (s : MessageScanner) (frame : MessageScanFrame) :
    Except ScanError MessageScanner :=
  if s.frames.length ≥ maxNestedLevels then .error (.nestingExceeds maxNestedLevels)
  else .ok { s with frames := frame :: s.frames }

def finishItem (s : MessageScanner) : MessageScanner :=
  { s with
    frames := closeFrames s.frames
    complete := s.complete || (closeFrames s.frames).isEmpty }

def exceedsLimit (maxBytes : Int) (s : MessageScanner) : Bool :=
  if maxBytes ≤ 0 then false
  else if s.offset > maxBytes then true
  else decide (s.pendingBytes > maxBytes - s.offset)

def result (maxBytes : Int) (s : MessageScanner) : MessageScanResult where
  messageType := s.messageType
  hasMessageType := s.hasMessageType
  started := s.started
  messageLength := s.offset
  complete := s.complete
  oversized := s.exceedsLimit maxBytes

end MessageScanner

/-- What one round of the loop does: go on, return at the message type, return for want of bytes, or
return for good. -/
inductive ScanStep where
  | again (s : MessageScanner)
  | early (s : MessageScanner)
  | starved (s : MessageScanner)
  | final (s : MessageScanner) (err : Option ScanError)
deriving DecidableEq

def ScanStep.scanner : ScanStep → MessageScanner
  | again s => s
  | early s => s
  | starved s => s
  | final s _ => s

/-- A finished item ends the scan if it was the last. -/
def ScanStep.finished (s : MessageScanner) : ScanStep := if s.complete then .final s none else .again s

def scanPending (data : ByteString) (s : MessageScanner) : ScanStep :=
  let consumed := min (data.length - s.offset) s.pendingBytes
  let s := { s with offset := s.offset + consumed, pendingBytes := s.pendingBytes - consumed }
  if s.pendingBytes > 0 then .starved s else .finished s.finishItem

def scanRoot (maxNestedLevels : Nat) (data : ByteString) (maxBytes : Int) (s : MessageScanner) :
    ScanStep :=
  match readHead data s.offset with
  | .error err => .final s (some err)
  | .ok none => .starved s
  | .ok (some head) =>
    if head.major ≠ 4 ∨ head.isBreak then .final s (some .notArray)
    else
      let s := { s with offset := s.offset + head.encodedSize }
      if s.exceedsLimit maxBytes then .final s none
      else
        let s := { s with started := true }
        match s.pushFrame maxNestedLevels ⟨head.argument, head.indefinite⟩ with
        | .error err => .final s (some err)
        | .ok s => if head.indefinite then .again s else .finished s.finishItem

def scanInteger (head : WalkHead) (s : MessageScanner) : Except ScanError MessageScanner :=
  if head.indefinite ∨ head.isBreak then .error .invalidInteger else .ok s.finishItem

/-- A string: its chunks up to a break, or its bytes. -/
def scanString (maxNestedLevels : Nat) (head : WalkHead) (s : MessageScanner) :
    Except ScanError MessageScanner :=
  if head.isBreak then .error .unexpectedBreak
  else if head.indefinite then s.pushFrame maxNestedLevels ⟨0, true⟩
  else if head.argument = 0 then .ok { s with pendingBytes := 0 }.finishItem
  else .ok { s with pendingBytes := head.argument }

/-- A frame for the items of an array or a map, which may have none. -/
def scanNested (maxNestedLevels children : Nat) (head : WalkHead) (s : MessageScanner) :
    Except ScanError MessageScanner :=
  match s.pushFrame maxNestedLevels ⟨children, head.indefinite⟩ with
  | .error err => .error err
  | .ok s => .ok s.finishItem

/-- What follows the head of an item, by its major type. -/
def scanContent (maxNestedLevels : Nat) (head : WalkHead) (s : MessageScanner) :
    Except ScanError MessageScanner :=
  match head.major with
  | 0 => scanInteger head s
  | 1 => scanInteger head s
  | 2 => scanString maxNestedLevels head s
  | 3 => scanString maxNestedLevels head s
  | 4 =>
    if head.isBreak then .error .unexpectedBreak
    else scanNested maxNestedLevels head.argument head s
  | 5 =>
    if head.isBreak then .error .unexpectedBreak
    else if head.indefinite = false ∧ head.argument > (2 ^ 64 - 1) / 2 then
      .error .mapLengthOverflows
    else scanNested maxNestedLevels (head.argument * 2) head s
  | 6 =>
    if head.indefinite ∨ head.isBreak then .error .invalidTag
    else s.pushFrame maxNestedLevels ⟨1, false⟩
  | 7 => if head.isBreak then .error .unexpectedBreak else .ok s.finishItem
  | major => .error (.invalidMajor major)

/-- The scanner past the head of an item of `parent`. -/
def MessageScanner.readItemHead (s : MessageScanner) (parent : MessageScanFrame)
    (outer : List MessageScanFrame) (head : WalkHead) : MessageScanner :=
  let firstRootItem := outer.isEmpty && s.rootItems == 0
  { s with
    messageType := if firstRootItem then head.argument else s.messageType
    hasMessageType := s.hasMessageType || firstRootItem
    frames :=
      (if parent.indefinite then parent else { parent with remaining := parent.remaining - 1 }) ::
        outer
    rootItems := if outer.isEmpty then s.rootItems + 1 else s.rootItems
    offset := s.offset + head.encodedSize }

/-- The head of an item of `parent`, the innermost frame; the first item is the message type. -/
def scanItem (maxNestedLevels : Nat) (data : ByteString) (maxBytes : Int) (s : MessageScanner)
    (parent : MessageScanFrame) (outer : List MessageScanFrame) : ScanStep :=
  match readHead data s.offset with
  | .error err => .final s (some err)
  | .ok none => .starved s
  | .ok (some head) =>
    let firstRootItem := outer.isEmpty && s.rootItems == 0
    if firstRootItem ∧ (head.major ≠ 0 ∨ head.indefinite ∨ head.isBreak) then
      .final s (some .typeNotUnsigned)
    else if firstRootItem ∧ head.argument > 2 ^ 64 - 1 then .final s (some .typeExceedsUint)
    else
      let s := s.readItemHead parent outer head
      if s.exceedsLimit maxBytes then .final s none
      else
        match scanContent maxNestedLevels head s with
        | .error err => .final s (some err)
        | .ok s => if firstRootItem then .early s else .finished s

def scanInside (maxNestedLevels : Nat) (data : ByteString) (maxBytes : Int) (s : MessageScanner) :
    ScanStep :=
  match s.frames with
  | [] => .final { s with complete := true } none
  | parent :: outer =>
    if s.offset ≥ data.length then .starved s
    else if parent.indefinite = true ∧ data[s.offset]? = some 0xff then
      .finished { s with offset := s.offset + 1, frames := outer }.finishItem
    else if parent.indefinite = false ∧ parent.remaining = 0 then
      .finished { s with frames := outer }.finishItem
    else scanItem maxNestedLevels data maxBytes s parent outer

/-- One round of the loop of `scan`. -/
def scanStep (maxNestedLevels : Nat) (data : ByteString) (maxBytes : Int) (s : MessageScanner) :
    ScanStep :=
  if s.exceedsLimit maxBytes then .final s none
  else if s.pendingBytes > 0 then scanPending data s
  else if s.started = false then scanRoot maxNestedLevels data maxBytes s
  else scanInside maxNestedLevels data maxBytes s

structure ScanReturn where
  scanner : MessageScanner
  err : Option ScanError
deriving DecidableEq

def scanLoop (maxNestedLevels : Nat) (data : ByteString) (maxBytes : Int) :
    Nat → MessageScanner → ScanReturn
  | 0, s => ⟨s, some .diverges⟩
  | fuel + 1, s =>
    match scanStep maxNestedLevels data maxBytes s with
    | .again s => scanLoop maxNestedLevels data maxBytes fuel s
    | .early s => ⟨s, none⟩
    | .starved s => ⟨s, none⟩
    | .final s err => ⟨s, err⟩

/-- Every round takes a byte or closes a frame. -/
def scanFuel (data : ByteString) (s : MessageScanner) : Nat :=
  2 * (data.length - s.offset) + s.frames.length

def scan (maxNestedLevels : Nat) (data : ByteString) (maxBytes : Int) (s : MessageScanner) :
    ScanReturn :=
  if s.complete then ⟨s, none⟩
  else if s.offset > data.length then ⟨s, some .shrank⟩
  else scanLoop maxNestedLevels data maxBytes (scanFuel data s + 1) s

/-! ## The calls of the read loop -/

/-- A call of `scan`: the bytes in the buffer and what it returned. -/
structure ScanCall where
  present : Nat
  result : MessageScanResult
  err : Option ScanError
deriving DecidableEq

def ScanReturn.call (present : Nat) (maxBytes : Int) (r : ScanReturn) : ScanCall :=
  ⟨present, r.scanner.result maxBytes, r.err⟩

/-- The calls while chunks arrive. After each chunk the scanner is called, and once more when it has
returned the message type for the first time; an error ends the calls. -/
def feed (maxNestedLevels : Nat) (maxBytes : Int) :
    MessageScanner → Bool → ByteString → List ByteString → List ScanCall
  | _, _, _, [] => []
  | s, checked, buffer, chunk :: chunks =>
    let buffer := buffer ++ chunk
    let first := scan maxNestedLevels buffer maxBytes s
    let firstCall := first.call buffer.length maxBytes
    if first.err.isSome then [firstCall]
    else if first.scanner.hasMessageType && !checked then
      let second := scan maxNestedLevels buffer maxBytes first.scanner
      let secondCall := second.call buffer.length maxBytes
      if second.err.isSome then [firstCall, secondCall]
      else firstCall :: secondCall :: feed maxNestedLevels maxBytes second.scanner true buffer chunks
    else firstCall :: feed maxNestedLevels maxBytes first.scanner checked buffer chunks

/-- All calls for one message. -/
def feedAll (maxNestedLevels : Nat) (maxBytes : Int) (chunks : List ByteString) : List ScanCall :=
  feed maxNestedLevels maxBytes .new false [] chunks

end Gouroboros.Protocol

import AntContest.Brain.Basic
import AntContest.Brain.Keyword
import AntContest.Text.Decimal
import AntContest.Text.Pieces
import AntContest.Text.Quoted

/-!
# Reading brains

A brain text is read line by line.  A semicolon starts a comment, and a line whose first visible
character is `#` is a comment as a whole; lines without words are skipped.  Every other line is
one instruction, in any case, with its words separated by gaps.  A marker condition is written as
one word or as two.

* `Instruction.ofWords` reads the words of a line.
* `Brain.read` reads a text.  The first bad line is reported; only if there is none, an empty or
  too long program is.
-/

namespace AntContest

inductive Operand where
  | view
  | condition
  | side
  | state
  | marker
  | die
deriving DecidableEq, Repr

/-- What an operand has to be. -/
def Operand.expectation : Operand → String
  | view => "HERE, AHEAD, LEFTAHEAD or RIGHTAHEAD"
  | condition => "a sense condition"
  | side => "LEFT or RIGHT"
  | state => "a state index in 0..=9999"
  | marker => "a marker in 0..=5"
  | die => "a positive integer"

/-- What is wrong with a line. -/
inductive LineError where
  /-- The first word begins no instruction. -/
  | unknownInstruction (word : String)
  /-- There are more or fewer words than the instruction takes, itself included. -/
  | wordCount (opcode : Opcode) (expected found : Nat)
  /-- A word is no operand of its kind. -/
  | badOperand (word : String) (operand : Operand)
deriving DecidableEq, Repr

def LineError.message : LineError → String
  | unknownInstruction word => s!"unknown instruction: {word}"
  | wordCount opcode expected found => s!"{opcode.word} takes {expected} tokens, found {found}"
  | badOperand word operand =>
    "bad argument " ++ Text.quoted word.toList ++ s!": expected {operand.expectation}"

/-- What is wrong with a text that is no brain. -/
inductive BrainError where
  /-- The line of this number, counted from one, is bad. -/
  | atLine (number : Nat) (cause : LineError)
  /-- There are more states than a brain can have. -/
  | tooManyStates (count : Nat)
  /-- There is no state. -/
  | noStates
deriving DecidableEq, Repr

def BrainError.message : BrainError → String
  | atLine number cause => s!"line {number}: {cause.message}"
  | tooManyStates count => s!"too many states: {count}"
  | noStates => "program has no states"

/-- The line of an error, or zero if it is about the program as a whole. -/
def BrainError.line : BrainError → Nat
  | atLine number _ => number
  | _ => 0

open Text

namespace Operand

/-- An operand that could be read, or the error that the word is none. -/
def orBad {α : Type} (operand : Operand) (word : List Char) : Option α → Except LineError α
  | some a => .ok a
  | none => .error (.badOperand (String.ofList word) operand)

def readState (word : List Char) : Except LineError StateIndex :=
  state.orBad word <| (natBelow? Position.limit word).bind fun n =>
    if h : n < stateLimit then some ⟨n, h⟩ else none

def readMarker (word : List Char) : Except LineError Marker :=
  marker.orBad word <| (natBelow? UInt8.size word).bind fun n =>
    if h : n < 6 then some ⟨n, h⟩ else none

def readDie (word : List Char) : Except LineError Die :=
  die.orBad word <| (natBelow? UInt32.size word).bind fun n =>
    if h : UInt32.ofNat n ≠ 0 then some ⟨.ofNat n, h⟩ else none

def readView (word : List Char) : Except LineError View :=
  view.orBad word (View.ofWord? word)

def readSide (word : List Char) : Except LineError TurnSide :=
  side.orBad word (TurnSide.ofWord? word)

/-- What follows the marker word in a longer word that begins with it. -/
def markerSuffix? (word : List Char) : Option (List Char) :=
  let key := Condition.markerWord.toList
  if key.isPrefixOf word && key.length < word.length then some (word.drop key.length) else none

/-- Reads a condition of one word. -/
def readCondition (word : List Char) : Except LineError Condition :=
  match Condition.ofPlainWord? word with
  | some c => .ok c
  | none =>
    match markerSuffix? word with
    | some number => (readMarker number).map .marker
    | none => .error (.badOperand (String.ofList word) condition)

end Operand

namespace Instruction

/-- Reads an instruction, given the words of its line after the first.  The count of words is
checked first, then the operands from left to right; a condition comes before the operands in
front of it. -/
def ofOperands (opcode : Opcode) (operands : List (List Char)) : Except LineError Instruction :=
  match opcode, operands with
  | .sense, [view, onTrue, onFalse, condition] => do
    if condition = Condition.markerWord.toList then throw (.wordCount .sense 6 5)
    let condition ← Operand.readCondition condition
    return .sense (← Operand.readView view) (← Operand.readState onTrue)
      (← Operand.readState onFalse) condition
  | .sense, [view, onTrue, onFalse, key, m] => do
    if key ≠ Condition.markerWord.toList then throw (.wordCount .sense 5 6)
    let m ← Operand.readMarker m
    return .sense (← Operand.readView view) (← Operand.readState onTrue)
      (← Operand.readState onFalse) (.marker m)
  | .sense, _ =>
    let expected := if operands[3]? = some Condition.markerWord.toList then 6 else 5
    .error (.wordCount .sense expected (operands.length + 1))
  | .mark, [m, next] => return .mark (← Operand.readMarker m) (← Operand.readState next)
  | .unmark, [m, next] => return .unmark (← Operand.readMarker m) (← Operand.readState next)
  | .pickUp, [onSuccess, onFailure] =>
    return .pickUp (← Operand.readState onSuccess) (← Operand.readState onFailure)
  | .drop, [next] => return .drop (← Operand.readState next)
  | .turn, [side, next] => return .turn (← Operand.readSide side) (← Operand.readState next)
  | .move, [onSuccess, onFailure] =>
    return .move (← Operand.readState onSuccess) (← Operand.readState onFailure)
  | .flip, [die, onZero, onOther] =>
    return .flip (← Operand.readDie die) (← Operand.readState onZero) (← Operand.readState onOther)
  | .drop, _ => .error (.wordCount .drop 2 (operands.length + 1))
  | .flip, _ => .error (.wordCount .flip 4 (operands.length + 1))
  | opcode, _ => .error (.wordCount opcode 3 (operands.length + 1))

/-- Reads the words of a line; a line without words holds no instruction. -/
def ofWords : List (List Char) → Except LineError (Option Instruction)
  | [] => .ok none
  | word :: operands =>
    match Opcode.ofWord? word with
    | none => .error (.unknownInstruction (String.ofList word))
    | some opcode => (ofOperands opcode operands).map some

end Instruction

namespace Brain

/-- The words of a line, in upper case, without its comment. -/
def lineWords (line : List Char) : List (List Char) :=
  let code := before ';' line
  if (dropBlanks code).head? = some '#' then [] else words (code.map Char.toUpper)

/-- Reads the lines from number `n` on. -/
def readLines : Nat → List (List Char) → Except BrainError (List Instruction)
  | _, [] => .ok []
  | n, line :: rest =>
    match Instruction.ofWords (lineWords line) with
    | .error cause => .error (.atLine n cause)
    | .ok none => readLines (n + 1) rest
    | .ok (some instruction) => (readLines (n + 1) rest).map (instruction :: ·)

/-- A brain with the given states, if their number allows it. -/
def ofStates (name : String) (states : Array Instruction) : Except BrainError Brain :=
  if h : 0 < states.size then
    if h' : states.size ≤ stateLimit then .ok ⟨name, states, h, h'⟩
    else .error (.tooManyStates states.size)
  else .error .noStates

/-- Reads a brain text under a name. -/
def read (name text : String) : Except BrainError Brain := do
  let states ← readLines 1 (lines text.toList)
  ofStates name states.toArray

end Brain

end AntContest

import AntContest.Command.Usage

/-!
# Switches and operands of a command line

A command line consists of switches, with or without a value, and of operands.  A switch is written
in long form with two dashes or in short form with one; short switches without a value can be run
together.  A value follows its switch as the next argument, after an equals sign, or directly
after a short switch, and as an argument of its own it must not begin with a dash.  After two
dashes alone everything is an operand.

`readArguments` reads a command line from left to right and stops at the first thing it must
refuse, or at a switch that asks for help.
-/

namespace AntContest

/-- The arguments read so far: the values by the long names of their switches, the operands, and
how many of them stand in the present row. -/
structure Arguments where
  values : List (String × String) := []
  operands : List String := []
  row : Nat := 0
deriving DecidableEq, Repr

/-- Why no arguments come of a command line: it is refused, or it asks for help, in full or in
brief. -/
inductive Ending where
  | refused
  | help (full : Bool)
deriving DecidableEq, Repr

namespace Arguments

def value? (a : Arguments) (long : String) : Option String :=
  a.values.lookup long

def has (a : Arguments) (long : String) : Bool :=
  (a.value? long).isSome

/-- Adds a switch with its value; no switch is given twice. -/
def addValue (a : Arguments) (long value : String) : Except Ending Arguments :=
  if a.has long then .error .refused
  else .ok { a with values := (long, value) :: a.values }

/-- Adds an operand, if there may be one more; operands are paths. -/
def addOperand (usage : Usage) (a : Arguments) (operand : String) : Except Ending Arguments :=
  if !ValueKind.path.accepts operand || usage.operands.most?.any (· ≤ a.operands.length) then
    .error .refused
  else .ok { a with operands := a.operands ++ [operand], row := a.row + 1 }

/-- Ends a row of operands, which must not be too short. -/
def endRow (usage : Usage) (a : Arguments) : Except Ending Arguments :=
  if 0 < a.row ∧ a.row < usage.operands.inRow then .error .refused else .ok { a with row := 0 }

/-- The arguments, if there are enough operands. -/
def finish (usage : Usage) (a : Arguments) : Except Ending Arguments := do
  let a ← a.endRow usage
  if a.operands.length < usage.operands.least then throw .refused
  return a

/-- Adds a switch that takes a value. -/
def addChecked (a : Arguments) (s : Switch) (kind : ValueKind) (value : String) :
    Except Ending Arguments :=
  if kind.accepts value then a.addValue s.long value else .error .refused

end Arguments

/-- Whether an argument is a switch, or two dashes alone. -/
def isSwitch (argument : String) : Bool :=
  match argument.toList with
  | '-' :: _ :: _ => true
  | _ => false

/-- What short switches leave: nothing, or a switch whose value is the next argument. -/
abbrev Pending := Option (Switch × ValueKind)

/-- Reads short switches that are run together. -/
def readCluster (usage : Usage) : List Char → Arguments → Except Ending (Arguments × Pending)
  | [], a => .ok (a, none)
  | c :: cs, a =>
    if c = 'h' then .error (.help false)
    else
      match usage.switches.find? (·.short? == some c) with
      | none => .error .refused
      | some s =>
        match s.kind?, cs with
        | none, _ => do readCluster usage cs (← a.addValue s.long "")
        | some kind, [] => .ok (a, some (s, kind))
        | some kind, '=' :: value => do
          return (← a.addChecked s kind (String.ofList value), none)
        | some kind, value => do return (← a.addChecked s kind (String.ofList value), none)

/-- Reads a long switch, given what stands behind its dashes. -/
def readLong (usage : Usage) (text : List Char) (a : Arguments) :
    Except Ending (Arguments × Pending) := do
  let name := String.ofList (text.takeWhile (· != '='))
  let value? := ((text.dropWhile (· != '=')).tail?).map String.ofList
  if name = "help" then
    if value?.isSome then throw .refused else throw (.help true)
  let some s := usage.switches.find? (·.long == name) | throw .refused
  match s.kind?, value? with
  | none, none => return (← a.addValue s.long "", none)
  | none, some _ => throw .refused
  | some kind, some value => return (← a.addChecked s kind value, none)
  | some kind, none => return (a, some (s, kind))

/-- Reads arguments up to the end of a command line. -/
def readArguments (usage : Usage) : List String → Arguments → Pending →
    Except Ending Arguments
  | [], a, none => a.finish usage
  | [], _, some _ => .error .refused
  | argument :: rest, a, some (s, kind) =>
    if isSwitch argument then .error .refused
    else do readArguments usage rest (← a.addChecked s kind argument) none
  | argument :: rest, a, none =>
    match argument.toList with
    | ['-', '-'] => do (← rest.foldlM (Arguments.addOperand usage) a).finish usage
    | '-' :: '-' :: text => do
      let (a, pending) ← readLong usage text (← a.endRow usage)
      readArguments usage rest a pending
    | '-' :: c :: cs => do
      let (a, pending) ← readCluster usage (c :: cs) (← a.endRow usage)
      readArguments usage rest a pending
    | _ => do readArguments usage rest (← a.addOperand usage argument) none

end AntContest

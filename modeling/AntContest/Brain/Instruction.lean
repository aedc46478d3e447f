import AntContest.Hex
import AntContest.Ground.Cell

/-!
# The instructions of a brain

A brain is a program of numbered states, each with one instruction.  `Instruction.targets` lists
the states that an instruction can lead to; there are at most ten thousand states, so a target is
a number below that, but it may still point past the end of a shorter program.
-/

namespace AntContest

/-- The most states that a brain can have. -/
def stateLimit : Nat := 10000

/-- The number of a state. -/
abbrev StateIndex := Fin stateLimit

/-- The cell that an ant looks at, relative to its facing. -/
inductive View where
  | here
  | ahead
  | leftAhead
  | rightAhead
deriving DecidableEq, Repr

namespace View

/-- The direction to look in, or none for the ant's own cell. -/
def direction? (v : View) (facing : Direction) : Option Direction :=
  match v with
  | here => none
  | ahead => some facing
  | leftAhead => some facing.left
  | rightAhead => some facing.right

end View

/-- What an ant can tell about a cell.  Friends and homes are those of its own colony, markers
are its own colony's. -/
inductive Condition where
  | friend
  | foe
  | friendWithFood
  | foeWithFood
  | food
  | rock
  | marker (m : Marker)
  | foeMarker
  | home
  | foeHome
deriving DecidableEq, Repr

/-- The side that an ant turns to. -/
inductive TurnSide where
  | left
  | right
deriving DecidableEq, Repr

/-- The facing after a turn. -/
def TurnSide.turn : TurnSide → Direction → Direction
  | left, d => d.left
  | right, d => d.right

/-- The number of sides of a die, at least one. -/
abbrev Die := { n : UInt32 // n ≠ 0 }

/-- One instruction with the states that it leads to. -/
inductive Instruction where
  /-- Tests a condition on a cell. -/
  | sense (view : View) (onTrue onFalse : StateIndex) (condition : Condition)
  /-- Sets a marker of the own colony on the ant's cell. -/
  | mark (m : Marker) (next : StateIndex)
  /-- Clears a marker of the own colony on the ant's cell. -/
  | unmark (m : Marker) (next : StateIndex)
  /-- Picks one particle of food up. -/
  | pickUp (onSuccess onFailure : StateIndex)
  /-- Drops the carried particle, if there is one. -/
  | drop (next : StateIndex)
  /-- Turns by one direction. -/
  | turn (side : TurnSide) (next : StateIndex)
  /-- Steps onto the cell ahead. -/
  | move (onSuccess onFailure : StateIndex)
  /-- Throws a die. -/
  | flip (die : Die) (onZero onOther : StateIndex)
deriving DecidableEq, Repr

namespace Instruction

/-- The states that an instruction can lead to. -/
def targets : Instruction → List StateIndex
  | sense _ onTrue onFalse _ => [onTrue, onFalse]
  | mark _ next => [next]
  | unmark _ next => [next]
  | pickUp onSuccess onFailure => [onSuccess, onFailure]
  | drop next => [next]
  | turn _ next => [next]
  | move onSuccess onFailure => [onSuccess, onFailure]
  | flip _ onZero onOther => [onZero, onOther]

end Instruction

end AntContest

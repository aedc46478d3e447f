import AntContest.Brain.Basic
import AntContest.Brain.Keyword

/-!
# Brains as text

The canonical text of a brain has one line per state: the word of the instruction and its
operands, separated by single spaces.  `Brain.read` gives the brain back from it.
-/

namespace AntContest

/-- The line of an instruction, without its end. -/
def Instruction.text : Instruction → String
  | .sense view onTrue onFalse condition =>
    s!"{Opcode.sense.word} {view.word} {onTrue.val} {onFalse.val} {condition.text}"
  | .mark m next => s!"{Opcode.mark.word} {m.val} {next.val}"
  | .unmark m next => s!"{Opcode.unmark.word} {m.val} {next.val}"
  | .pickUp onSuccess onFailure => s!"{Opcode.pickUp.word} {onSuccess.val} {onFailure.val}"
  | .drop next => s!"{Opcode.drop.word} {next.val}"
  | .turn side next => s!"{Opcode.turn.word} {side.word} {next.val}"
  | .move onSuccess onFailure => s!"{Opcode.move.word} {onSuccess.val} {onFailure.val}"
  | .flip die onZero onOther =>
    s!"{Opcode.flip.word} {die.val.toNat} {onZero.val} {onOther.val}"

/-- The canonical text of a brain. -/
def Brain.source (b : Brain) : String :=
  String.join (b.states.toList.map fun instruction => instruction.text ++ "\n")

end AntContest

import AntContest.Brain.Instruction

/-!
# Brains

A brain is a named program with at least one state and at most `stateLimit` of them.
`Brain.dangling` lists the jumps past its end: such a program can be read and played, and an ant
that follows such a jump is lost.
-/

namespace AntContest

/-- A named program. -/
structure Brain where
  name : String
  states : Array Instruction
  size_pos : 0 < states.size
  size_le : states.size ≤ stateLimit
deriving DecidableEq

namespace Brain

def size (b : Brain) : Nat :=
  b.states.size

/-- The instruction of a state, unless the state lies past the end. -/
def state? (b : Brain) (i : Nat) : Option Instruction :=
  b.states[i]?

/-- All jumps of the program, as pairs of a state and a state it can lead to. -/
def jumps (b : Brain) : List (Nat × StateIndex) :=
  b.states.toList.zipIdx.flatMap fun (instruction, i) => instruction.targets.map fun t => (i, t)

/-- The jumps past the end of the program. -/
def dangling (b : Brain) : List (Nat × StateIndex) :=
  b.jumps.filter fun (_, target) => b.size ≤ target.val

end Brain

end AntContest

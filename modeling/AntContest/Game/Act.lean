import AntContest.Game.Basic

/-!
# What an ant does

In its slot of a turn an ant follows the instruction of its state and goes over to the next one.
It touches its own cell at most, and the cell ahead when it moves.  An ant whose state lies past
the end of its program has no instruction to follow: that is a fault, and nothing changes.
-/

namespace AntContest

/-- An ant whose state lies past the end of its program. -/
structure Fault where
  ant : Nat
  position : Position
  state : StateIndex
  programSize : Nat
deriving DecidableEq, Repr

def Fault.message (f : Fault) : String :=
  s!"ant {f.ant} at {f.position} jumped to state {f.state.val} of a {f.programSize}-state program"

namespace Game

/-- Whether a condition holds at a position, for an ant of a colony; off the ground none does. -/
def senses (g : Game) (p : Position) (condition : Condition) (c : Colony) : Bool :=
  match g.ground.cell? p with
  | none => false
  | some cell =>
    let other := g.antOn? cell
    match condition with
    | .friend => other.any (·.colony == c)
    | .foe => other.any (·.colony != c)
    | .friendWithFood => other.any fun a => a.colony == c && a.carrying
    | .foeWithFood => other.any fun a => a.colony != c && a.carrying
    | .food => cell.food != 0
    | .rock => cell.terrain == .rock
    | .marker m => (cell.marks c).contains m
    | .foeMarker => !(cell.marks c.foe).isEmpty
    | .home => cell.terrain.isHillOf c
    | .foeHome => cell.terrain.isHillOf c.foe

/-- The position that an ant looks at, if it is on the ground. -/
def viewed? (g : Game) (ant : Ant) (view : View) : Option Position :=
  match view.direction? ant.facing with
  | none => some ant.position
  | some d => g.ground.adjacent? ant.position d

/-- The position ahead of an ant, if the ant could step there. -/
def stepTarget? (g : Game) (ant : Ant) : Option Position :=
  (g.ground.adjacent? ant.position ant.facing).filter fun q => (g.ground.cell? q).any Cell.isFree

/-- Moves ant `i` to another cell. -/
def relocate (g : Game) (i : Nat) (source target : Position) : Game :=
  ((g.modifyCell source (·.withOccupant none)).modifyCell target
    (·.withOccupant (some i))).modifyAnt i ({ · with position := target })

/-- Follows an instruction with ant `i`; the result is the next state and the game, in which the
ant is still in its old state. -/
def perform (g : Game) (i : Nat) (ant : Ant) : Instruction → StateIndex × Game
  | .sense view onTrue onFalse condition =>
    (if (g.viewed? ant view).any (g.senses · condition ant.colony) then onTrue else onFalse, g)
  | .mark m next =>
    (next, g.modifyCell ant.position (·.modifyMarks ant.colony (·.insert m)))
  | .unmark m next =>
    (next, g.modifyCell ant.position (·.modifyMarks ant.colony (·.erase m)))
  | .pickUp onSuccess onFailure =>
    match if ant.carrying then none else (g.ground.cell? ant.position).bind Cell.take? with
    | none => (onFailure, g)
    | some cell =>
      (onSuccess,
        (g.modifyCell ant.position fun _ => cell).modifyAnt i ({ · with carrying := true }))
  | .drop next =>
    if ant.carrying && g.ground.contains ant.position then
      (next, (g.modifyCell ant.position (·.gain 1)).modifyAnt i ({ · with carrying := false }))
    else (next, g)
  | .turn side next =>
    (next, g.modifyAnt i ({ · with facing := side.turn ant.facing }))
  | .move onSuccess onFailure =>
    match g.stepTarget? ant with
    | none => (onFailure, g)
    | some target =>
      let rest := g.config.restAfterMove.toNat
      (onSuccess,
        (g.relocate i ant.position target).modifyAnt i ({ · with resting := rest }))
  | .flip die onZero onOther =>
    let (value, random) := g.random.draw die.val
    (if value = 0 then onZero else onOther, { g with random })

/-- Follows the instruction of an ant's state.  With a fault the game is as it was. -/
@[inline] def act (g : Game) (teams : Teams) (i : Nat) (ant : Ant) : Game × Option Fault :=
  let brain := teams.brain ant.colony
  match brain.state? ant.state.val with
  | none => (g, some ⟨i, ant.position, ant.state, brain.size⟩)
  | some instruction =>
    let (next, g) := g.perform i ant instruction
    (g.modifyAnt i ({ · with state := next }), none)

end Game

end AntContest

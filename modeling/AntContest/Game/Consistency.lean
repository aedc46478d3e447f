import AntContest.Game.Basic
import AntContest.Game.Encirclement

/-!
# Checking the consistency of a game

Cells name their ants and ants name their cells, rock is bare, the dead carry nothing, and food is
neither made nor lost except by encirclement.  `Game.violations` lists every breach, cell by cell,
then ant by ant, and last the balance of food.
-/

namespace AntContest

/-- A breach of consistency. -/
inductive Violation where
  | unknownAnt (p : Position) (ant : Nat)
  | deadAnt (p : Position) (ant : Nat)
  | elsewhere (p : Position) (ant : Nat) (claimed : Position)
  | onRock (p : Position) (ant : Nat)
  | rockNotBare (p : Position)
  | notOnItsCell (ant : Nat) (p : Position) (occupant : Option Nat)
  | deadCarries (ant : Nat)
  | foodNotConserved (present expected : Nat)
deriving DecidableEq, Repr

namespace Violation

/-- The number of an ant in a message, if there is one. -/
def occupantText : Option Nat → String
  | none => "None"
  | some i => s!"Some({i})"

def message : Violation → String
  | unknownAnt p i => s!"Invariant violation: Cell {p} holds unknown ant {i}"
  | deadAnt p i => s!"Invariant violation: Cell {p} holds dead ant {i}"
  | elsewhere p i q =>
    s!"Invariant violation: Cell {p} holds ant {i} which thinks it is at {q}"
  | onRock p i => s!"Invariant violation: Ant {i} stands on rock at {p}"
  | rockNotBare p => s!"Invariant violation: Rock at {p} carries food or markers"
  | notOnItsCell i p o =>
    s!"Invariant violation: Living ant {i} at {p} is not on its cell " ++
      s!"(occupant {occupantText o})"
  | deadCarries i => s!"Invariant violation: Dead ant {i} still carries food"
  | foodNotConserved present expected =>
    s!"Invariant violation: Food not conserved: {present} present, {expected} expected"

end Violation

namespace Game

/-- The breach in how a cell names its ant. -/
def occupantViolation? (g : Game) (p : Position) (i : Nat) : Option Violation :=
  match g.ants[i]? with
  | none => some (.unknownAnt p i)
  | some ant =>
    if !ant.alive then some (.deadAnt p i)
    else if ant.position ≠ p then some (.elsewhere p i ant.position)
    else none

def cellViolations (g : Game) (p : Position) (cell : Cell) : List Violation :=
  (match cell.occupant with
    | none => []
    | some i =>
      (g.occupantViolation? p i).toList ++
        if cell.terrain = .rock then [.onRock p i] else []) ++
  (if cell.terrain = .rock ∧
      (cell.food ≠ 0 ∨ !cell.redMarks.isEmpty ∨ !cell.blackMarks.isEmpty) then
    [.rockNotBare p]
  else [])

def antViolations (g : Game) (ant : Ant) : List Violation :=
  let occupant := (g.ground.cell? ant.position).bind (·.occupant)
  (if ant.alive ∧ occupant ≠ some ant.id then [.notOnItsCell ant.id ant.position occupant]
    else []) ++
    (if !ant.alive ∧ ant.carrying then [.deadCarries ant.id] else [])

/-- Food that there is, on the ground and with the living. -/
def foodPresent (g : Game) : Nat :=
  g.ground.totalFood + g.carriedFood

/-- Food that there should be. -/
def foodExpected (g : Game) : Nat :=
  g.initialFood + g.encircled * encirclementBonus.toNat

def violations (g : Game) : List Violation :=
  g.ground.entries.flatMap (fun (p, cell) => g.cellViolations p cell) ++
    g.ants.toList.flatMap g.antViolations ++
    (if g.foodPresent ≠ g.foodExpected then
      [.foodNotConserved g.foodPresent g.foodExpected]
    else [])

end Game

end AntContest

import AntContest.Game.Basic

/-!
# Turn dumps

A dump lists every cell of a game in one line, with all that can be seen of it; two runs can be
compared by their dumps.
-/

namespace AntContest

/-- The numbers of the markers in a set, in increasing order. -/
def MarkSet.text (s : MarkSet) : String :=
  String.ofList (s.toList.map fun (m : Marker) => Nat.digitChar m.val)

namespace Cell

/-- The food of a cell, if there is any. -/
def foodText (c : Cell) : String :=
  if c.food = 0 then "" else s!"{c.food.toNat} food; "

/-- The terrain of a cell, unless it is clear. -/
def terrainText (c : Cell) : String :=
  match c.terrain with
  | .rock => "rock "
  | .hill owner => s!"{owner} hill; "
  | .clear => ""

/-- The marks of a colony, if there are any, as a row of digits. -/
def marksText (c : Cell) (colony : Colony) : String :=
  let marks := c.marks colony
  if marks.isEmpty then "" else s!"{colony} marks: {marks.text}; "

end Cell

/-- All that can be seen of an ant, apart from its cell. -/
def Ant.text (i : Nat) (a : Ant) : String :=
  s!"{a.colony} ant of id {i}, dir {a.facing.index}, food {a.carrying.toNat}, " ++
    s!"state {a.state.val}, resting {a.resting}"

/-- The line of a cell with the ant on it, without its end. -/
def describeCell (p : Position) (c : Cell) (ant : Option (Nat × Ant)) : String :=
  s!"cell {p}: " ++ c.foodText ++ c.terrainText ++ c.marksText .red ++ c.marksText .black ++
    match ant with
    | none => ""
    | some (i, a) => a.text i

namespace Game

/-- The line above all dumps of a game. -/
def dumpHeader (g : Game) : String :=
  s!"random seed: {g.config.seed.toInt}\n"

/-- The lines of all cells, row by row. -/
def cellLines (g : Game) : List String :=
  g.ground.entries.map fun (p, c) => describeCell p c (g.occupant? c)

/-- The dump of a game after its last turn. -/
def dump (g : Game) : String :=
  s!"\nAfter round {g.turn}...\n" ++ String.join (g.cellLines.map (· ++ "\n"))

end Game

end AntContest

import AntContest.Ground.Basic
import AntContest.Text.Decimal

/-!
# Maps as text

A map is written as its width, its height, and then one line per row with the cells separated by
spaces; odd rows start with one more space, so that the picture shows their stagger.  A cell is
written as one character:

* `#` for rock, `+` and `-` for the hills of red and black,
* `.` for clear ground without food, `1` to `9` for clear ground with that much food.

Food on hills is not written, and neither are marks, ants, or more than nine particles of food.
-/

namespace AntContest

namespace Cell

/-- The digit for an amount of food; more than nine is written as nine. -/
def foodDigit (food : UInt32) : Char :=
  Nat.digitChar (min food.toNat 9)

def mapChar (c : Cell) : Char :=
  match c.terrain with
  | .rock => '#'
  | .hill .red => '+'
  | .hill .black => '-'
  | .clear => if c.food = 0 then '.' else foodDigit c.food

/-- The cell that a character stands for. -/
def ofMapChar? : Char → Option Cell
  | '.' => some (fresh .clear 0)
  | '#' => some (fresh .rock 0)
  | '+' => some (fresh (.hill .red) 0)
  | '-' => some (fresh (.hill .black) 0)
  | '1' => some (fresh .clear 1)
  | '2' => some (fresh .clear 2)
  | '3' => some (fresh .clear 3)
  | '4' => some (fresh .clear 4)
  | '5' => some (fresh .clear 5)
  | '6' => some (fresh .clear 6)
  | '7' => some (fresh .clear 7)
  | '8' => some (fresh .clear 8)
  | '9' => some (fresh .clear 9)
  | _ => none

end Cell

namespace Ground

/-- The cells of one row, from west to east. -/
def row (g : Ground) (y : Nat) : List Cell :=
  (List.range g.width.val).filterMap fun x => g.cell? ⟨x, y⟩

/-- What stands in front of a row. -/
def stagger (y : Nat) : List Char :=
  if y % 2 = 1 then [' '] else []

def rowText (g : Ground) (y : Nat) : String :=
  String.ofList (stagger y ++ ((g.row y).map Cell.mapChar).intersperse ' ' ++ ['\n'])

def mapText (g : Ground) : String :=
  s!"{g.width.val}\n{g.height.val}\n" ++ String.join ((List.range g.height.val).map g.rowText)

end Ground

end AntContest

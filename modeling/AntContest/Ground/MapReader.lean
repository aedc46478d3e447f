import AntContest.Ground.MapText
import AntContest.Text.Pieces
import AntContest.Text.Quoted

/-!
# Reading maps

`Ground.readMap` reads the format of `Ground.mapText`, and more freely than that is written:
blanks may stand anywhere inside a row, rows of blanks may follow the last one, and the two
numbers may be surrounded by blanks and carry a plus sign.

The checks come in a fixed order, and the first that fails is reported: the width, the height,
the number of rows, the length of each row, the characters, and last the border, which has to be
rock.
-/

namespace AntContest

/-- One of the two numbers at the head of a map. -/
inductive Dimension where
  | width
  | height
deriving DecidableEq, Repr

def Dimension.name : Dimension → String
  | .width => "width"
  | .height => "height"

/-- What is wrong with a text that is no map. -/
inductive MapError where
  /-- The line of a number is missing. -/
  | missing (dimension : Dimension)
  /-- A side has no length. -/
  | zero (dimension : Dimension)
  /-- The line, shown without the blanks around it, is no numeral of a machine word. -/
  | notANumber (dimension : Dimension) (found : String)
  /-- There are more or fewer rows than the height says. -/
  | rowCount (expected found : Nat)
  /-- A row has more or fewer cells than the width says. -/
  | rowLength (row expected found : Nat)
  /-- A character stands for no cell. -/
  | badChar (row column : Nat) (found : Char)
  /-- A cell of the border is not rock. -/
  | openBorder (position : Position)
deriving DecidableEq, Repr

namespace MapError

def message : MapError → String
  | missing d => s!"bad dimensions: missing {d.name}"
  | zero d => s!"bad dimensions: {d.name} must be positive"
  | notANumber d found => s!"bad dimensions: {d.name} is not a number: " ++ Text.quoted found.toList
  | rowCount expected found => s!"map has {found} rows, expected {expected}"
  | rowLength row expected found => s!"row {row} has {found} cells, expected {expected}"
  | badChar row column found =>
    "invalid cell " ++ Text.quotedChar found ++ s!" at row {row}, column {column}"
  | openBorder p => s!"border cell {p} is not rocky"

end MapError

namespace Ground

open Text

/-- Reads the line of a number. -/
def readSide (d : Dimension) : Option (List Char) → Except MapError Side
  | none => .error (.missing d)
  | some line =>
    match natBelow? Position.limit (trim line) with
    | none => .error (.notANumber d (String.ofList (trim line)))
    | some n =>
      match Side.ofNat? n with
      | none => .error (.zero d)
      | some side => .ok side

/-- The lines without those of blanks at the end. -/
def dropBlankLines (ls : List (List Char)) : List (List Char) :=
  (ls.reverse.dropWhile fun l => l.all isBlank).reverse

/-- The characters of a row that stand for cells. -/
def rowChars (line : List Char) : List Char :=
  line.filter fun c => !isBlank c

/-- Checks the lengths of the rows from number `y` on. -/
def checkLengths (width : Nat) : Nat → List (List Char) → Except MapError Unit
  | _, [] => .ok ()
  | y, row :: rows =>
    if row.length = width then checkLengths width (y + 1) rows
    else .error (.rowLength y width row.length)

/-- Reads the cells of a row from column `x` on. -/
def readCells (y : Nat) : Nat → List Char → Except MapError (List Cell)
  | _, [] => .ok []
  | x, c :: cs =>
    match Cell.ofMapChar? c with
    | none => .error (.badChar y x c)
    | some cell => (readCells y (x + 1) cs).map (cell :: ·)

/-- Reads the rows from number `y` on. -/
def readRows : Nat → List (List Char) → Except MapError (List (List Cell))
  | _, [] => .ok []
  | y, row :: rows => do
    let cells ← readCells y 0 row
    let rest ← readRows (y + 1) rows
    return cells :: rest

/-- The ground with the given rows. -/
def ofRows (width height : Side) (rows : List (List Cell)) : Ground :=
  let table := (rows.map List.toArray).toArray
  tabulate width height fun p => ((table[p.y]?.bind fun row => row[p.x]?)).getD default

/-- The first open cell of the border, row by row. -/
def openBorder? (g : Ground) : Option Position :=
  g.positions.find? fun p =>
    g.isBorder p && (g.cell? p).any fun c => c.terrain != .rock

def readMap (text : String) : Except MapError Ground := do
  let ls := lines text.toList
  let width ← readSide .width ls[0]?
  let height ← readSide .height ls[1]?
  let rows := dropBlankLines (ls.drop 2)
  if rows.length ≠ height.val then throw (.rowCount height.val rows.length)
  let rows := rows.map rowChars
  checkLengths width.val 0 rows
  let cells ← readRows 0 rows
  let g := ofRows width height cells
  match g.openBorder? with
  | some p => throw (.openBorder p)
  | none => return g

end Ground

end AntContest

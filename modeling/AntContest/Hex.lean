/-!
# Hexagonal coordinates

Cells are addressed by column and row.  Odd rows are shifted half a cell to the right, so the
column of a diagonal neighbour depends on the parity of the row.

* `Direction` lists the six facings clockwise from east; `right`, `left` and `opposite` turn.
* `Position.step` is the neighbour in a direction, if it has natural coordinates.
* `Position.distance` counts the steps between two positions on the unbounded plane.
-/

namespace AntContest

/-- One of the six facings, clockwise from east. -/
inductive Direction where
  | east
  | southEast
  | southWest
  | west
  | northWest
  | northEast
deriving DecidableEq, Repr, Inhabited

namespace Direction

def all : List Direction :=
  [east, southEast, southWest, west, northWest, northEast]

/-- Place in the clockwise order, from `0` for east. -/
def index : Direction → Nat
  | east => 0
  | southEast => 1
  | southWest => 2
  | west => 3
  | northWest => 4
  | northEast => 5

/-- The direction at a place of the clockwise order, which repeats every six places. -/
def ofIndex (n : Nat) : Direction :=
  match n % 6 with
  | 0 => east
  | 1 => southEast
  | 2 => southWest
  | 3 => west
  | 4 => northWest
  | _ => northEast

/-- One place clockwise. -/
def right : Direction → Direction
  | east => southEast
  | southEast => southWest
  | southWest => west
  | west => northWest
  | northWest => northEast
  | northEast => east

/-- One place counter-clockwise. -/
def left : Direction → Direction
  | east => northEast
  | southEast => east
  | southWest => southEast
  | west => southWest
  | northWest => west
  | northEast => northWest

/-- The direction that points back. -/
def opposite : Direction → Direction
  | east => west
  | southEast => northWest
  | southWest => northEast
  | west => east
  | northWest => southEast
  | northEast => southWest

@[simp] theorem ofIndex_index (d : Direction) : ofIndex d.index = d := by cases d <;> rfl

@[simp] theorem left_right (d : Direction) : d.right.left = d := by cases d <;> rfl

@[simp] theorem right_left (d : Direction) : d.left.right = d := by cases d <;> rfl

@[simp] theorem opposite_opposite (d : Direction) : d.opposite.opposite = d := by
  cases d <;> rfl

theorem mem_all (d : Direction) : d ∈ all := by cases d <;> simp [all]

end Direction

/-- Column `x` and row `y` of a cell. -/
structure Position where
  x : Nat
  y : Nat
deriving DecidableEq, Repr, Inhabited

namespace Position

/-- Coordinates are machine words: this is the first number that is none. -/
def limit : Nat := UInt64.size

/-- The coordinate one less, if there is one. -/
@[inline] def before? : Nat → Option Nat
  | 0 => none
  | n + 1 => some n

/-- The neighbour in a direction.  There is none above row `0`, left of column `0`, or east of
the last column that a machine word can number; other far edges are the map's business. -/
@[inline] def step (p : Position) : Direction → Option Position
  | .east => if p.x + 1 < limit then some ⟨p.x + 1, p.y⟩ else none
  | .west => (before? p.x).map fun x => ⟨x, p.y⟩
  | .southEast => some ⟨if p.y % 2 = 0 then p.x else p.x + 1, p.y + 1⟩
  | .southWest =>
    if p.y % 2 = 0 then (before? p.x).map fun x => ⟨x, p.y + 1⟩ else some ⟨p.x, p.y + 1⟩
  | .northWest =>
    (before? p.y).bind fun y =>
      if p.y % 2 = 0 then (before? p.x).map fun x => ⟨x, y⟩ else some ⟨p.x, y⟩
  | .northEast =>
    (before? p.y).map fun y => ⟨if p.y % 2 = 0 then p.x else p.x + 1, y⟩

/-- A coordinate read as a signed 64-bit word. -/
def signed (n : Nat) : Int :=
  Int.bmod n limit

/-- Axial coordinates: the row, and the column with the stagger of the odd rows undone. -/
def axial (p : Position) : Int × Int :=
  let r := signed p.y
  (signed p.x - (r - r % 2) / 2, r)

/-- Number of steps between two positions. -/
def distance (p q : Position) : Nat :=
  let dq := p.axial.1 - q.axial.1
  let dr := p.axial.2 - q.axial.2
  (dq.natAbs + dr.natAbs + (dq + dr).natAbs) / 2

/-- The position as it is written in every text. -/
def text (p : Position) : String :=
  s!"({p.x}, {p.y})"

instance : ToString Position := ⟨text⟩

end Position

end AntContest

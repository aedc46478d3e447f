import AntContest.Random
import AntContest.Ground.Basic

/-!
# Scattering features over a map

A generated map is a walled rectangle, cut into square regions.  Two hills, some blobs of food
and some rock formations each get a region of their own, drawn at random among those left.

* `scatter` draws the regions and the shapes of the rocks: a list of numbered regions with what
  stands in them.
* `paint` is the cell at a position, given what stands in each region; a feature keeps away from
  the two outermost rows and columns of its region, so the border stays rock.
* `generate` puts the two together.
-/

namespace AntContest

/-- Length of the side of a region. -/
def regionSide : Nat := 18

/-- Columns and rows of a region that a feature leaves free at each side. -/
def regionMargin : Nat := 2

/-- The middle of a region, counted from its corner. -/
def regionCentre : Position := ⟨8, 8⟩

/-- Food on each cell of a blob. -/
def blobFood : UInt32 := 5

/-- Distance from its middle to the rim of a hill. -/
def hillRadius : Nat := 6

/-- The forms of rock. -/
inductive RockShape where
  | wall
  | ring
  | ridge
  | boulder
deriving DecidableEq, Repr, Inhabited

namespace RockShape

/-- The shapes in the order in which they are drawn. -/
def all : List RockShape := [wall, ring, ridge, boulder]

/-- Whether a shape covers a position of its region: a wall of two rows, a ring with a gap in
the east, a ridge along the diagonal, or a boulder. -/
def covers (shape : RockShape) (p : Position) : Bool :=
  let d := p.distance regionCentre
  match shape with
  | wall => 8 ≤ p.y && p.y ≤ 9 && 2 ≤ p.x && p.x ≤ 15
  | ring =>
    5 ≤ d && d ≤ 6 &&
      !(regionCentre.x + 2 < p.x && p.y ≤ regionCentre.y + 1 && regionCentre.y ≤ p.y + 1)
  | ridge =>
    3 ≤ p.x && p.x ≤ 14 && 3 ≤ p.y && p.y ≤ 14 && p.x ≤ p.y + 1 && p.y ≤ p.x + 1
  | boulder => d ≤ 3

end RockShape

/-- What stands in a region. -/
inductive Feature where
  | hill (owner : Colony)
  | blob
  | rocks (shape : RockShape)
deriving DecidableEq, Repr

namespace Feature

/-- Whether a feature covers a position of its region. -/
def covers (f : Feature) (p : Position) : Bool :=
  match f with
  | hill _ => p.distance regionCentre ≤ hillRadius
  | blob => 6 ≤ p.x && p.x < 11 && 6 ≤ p.y && p.y < 11
  | rocks shape => shape.covers p

/-- The cells of a feature. -/
def cell : Feature → Cell
  | hill owner => .fresh (.hill owner) 0
  | blob => .fresh .clear blobFood
  | rocks _ => .fresh .rock 0

end Feature

/-- The measures of a map to be generated. -/
structure MapPlan where
  width : Nat := 144
  height : Nat := 144
  blobs : Nat := 11
  rocks : Nat := 14
deriving DecidableEq, Repr

namespace MapPlan

def columns (plan : MapPlan) : Nat := plan.width / regionSide

def rows (plan : MapPlan) : Nat := plan.height / regionSide

def regions (plan : MapPlan) : Nat := plan.columns * plan.rows

/-- Regions that the features need. -/
def needed (plan : MapPlan) : Nat := 2 + plan.blobs + plan.rocks

end MapPlan

/-- Why a map cannot be generated. -/
inductive MapPlanError where
  /-- There are fewer regions than features. -/
  | tooSmall (plan : MapPlan)
  /-- A side is no side of a map. -/
  | noSide
deriving DecidableEq, Repr

def MapPlanError.message : MapPlanError → String
  | tooSmall plan =>
    s!"World generation error: {plan.width}x{plan.height} grid has {plan.regions} regions of " ++
      s!"{regionSide}x{regionSide}, need {plan.needed}"
  | noSide => "World generation error: Invalid world dimensions (must be > 0)"

namespace Ground

/-- Draws one of the regions that are left and removes it. -/
def drawRegion (random : Random) (left : List Nat) : Nat × List Nat × Random :=
  let (pick, random) := random.draw (UInt32.ofNat left.length)
  (left[pick.toNat]?.getD 0, left.eraseIdx pick.toNat, random)

/-- Draws the shape of a rock formation. -/
def drawShape (random : Random) : RockShape × Random :=
  let (pick, random) := random.draw (UInt32.ofNat RockShape.all.length)
  (RockShape.all[pick.toNat]?.getD default, random)

/-- What is still to be placed: a feature, or rocks of a shape to be drawn. -/
inductive Pending where
  | fixed (feature : Feature)
  | rocks
deriving DecidableEq, Repr

/-- Gives each pending feature a region of its own. -/
def scatter : List Pending → Random → List Nat → List (Nat × Feature)
  | [], _, _ => []
  | .fixed feature :: pending, random, left =>
    let (region, left, random) := drawRegion random left
    (region, feature) :: scatter pending random left
  | .rocks :: pending, random, left =>
    let (region, left, random) := drawRegion random left
    let (shape, random) := drawShape random
    (region, .rocks shape) :: scatter pending random left

/-- The features of a plan in the order in which they are placed. -/
def pending (plan : MapPlan) : List Pending :=
  [.fixed (.hill .red), .fixed (.hill .black)] ++ List.replicate plan.blobs (.fixed .blob) ++
    List.replicate plan.rocks .rocks

/-- What stands in each region, by number of the region. -/
def board (plan : MapPlan) (placed : List (Nat × Feature)) : Array (Option Feature) :=
  placed.foldl (fun b (region, feature) => b.setIfInBounds region (some feature))
    (Array.replicate plan.regions none)

/-- The number of the region around a position, if there is one. -/
def regionOf? (plan : MapPlan) (p : Position) : Option Nat :=
  let column := p.x / regionSide
  let row := p.y / regionSide
  if column < plan.columns ∧ row < plan.rows then some (row * plan.columns + column) else none

/-- A position counted from the corner of its region. -/
def withinRegion (p : Position) : Position :=
  ⟨p.x % regionSide, p.y % regionSide⟩

/-- Whether a position of a region is clear of the region's margin. -/
def inMargins (p : Position) : Bool :=
  regionMargin ≤ p.x && p.x < regionSide - regionMargin &&
    regionMargin ≤ p.y && p.y < regionSide - regionMargin

/-- The cell of a feature at a position, if the feature covers it. -/
def featureCell? (board : Array (Option Feature)) (plan : MapPlan) (p : Position) :
    Option Cell := do
  let feature ← (board[← regionOf? plan p]?).join
  let q := withinRegion p
  if inMargins q && feature.covers q then some feature.cell else none

/-- The cell at a position: that of a feature, or rock at the border, or clear ground. -/
def paint (board : Array (Option Feature)) (plan : MapPlan) (width height : Side)
    (p : Position) : Cell :=
  (featureCell? board plan p).getD
    (.fresh (if onBorder width height p then .rock else .clear) 0)

def generate (seed : Int64) (plan : MapPlan) : Except MapPlanError Ground := do
  if plan.regions < plan.needed then throw (.tooSmall plan)
  let some width := Side.ofNat? plan.width | throw .noSide
  let some height := Side.ofNat? plan.height | throw .noSide
  let placed := scatter (pending plan) (.ofSeed seed) (List.range plan.regions)
  return tabulate width height (paint (board plan placed) plan width height)

end Ground

end AntContest

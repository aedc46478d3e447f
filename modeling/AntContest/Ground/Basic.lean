import AntContest.Hex
import AntContest.Ground.Cell

/-!
# The ground

A ground is a rectangle of cells, stored row by row.  It has at least one cell and its sides fit
a machine word.

* `tabulate` builds a ground from a function of the position; `cell?` looks a cell up and
  `modify` changes one.  The three are tied together by `cell?_tabulate` and `cell?_modify`, and
  `ext_cell?` says that a ground is its sides and its cells.
* `offset` and `positionAt` lead from positions to places of the order and back.
* `adjacent?` and `neighbours` walk on the ground.
* `setTerrain?` and `setFood?` change a ground before it is played on.
-/

namespace AntContest

/-- The length of a side: positive, and within a machine word. -/
abbrev Side := { n : Nat // 0 < n ∧ n < Position.limit }

/-- A number as a side, if it can be one. -/
def Side.ofNat? (n : Nat) : Option Side :=
  if h : 0 < n ∧ n < Position.limit then some ⟨n, h⟩ else none

/-- A rectangle of cells in row-major order. -/
structure Ground where
  width : Side
  height : Side
  cells : Array Cell
  size_cells : cells.size = width.val * height.val
deriving DecidableEq

namespace Ground

/-- The ground whose cell at each position is given by a function. -/
def tabulate (width height : Side) (f : Position → Cell) : Ground where
  width := width
  height := height
  cells := Array.ofFn (n := width.val * height.val) fun i => f ⟨i % width.val, i / width.val⟩
  size_cells := Array.size_ofFn

/-- Whether a position lies on the ground. -/
@[inline] def contains (g : Ground) (p : Position) : Bool :=
  p.x < g.width.val && p.y < g.height.val

/-- Whether a position lies in the outermost rows and columns of a rectangle. -/
def onBorder (width height : Side) (p : Position) : Bool :=
  p.x == 0 || p.y == 0 || p.x + 1 == width.val || p.y + 1 == height.val

/-- Whether a position lies in the outermost rows and columns. -/
def isBorder (g : Ground) (p : Position) : Bool :=
  onBorder g.width g.height p

/-- Place of a position in the row-major order. -/
@[inline] def offset (g : Ground) (p : Position) : Nat :=
  p.y * g.width.val + p.x

/-- The position at a place of the row-major order. -/
def positionAt (g : Ground) (i : Nat) : Position :=
  ⟨i % g.width.val, i / g.width.val⟩

@[inline] def cell? (g : Ground) (p : Position) : Option Cell :=
  if g.contains p then g.cells[g.offset p]? else none

/-- The ground with the cell at a position changed; off the ground nothing changes. -/
@[inline] def modify (g : Ground) (p : Position) (f : Cell → Cell) : Ground :=
  if g.contains p then
    { g with
      cells := g.cells.modify (g.offset p) f
      size_cells := by rw [Array.size_modify]; exact g.size_cells }
  else g

/-- All positions, row by row. -/
def positions (g : Ground) : List Position :=
  (List.range g.cells.size).map g.positionAt

/-- All cells with their positions, row by row. -/
def entries (g : Ground) : List (Position × Cell) :=
  g.positions.filterMap fun p => (g.cell? p).map fun c => (p, c)

/-- The neighbour of a position in a direction, if it lies on the ground. -/
def adjacent? (g : Ground) (p : Position) (d : Direction) : Option Position :=
  (p.step d).filter g.contains

/-- The neighbours of a position that lie on the ground, clockwise from east. -/
def neighbours (g : Ground) (p : Position) : List Position :=
  Direction.all.filterMap (g.adjacent? p)

/-- The hills with their owners, row by row. -/
def hills (g : Ground) : List (Position × Colony) :=
  (List.range g.cells.size).filterMap fun i =>
    (g.cells[i]?.bind (·.terrain.owner?)).map fun owner => (g.positionAt i, owner)

/-- All food on the ground. -/
def totalFood (g : Ground) : Nat :=
  g.cells.foldl (fun sum c => sum + c.food.toNat) 0

/-- The food on the hills of a colony. -/
def hillFood (g : Ground) (colony : Colony) : UInt32 :=
  g.cells.foldl (fun sum c => if c.terrain.isHillOf colony then addFood sum c.food else sum) 0

/-! ### Building a ground -/

/-- Clear ground without food. -/
def clear (width height : Side) : Ground :=
  tabulate width height fun _ => .fresh .clear 0

/-- Clear ground inside a border of rock. -/
def walled (width height : Side) : Ground :=
  tabulate width height fun p =>
    .fresh (if onBorder width height p then .rock else .clear) 0

/-- The ground with another terrain at a position of it.  The cell starts afresh and keeps its
food unless it becomes rock. -/
def setTerrain? (g : Ground) (p : Position) (terrain : Terrain) : Option Ground :=
  if g.contains p then
    some (g.modify p fun c => .fresh terrain (if terrain.isPassable then c.food else 0))
  else none

/-- The ground with another amount of food at a position of it that is not rock. -/
def setFood? (g : Ground) (p : Position) (food : UInt32) : Option Ground :=
  match g.cell? p with
  | some c => if c.terrain.isPassable then some (g.modify p ({ · with food })) else none
  | none => none

/-! ### Looking cells up -/

@[simp] theorem contains_modify (g : Ground) (p q : Position) (f : Cell → Cell) :
    (g.modify p f).contains q = g.contains q := by
  unfold modify; split <;> rfl

@[simp] theorem width_modify (g : Ground) (p : Position) (f : Cell → Cell) :
    (g.modify p f).width = g.width := by
  unfold modify; split <;> rfl

@[simp] theorem height_modify (g : Ground) (p : Position) (f : Cell → Cell) :
    (g.modify p f).height = g.height := by
  unfold modify; split <;> rfl

theorem contains_iff {g : Ground} {p : Position} :
    g.contains p = true ↔ p.x < g.width.val ∧ p.y < g.height.val := by
  simp [contains]

theorem offset_lt {g : Ground} {p : Position} (h : g.contains p = true) :
    g.offset p < g.cells.size := by
  obtain ⟨hx, hy⟩ := contains_iff.mp h
  have := Nat.mul_le_mul_right g.width.val (Nat.succ_le_of_lt hy)
  rw [g.size_cells, offset, Nat.mul_comm g.width.val]
  rw [Nat.succ_mul] at this
  omega

theorem offset_inj {g : Ground} {p q : Position} (hp : g.contains p = true)
    (hq : g.contains q = true) (h : g.offset p = g.offset q) : p = q := by
  obtain ⟨hpx, -⟩ := contains_iff.mp hp
  obtain ⟨hqx, -⟩ := contains_iff.mp hq
  have hmod := congrArg (· % g.width.val) h
  have hdiv := congrArg (· / g.width.val) h
  have hw := g.width.property.1
  simp only [offset, Nat.mul_add_mod_self_right, Nat.mod_eq_of_lt hpx, Nat.mod_eq_of_lt hqx]
    at hmod
  simp only [offset, Nat.mul_comm _ g.width.val, Nat.mul_add_div hw,
    Nat.div_eq_of_lt hpx, Nat.div_eq_of_lt hqx, Nat.add_zero] at hdiv
  cases p; cases q; simp_all

theorem isSome_cell? (g : Ground) (p : Position) : (g.cell? p).isSome = g.contains p := by
  unfold cell?
  split
  · next h => simp [h, offset_lt h]
  · next h => simp [h]

theorem exists_cell? {g : Ground} {p : Position} (h : g.contains p = true) :
    ∃ c, g.cell? p = some c :=
  Option.isSome_iff_exists.mp ((g.isSome_cell? p).trans h)

theorem cell?_eq_none {g : Ground} {p : Position} (h : g.contains p = false) :
    g.cell? p = none := by
  rw [cell?, if_neg (by simp [h])]

theorem cell?_modify (g : Ground) (p q : Position) (f : Cell → Cell) :
    (g.modify p f).cell? q = if p = q then (g.cell? q).map f else g.cell? q := by
  by_cases hp : g.contains p = true
  · simp only [cell?, contains_modify]
    by_cases hq : g.contains q = true
    · have e : (g.modify p f).offset q = g.offset q := by simp [offset]
      simp only [hq, if_true, e]
      simp only [modify, hp, if_true, Array.getElem?_modify]
      by_cases h : p = q
      · simp [h]
      · have ho : ¬ g.offset p = g.offset q := fun e => h (offset_inj hp hq e)
        simp [h, ho]
    · simp [hq]
  · by_cases h : p = q
    · subst h; simp [modify, hp, cell?]
    · simp [modify, hp, h]

@[simp] theorem contains_tabulate (width height : Side) (f : Position → Cell) (p : Position) :
    (tabulate width height f).contains p = (p.x < width.val && p.y < height.val) := rfl

theorem cell?_tabulate (width height : Side) (f : Position → Cell) (p : Position) :
    (tabulate width height f).cell? p =
      if p.x < width.val ∧ p.y < height.val then some (f p) else none := by
  by_cases h : p.x < width.val ∧ p.y < height.val
  · have hc : (tabulate width height f).contains p = true := by simp [h]
    have ho := offset_lt hc
    have hw := width.property.1
    rw [if_pos h, cell?, if_pos hc, Array.getElem?_eq_getElem ho]
    simp only [tabulate, offset, Array.getElem_ofFn, Nat.mul_comm _ width.val, Nat.mul_add_mod,
      Nat.mod_eq_of_lt h.1, Nat.mul_add_div hw, Nat.div_eq_of_lt h.1, Nat.add_zero]
  · rw [if_neg h, cell?, if_neg (by simpa using h)]

theorem contains_positionAt {g : Ground} {i : Nat} (h : i < g.cells.size) :
    g.contains (g.positionAt i) = true := by
  rw [g.size_cells] at h
  exact contains_iff.mpr ⟨Nat.mod_lt _ g.width.property.1, Nat.div_lt_of_lt_mul h⟩

@[simp] theorem offset_positionAt (g : Ground) (i : Nat) : g.offset (g.positionAt i) = i := by
  simp only [offset, positionAt, Nat.mul_comm (i / _), Nat.div_add_mod]

@[simp] theorem positionAt_offset {g : Ground} {p : Position} (h : g.contains p = true) :
    g.positionAt (g.offset p) = p :=
  offset_inj (contains_positionAt (offset_lt h)) h (offset_positionAt g _)

/-- The cell at a place of the order. -/
theorem cell?_positionAt {g : Ground} {i : Nat} (h : i < g.cells.size) :
    g.cell? (g.positionAt i) = g.cells[i]? := by
  rw [cell?, if_pos (contains_positionAt h), offset_positionAt]

theorem mem_positions {g : Ground} {p : Position} :
    p ∈ g.positions ↔ g.contains p = true := by
  simp only [positions, List.mem_map, List.mem_range]
  constructor
  · rintro ⟨i, hi, rfl⟩
    exact contains_positionAt hi
  · intro h
    exact ⟨g.offset p, offset_lt h, positionAt_offset h⟩

theorem hills_eq (g : Ground) :
    g.hills =
      g.entries.filterMap fun (p, c) => c.terrain.owner?.map fun owner => (p, owner) := by
  have hc : ∀ i ∈ List.range g.cells.size, g.cell? (g.positionAt i) = g.cells[i]? :=
    fun i hi => cell?_positionAt (List.mem_range.mp hi)
  simp only [hills, entries, positions, List.filterMap_map, List.filterMap_filterMap]
  generalize List.range g.cells.size = places at hc ⊢
  induction places with
  | nil => rfl
  | cons i places ih =>
    have e := hc i (by simp)
    have ih := ih fun j hj => hc j (List.mem_cons_of_mem i hj)
    simp only [List.filterMap_cons, Function.comp_apply, e, ih]
    cases g.cells[i]? <;> rfl

/-- A ground is its sides and its cells. -/
theorem ext_cell? {g h : Ground} (hw : g.width = h.width) (hh : g.height = h.height)
    (hc : ∀ p, g.cell? p = h.cell? p) : g = h := by
  have hs : g.cells.size = h.cells.size := by rw [g.size_cells, h.size_cells, hw, hh]
  have ha : g.cells = h.cells := by
    refine Array.ext hs fun i hi hi' => ?_
    have e : g.positionAt i = h.positionAt i := by simp only [positionAt, hw]
    have := hc (g.positionAt i)
    rw [cell?_positionAt hi, e, cell?_positionAt hi'] at this
    simpa [hi, hi'] using this
  cases g; cases h
  simp_all

theorem modify_id (g : Ground) (p : Position) : g.modify p id = g :=
  ext_cell? (width_modify ..) (height_modify ..) fun q => by
    rw [cell?_modify, Option.map_id_fun, id, ite_self]

/-- Only what is done to the cell that is there counts. -/
theorem modify_congr {g : Ground} {p : Position} {f f' : Cell → Cell}
    (h : ∀ c, g.cell? p = some c → f c = f' c) : g.modify p f = g.modify p f' := by
  refine ext_cell? (by rw [width_modify, width_modify]) (by rw [height_modify, height_modify])
    fun q => ?_
  rw [cell?_modify, cell?_modify]
  split
  · next hpq =>
    subst hpq
    exact Option.map_congr h
  · rfl

end Ground

end AntContest

import AntContest.Ground.Basic

/-! # Exchanging the colonies on a ground

`Ground.exchange` gives the hills and the marks of each colony to the other one and leaves all else
as it is.  What is done to a ground before the exchange can be done after it with the colonies
named the other way round: `cell?_exchange` and `exchange_modify` for single cells,
`hills_exchange` and `hillFood_exchange` for what belongs to a colony. -/

namespace AntContest

/-! ### Cells -/

/-- The terrain with the owner of a hill exchanged. -/
def Terrain.exchange : Terrain → Terrain
  | rock => .rock
  | clear => .clear
  | hill owner => .hill owner.foe

namespace Terrain

@[simp] theorem isPassable_exchange (t : Terrain) : t.exchange.isPassable = t.isPassable := by
  cases t <;> rfl

@[simp] theorem owner?_exchange (t : Terrain) : t.exchange.owner? = t.owner?.map Colony.foe := by
  cases t <;> rfl

@[simp] theorem isHillOf_exchange (t : Terrain) (c : Colony) :
    t.exchange.isHillOf c = t.isHillOf c.foe := by
  cases t with
  | rock => rfl
  | clear => rfl
  | hill owner => cases owner <;> cases c <;> rfl

@[simp] theorem exchange_beq_rock (t : Terrain) : (t.exchange == .rock) = (t == .rock) := by
  cases t with
  | rock => rfl
  | clear => rfl
  | hill owner => cases owner <;> rfl

end Terrain

/-- The cell with the owner of its hill and the marks of the colonies exchanged. -/
def Cell.exchange (c : Cell) : Cell :=
  { c with
    terrain := c.terrain.exchange
    redMarks := c.blackMarks
    blackMarks := c.redMarks }

namespace Cell

@[simp] theorem terrain_exchange (c : Cell) : c.exchange.terrain = c.terrain.exchange := rfl

@[simp] theorem food_exchange (c : Cell) : c.exchange.food = c.food := rfl

@[simp] theorem occupant_exchange (c : Cell) : c.exchange.occupant = c.occupant := rfl

@[simp] theorem marks_exchange (c : Cell) (colony : Colony) :
    c.exchange.marks colony = c.marks colony.foe := by
  cases colony <;> rfl

@[simp] theorem isFree_exchange (c : Cell) : c.exchange.isFree = c.isFree := by
  simp [isFree]

theorem exchange_modifyMarks (c : Cell) (colony : Colony) (f : MarkSet → MarkSet) :
    (c.modifyMarks colony f).exchange = c.exchange.modifyMarks colony.foe f := by
  cases colony <;> rfl

theorem take?_exchange (c : Cell) : c.exchange.take? = c.take?.map exchange := by
  unfold take?
  rw [food_exchange]
  split <;> rfl

end Cell

/-! ### Grounds -/

namespace Ground

def exchange (g : Ground) : Ground :=
  { g with
    cells := g.cells.map Cell.exchange
    size_cells := by rw [Array.size_map]; exact g.size_cells }

@[simp] theorem contains_exchange (g : Ground) (p : Position) :
    g.exchange.contains p = g.contains p := rfl

@[simp] theorem cell?_exchange (g : Ground) (p : Position) :
    g.exchange.cell? p = (g.cell? p).map Cell.exchange := by
  unfold cell?
  rw [contains_exchange]
  split
  · exact Array.getElem?_map
  · rfl

/-- A change of one cell goes before the exchange or after it. -/
theorem exchange_modify (g : Ground) (p : Position) {f f' : Cell → Cell}
    (h : ∀ c, (f c).exchange = f' c.exchange) :
    (g.modify p f).exchange = g.exchange.modify p f' := by
  refine ext_cell? ?_ ?_ fun q => ?_
  · rw [width_modify]
    exact width_modify g p f
  · rw [height_modify]
    exact height_modify g p f
  · rw [cell?_exchange, cell?_modify, cell?_modify, cell?_exchange]
    split
    · cases g.cell? q with
      | none => rfl
      | some c => exact congrArg some (h c)
    · rfl

theorem hills_exchange (g : Ground) :
    g.exchange.hills = g.hills.map fun (p, owner) => (p, owner.foe) := by
  have hsize : g.exchange.cells.size = g.cells.size := Array.size_map
  rw [hills, hills, hsize, List.map_filterMap]
  congr 1
  funext i
  rw [show g.exchange.cells[i]? = g.cells[i]?.map Cell.exchange from Array.getElem?_map]
  cases g.cells[i]? with
  | none => rfl
  | some c =>
    rw [Option.map_some, Option.bind_some, Option.bind_some, Cell.terrain_exchange,
      Terrain.owner?_exchange, Option.map_map, Option.map_map]
    rfl

theorem hillFood_exchange (g : Ground) (colony : Colony) :
    g.exchange.hillFood colony = g.hillFood colony.foe := by
  unfold hillFood exchange
  rw [Array.foldl_map]
  simp

theorem totalFood_exchange (g : Ground) : g.exchange.totalFood = g.totalFood := by
  unfold totalFood exchange
  rw [Array.foldl_map]
  simp

end Ground

end AntContest

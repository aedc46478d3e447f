import AntContest.Proofs.Ground.Census
import AntContest.Proofs.Ground.RowMajor

/-! # The register of a ground

A ground leaves it to the place of a cell to say where the cell lies.  A `Register` writes it down:
it is an array of plots, and a plot is a cell together with its position.  It is laid out and
changed as such an array is, with an answer to every call: `setTerrain` puts a new plot in the place
of the old one, `setFood` changes the old one, and `walled` sets rock along the border, going
through the rows in one loop and through the columns in another.

Nothing keeps a register from having the wrong number of plots, or from having them in the wrong
places.  That they are in the right ones is what this module is about:

* `Ground.register` is the register that a ground ought to have, every plot with the position of
  its place.
* Whatever is done to a register of that kind leads to another one, and what is asked of it is
  answered as it is by the ground: `plot?_register`, `hills_register`, `perform_register`.
* So the register of a ground stays with it through all changes (`after_register`), from the time
  it is laid out (`laid_register`). -/

namespace AntContest

/-- A cell and the position that is written in it. -/
structure Plot where
  position : Position
  cell : Cell
deriving DecidableEq

/-- The plots of a ground in one array, row by row. -/
structure Register where
  width : Side
  height : Side
  plots : Array Plot
deriving DecidableEq

namespace Register

def contains (r : Register) (p : Position) : Bool :=
  p.x < r.width.val && p.y < r.height.val

/-- The place of a position in the array, if it lies within the sides. -/
def place? (r : Register) (p : Position) : Option Nat :=
  if r.contains p then some (p.y * r.width.val + p.x) else none

/-- The plot of a position. -/
def plot? (r : Register) (p : Position) : Option Plot :=
  (r.place? p).bind fun i => r.plots[i]?

/-- The register with another plot at a place. -/
def write (r : Register) (i : Nat) (plot : Plot) : Register :=
  { r with plots := r.plots.setIfInBounds i plot }

/-- The register with the plot of a position changed. -/
def modify (r : Register) (p : Position) (f : Plot → Plot) : Register :=
  match r.place? p with
  | some i => { r with plots := r.plots.modify i f }
  | none => r

/-- Puts a fresh plot of another terrain in the place of a position.  It keeps the food unless it is
rock.  The answer is whether there was such a place. -/
def setTerrain (r : Register) (p : Position) (terrain : Terrain) : Bool × Register :=
  match r.plot? p with
  | some _ =>
    (true, r.modify p fun plot =>
      ⟨p, .fresh terrain (if terrain.isPassable then plot.cell.food else 0)⟩)
  | none => (false, r)

/-- Puts another amount of food on the plot of a position that is not rock.  The answer is whether
there was such a plot. -/
def setFood (r : Register) (p : Position) (food : UInt32) : Bool × Register :=
  match r.plot? p with
  | some plot =>
    if plot.cell.terrain.isPassable then
      (true, r.modify p fun plot => { plot with cell := { plot.cell with food } })
    else (false, r)
  | none => (false, r)

/-- The hills with their owners, in the order of the array. -/
def hills (r : Register) : List (Position × Colony) :=
  r.plots.toList.filterMap fun plot =>
    plot.cell.terrain.owner?.map fun owner => (plot.position, owner)

/-! ### Laying out -/

/-- A register of clear ground without food. -/
def clear (width height : Side) : Register where
  width := width
  height := height
  plots := ((List.range height.val).flatMap fun y =>
    (List.range width.val).map fun x => ⟨⟨x, y⟩, .fresh .clear 0⟩).toArray

/-- The register with rock at a position of the border. -/
def fence (r : Register) (p : Position) : Register :=
  if Ground.onBorder r.width r.height p then (r.setTerrain p .rock).2 else r

/-- A register of clear ground that is then fenced, row by row. -/
def walled (width height : Side) : Register :=
  (List.range height.val).foldl
    (fun r y => (List.range width.val).foldl (fun r x => r.fence ⟨x, y⟩) r) (clear width height)

/-- A register as it is laid out: all clear, or inside a wall. -/
def laid (isWalled : Bool) (width height : Side) : Register :=
  if isWalled then walled width height else clear width height

end Register

/-- A ground as it is laid out: all clear, or inside a wall. -/
def Ground.laid (isWalled : Bool) (width height : Side) : Ground :=
  if isWalled then walled width height else clear width height

/-! ### Changes -/

/-- A call that changes a ground before it is played on. -/
inductive Change where
  | terrain (p : Position) (terrain : Terrain)
  | food (p : Position) (food : UInt32)
deriving DecidableEq

namespace Change

def position : Change → Position
  | terrain p _ => p
  | food p _ => p

/-- What a call makes of a ground, unless it is refused. -/
def result? (c : Change) (g : Ground) : Option Ground :=
  match c with
  | terrain p t => g.setTerrain? p t
  | food p n => g.setFood? p n

/-- What a call makes of the cell at the position that it names. -/
def onCell (c : Change) (cell : Cell) : Cell :=
  match c with
  | terrain _ t => .fresh t (if t.isPassable then cell.food else 0)
  | food _ n => if cell.terrain.isPassable then { cell with food := n } else cell

theorem onCell_onCell (c : Change) (cell : Cell) : c.onCell (c.onCell cell) = c.onCell cell := by
  cases c with
  | terrain p t => cases h : t.isPassable <;> simp [onCell, h, Cell.fresh]
  | food p n => cases h : cell.terrain.isPassable <;> simp [onCell, h]

/-- What a call answers, and what it makes of a register. -/
def perform (c : Change) (r : Register) : Bool × Register :=
  match c with
  | terrain p t => r.setTerrain p t
  | food p n => r.setFood p n

end Change

/-- The ground after a list of calls, those that were refused left out. -/
def Ground.after (g : Ground) (calls : List Change) : Ground :=
  calls.foldl (fun g c => (c.result? g).getD g) g

/-- The register after a list of calls. -/
def Register.after (r : Register) (calls : List Change) : Register :=
  calls.foldl (fun r c => (c.perform r).2) r

/-! ### The register that a ground ought to have -/

namespace Ground

/-- The register in which each cell has the position of its place. -/
def register (g : Ground) : Register where
  width := g.width
  height := g.height
  plots := g.cells.mapIdx fun i c => ⟨g.positionAt i, c⟩

section

variable {g : Ground} {p q : Position}

theorem size_plots_register : g.register.plots.size = g.width.val * g.height.val := by
  rw [register, Array.size_mapIdx, g.size_cells]

theorem getElem?_plots_register (i : Nat) :
    g.register.plots[i]? = g.cells[i]?.map fun c => ⟨g.positionAt i, c⟩ :=
  Array.getElem?_mapIdx

theorem place?_register : g.register.place? p = if g.contains p then some (g.offset p) else none :=
  rfl

theorem plot?_register : g.register.plot? p = (g.cell? p).map fun c => ⟨p, c⟩ := by
  rw [Register.plot?, place?_register, cell?]
  split
  · next hp => rw [Option.bind_some, getElem?_plots_register, positionAt_offset hp]
  · rfl

/-- What is written on a plot is written on the cell, if the plot keeps its position. -/
theorem modify_register {f : Plot → Plot} {f' : Cell → Cell}
    (h : ∀ c, f ⟨p, c⟩ = ⟨p, f' c⟩) : g.register.modify p f = (g.modify p f').register := by
  rw [Register.modify, place?_register]
  by_cases hp : g.contains p = true
  · rw [if_pos hp]
    have hplots : g.register.plots.modify (g.offset p) f = (g.modify p f').register.plots := by
      refine Array.ext_getElem? fun i => ?_
      have hsides : (g.modify p f').positionAt i = g.positionAt i := by
        rw [positionAt, width_modify, positionAt]
      have hcells : (g.modify p f').cells = g.cells.modify (g.offset p) f' := by
        rw [Ground.modify, if_pos hp]
      rw [Array.getElem?_modify, getElem?_plots_register, getElem?_plots_register, hsides, hcells,
        Array.getElem?_modify]
      split
      · next hi =>
        subst hi
        rw [Option.map_map, Option.map_map, positionAt_offset hp]
        exact congrArg (Option.map · _) (funext h)
      · rfl
    show Register.mk g.width g.height _ = Register.mk _ _ _
    rw [hplots, width_modify, height_modify]
    rfl
  · have hmodify : g.modify p f' = g := by rw [Ground.modify, if_neg hp]
    rw [if_neg hp, hmodify]

theorem setTerrain_register (terrain : Terrain) : g.register.setTerrain p terrain =
    ((g.setTerrain? p terrain).isSome, ((g.setTerrain? p terrain).getD g).register) := by
  rw [Register.setTerrain, plot?_register, setTerrain?]
  by_cases hp : g.contains p = true
  · obtain ⟨c, hc⟩ := exists_cell? hp
    rw [hc, if_pos hp]
    exact congrArg (Prod.mk true) (modify_register fun _ => rfl)
  · rw [cell?_eq_none (by simpa using hp), if_neg hp]
    rfl

theorem setFood_register (food : UInt32) : g.register.setFood p food =
    ((g.setFood? p food).isSome, ((g.setFood? p food).getD g).register) := by
  rw [Register.setFood, plot?_register, setFood?]
  cases hc : g.cell? p with
  | none => rfl
  | some c =>
    cases hpassable : c.terrain.isPassable with
    | true =>
      simp only [Option.map_some, hpassable, if_true]
      exact congrArg (Prod.mk true) (modify_register fun _ => rfl)
    | false =>
      simp only [Option.map_some, hpassable]
      rfl

theorem perform_register (g : Ground) (c : Change) :
    c.perform g.register = ((c.result? g).isSome, ((c.result? g).getD g).register) := by
  cases c with
  | terrain p t => exact setTerrain_register t
  | food p n => exact setFood_register n

/-- The register stays with the ground through all changes. -/
theorem after_register (g : Ground) (calls : List Change) :
    g.register.after calls = (g.after calls).register :=
  List.foldl_hom register fun g c => congrArg Prod.snd (perform_register g c)

theorem toList_plots_register (g : Ground) :
    g.register.plots.toList = g.entries.map fun entry => ⟨entry.1, entry.2⟩ := by
  have hplots : g.register.plots.toList.map some =
      (List.range g.cells.size).map fun i => g.register.plots[i]? :=
    List.ext_getElem (by simp [register]) fun i hi _ => by simp
  calc
    g.register.plots.toList
        = (g.register.plots.toList.map some).filterMap id := by simp
    _ = (List.range g.cells.size).filterMap fun i => g.register.plots[i]? := by
        rw [hplots, List.filterMap_map]
        rfl
    _ = g.entries.map fun entry => ⟨entry.1, entry.2⟩ := by
        rw [entries, positions, List.filterMap_map, List.map_filterMap]
        refine List.filterMap_congr fun i hi => ?_
        rw [getElem?_plots_register, Function.comp_apply, cell?_positionAt (List.mem_range.mp hi),
          Option.map_map]
        rfl

theorem hills_register (g : Ground) : g.register.hills = g.hills := by
  rw [Register.hills, toList_plots_register, List.filterMap_map, hills_eq]
  rfl

/-! ### Cells under a list of calls -/

theorem getD_setTerrain? (g : Ground) (p : Position) (terrain : Terrain) :
    (g.setTerrain? p terrain).getD g =
      g.modify p fun c => .fresh terrain (if terrain.isPassable then c.food else 0) := by
  rw [setTerrain?]
  by_cases hp : g.contains p = true
  · rw [if_pos hp]
    rfl
  · rw [if_neg hp, Ground.modify, if_neg hp]
    rfl

/-- A call changes the cell at its position and no other one, also if it is refused. -/
theorem getD_result? (g : Ground) (c : Change) :
    (c.result? g).getD g = g.modify c.position c.onCell := by
  cases c with
  | terrain p t => exact getD_setTerrain? g p t
  | food p n =>
    have hrefused (h : ∀ cell, g.cell? p = some cell → cell.terrain.isPassable = false) :
        g.modify p (Change.onCell (.food p n)) = g := by
      refine (modify_congr fun cell hcell => ?_).trans (g.modify_id p)
      simp [Change.onCell, h cell hcell]
    rw [Change.result?, setFood?, Change.position]
    cases hcell : g.cell? p with
    | none => exact (hrefused (by simp [hcell])).symm
    | some cell =>
      cases hpassable : cell.terrain.isPassable with
      | false => simp [hrefused (by simp [hcell, hpassable]), hpassable]
      | true =>
        simp only [hpassable, if_true, Option.getD_some]
        exact modify_congr (by simp [hcell, Change.onCell, hpassable])

theorem after_cons (g : Ground) (c : Change) (calls : List Change) :
    g.after (c :: calls) = (g.modify c.position c.onCell).after calls := by
  rw [after, List.foldl_cons, getD_result?]
  rfl

theorem sides_after (g : Ground) (calls : List Change) :
    (g.after calls).width = g.width ∧ (g.after calls).height = g.height := by
  induction calls generalizing g with
  | nil => exact ⟨rfl, rfl⟩
  | cons c calls ih =>
    have hsides := ih (g.modify c.position c.onCell)
    rwa [width_modify, height_modify, ← after_cons] at hsides

/-- A cell undergoes one call, however often it is made, if no other call names its position. -/
theorem cell?_after {calls : List Change} {c : Change} (hposition : c.position = q)
    (h : ∀ c' ∈ calls, c'.position = q → c' = c) (g : Ground) :
    (g.after calls).cell? q = if c ∈ calls then (g.cell? q).map c.onCell else g.cell? q := by
  induction calls generalizing g with
  | nil => rfl
  | cons c' calls ih =>
    obtain ⟨hfirst, hrest⟩ := List.forall_mem_cons.mp h
    rw [after_cons, ih hrest, cell?_modify]
    by_cases hsame : c'.position = q
    · have hcall := hfirst hsame
      subst hcall
      -- Later calls of the list may be the same one again, and change nothing more.
      simp [hsame, Function.comp_def, Change.onCell_onCell]
    · have hne : c ≠ c' := by
        rintro rfl
        exact hsame hposition
      simp [hsame, hne]

/-! ### Laying out -/

theorem clear_register (width height : Side) :
    Register.clear width height = (clear width height).register := by
  have hcells (p : Position) (hp : p ∈ (clear width height).places) :
      (clear width height).cell? p = some (.fresh .clear 0) := by
    rw [clear, cell?_tabulate]
    exact if_pos (contains_iff.mp (mem_places.mp hp))
  have hplots : (Register.clear width height).plots.toList =
      (clear width height).register.plots.toList := by
    calc
      (Register.clear width height).plots.toList
          = (clear width height).places.map fun p => ⟨p, .fresh .clear 0⟩ := by
          rw [places, List.map_flatMap]
          simp only [List.map_map]
          rfl
      _ = (clear width height).register.plots.toList := by
          rw [toList_plots_register, entries, ← places_eq_positions, List.map_filterMap,
            ← List.filterMap_eq_map]
          refine List.filterMap_congr fun p hp => ?_
          rw [hcells p hp]
          rfl
  exact congrArg (Register.mk width height) (Array.toList_inj.mp hplots)

/-- The ground with rock at a position of the border. -/
def fence (g : Ground) (p : Position) : Ground :=
  if g.isBorder p then (g.setTerrain? p .rock).getD g else g

theorem fence_register (g : Ground) (p : Position) :
    g.register.fence p = (g.fence p).register := by
  have hborder : onBorder g.register.width g.register.height p = g.isBorder p := rfl
  rw [Register.fence, fence, hborder]
  split
  · rw [setTerrain_register]
  · rfl

theorem isBorder_after (g : Ground) (calls : List Change) :
    (g.after calls).isBorder q = g.isBorder q := by
  obtain ⟨hwidth, hheight⟩ := g.sides_after calls
  rw [isBorder, isBorder, hwidth, hheight]

/-- A fence along a list of positions stands at those of them that are on the border. -/
theorem foldl_fence (g : Ground) (ps : List Position) :
    ps.foldl fence g = g.after ((ps.filter g.isBorder).map fun p => .terrain p .rock) := by
  induction ps generalizing g with
  | nil => rfl
  | cons p ps ih =>
    rw [List.foldl_cons, List.filter_cons, fence]
    split
    · next hborder =>
      have hrest : ps.filter (g.after [.terrain p .rock]).isBorder = ps.filter g.isBorder :=
        List.filter_congr fun q _ => g.isBorder_after _
      exact (ih (g.after [.terrain p .rock])).trans (by rw [hrest]; rfl)
    · exact ih g

theorem walled_eq_foldl (width height : Side) :
    walled width height = (clear width height).places.foldl fence (clear width height) := by
  rw [foldl_fence]
  obtain ⟨hwidth, hheight⟩ := sides_after (clear width height) _
  refine ext_cell? hwidth.symm hheight.symm fun q => ?_
  have hmem : q ∈ (clear width height).places ↔ q.x < width.val ∧ q.y < height.val :=
    mem_places.trans contains_iff
  have hborder : (clear width height).isBorder q = onBorder width height q := rfl
  have hclear : (clear width height).cell? q = _ := cell?_tabulate width height _ q
  have hposition : (Change.terrain q .rock).position = q := rfl
  have hrock : Change.onCell (.terrain q .rock) (.fresh .clear 0) = .fresh .rock 0 := rfl
  rw [cell?_after hposition, hclear, walled, cell?_tabulate]
  · by_cases hq : q.x < width.val ∧ q.y < height.val
    · cases h : onBorder width height q <;> simp [hq, hmem, hborder, h, hrock]
    · simp [hq]
  · intro c hc hcq
    obtain ⟨p, -, rfl⟩ := List.mem_map.mp hc
    exact congrArg (Change.terrain · .rock) hcq

theorem walled_register (width height : Side) :
    Register.walled width height = (walled width height).register := by
  have hloops : Register.walled width height =
      (clear width height).places.foldl Register.fence (Register.clear width height) := by
    rw [Register.walled, places, List.foldl_flatMap]
    simp only [List.foldl_map]
    rfl
  rw [hloops, clear_register, walled_eq_foldl]
  exact List.foldl_hom register fence_register

/-- What is laid out as a register is the register of what is laid out as a ground. -/
theorem laid_register (isWalled : Bool) (width height : Side) :
    Register.laid isWalled width height = (laid isWalled width height).register := by
  cases isWalled
  · exact clear_register width height
  · exact walled_register width height

end

end Ground

end AntContest

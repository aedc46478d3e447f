import AntContest.Ground.MapReader
import AntContest.Ground.Scatter
import AntContest.Proofs.Outcome

/-! # Grounds that can be built

A ground comes from one of four sources (clear ground, clear ground inside a wall, a map that was
read, a generated map) and can then be changed cell by cell before it is played on.  `Built` says
so.

* `Cell.Pristine` is what all those cells have in common: nobody on them, no marks, and no food
  on rock.
* `Built.pristine`: every cell of a built ground is pristine.
* `cell?_of_readMap` and `cell?_of_generate` say more about the cells of maps: they come from
  characters, or are the fresh cells of features. -/

namespace AntContest

/-- A cell as it is before play. -/
structure Cell.Pristine (c : Cell) : Prop where
  unoccupied : c.occupant = none
  unmarked : ∀ colony, c.marks colony = .empty
  bare : c.terrain = .rock → c.food = 0

theorem Cell.pristine_fresh {terrain : Terrain} {food : UInt32}
    (h : terrain = .rock → food = 0) : (Cell.fresh terrain food).Pristine where
  unoccupied := rfl
  unmarked colony := by cases colony <;> rfl
  bare := h

theorem Cell.pristine_of_ofMapChar? {ch : Char} {c : Cell} (h : ofMapChar? ch = some c) :
    c.Pristine := by
  unfold ofMapChar? at h
  split at h <;> cases h <;> exact pristine_fresh (by decide)

theorem Side.val_of_ofNat? {n : Nat} {side : Side} (h : Side.ofNat? n = some side) :
    side.val = n := by
  unfold Side.ofNat? at h
  split at h <;> cases h
  rfl

namespace Ground

/-- Every cell is as before play. -/
def Pristine (g : Ground) : Prop := ∀ p c, g.cell? p = some c → c.Pristine

/-- No cell names an ant. -/
def Unoccupied (g : Ground) : Prop := ∀ p c, g.cell? p = some c → c.occupant = none

theorem Pristine.unoccupied {g : Ground} (h : g.Pristine) : g.Unoccupied :=
  fun p c hc => (h p c hc).unoccupied

theorem unoccupied_of_cells {g : Ground} (h : ∀ c ∈ g.cells, c.occupant = none) :
    g.Unoccupied := by
  intro p c hc
  unfold cell? at hc
  split at hc
  · exact h c (Array.mem_of_getElem? hc)
  · cases hc

theorem Unoccupied.occupant_ne {g : Ground} (h : g.Unoccupied) (p : Position) (i : Nat) :
    (g.cell? p).bind (·.occupant) ≠ some i := by
  intro hp
  obtain ⟨c, hc, ho⟩ := Option.bind_eq_some_iff.mp hp
  rw [h p c hc] at ho
  cases ho

/-- The grounds that a caller can make. -/
inductive Built : Ground → Prop
  | clear (width height : Side) : Built (clear width height)
  | walled (width height : Side) : Built (walled width height)
  | read {text : String} {g : Ground} : readMap text = .ok g → Built g
  | generated {seed : Int64} {plan : MapPlan} {g : Ground} : generate seed plan = .ok g → Built g
  | setTerrain {g h : Ground} {p : Position} {terrain : Terrain} :
      Built g → g.setTerrain? p terrain = some h → Built h
  | setFood {g h : Ground} {p : Position} {food : UInt32} :
      Built g → g.setFood? p food = some h → Built h

/-! ### Cells of tables -/

theorem cell?_eq_some_of_tabulate {width height : Side} {f : Position → Cell} {p : Position}
    {c : Cell} (h : (tabulate width height f).cell? p = some c) : c = f p := by
  rw [cell?_tabulate] at h
  split at h
  · exact (Option.some.inj h).symm
  · cases h

theorem pristine_tabulate {width height : Side} {f : Position → Cell}
    (h : ∀ p, (f p).Pristine) : (tabulate width height f).Pristine := by
  intro p c hc
  rw [cell?_eq_some_of_tabulate hc]
  exact h p

/-! ### Cells of maps that were read -/

theorem mem_of_readCells {y x : Nat} {chars : List Char} {cells : List Cell}
    (h : readCells y x chars = .ok cells) : ∀ c ∈ cells, ∃ ch, Cell.ofMapChar? ch = some c := by
  induction chars generalizing x cells with
  | nil =>
    cases h
    simp
  | cons ch chars ih =>
    unfold readCells at h
    cases hch : Cell.ofMapChar? ch with
    | none =>
      rw [hch] at h
      cases h
    | some cell =>
      rw [hch] at h
      cases hrest : readCells y (x + 1) chars with
      | error e =>
        rw [hrest] at h
        cases h
      | ok rest =>
        rw [hrest] at h
        cases h
        intro c hc
        rcases List.mem_cons.mp hc with rfl | hc
        · exact ⟨ch, hch⟩
        · exact ih hrest c hc

theorem mem_of_readRows {y : Nat} {rows : List (List Char)} {table : List (List Cell)}
    (h : readRows y rows = .ok table) :
    ∀ row ∈ table, ∀ c ∈ row, ∃ ch, Cell.ofMapChar? ch = some c := by
  induction rows generalizing y table with
  | nil =>
    cases h
    simp
  | cons row rows ih =>
    unfold readRows at h
    obtain ⟨cells, hcells, h⟩ := ok_of_bind h
    obtain ⟨rest, hrest, h⟩ := ok_of_bind h
    cases h
    intro r hr
    rcases List.mem_cons.mp hr with rfl | hr
    · exact mem_of_readCells hcells
    · exact ih hrest r hr

/-- A map that is read is a table of rows, and its border is closed. -/
theorem readMap_eq_ofRows {text : String} {g : Ground} (h : readMap text = .ok g) :
    g.openBorder? = none ∧ ∃ width height rows table,
      g = ofRows width height table ∧ readRows 0 rows = .ok table := by
  unfold readMap at h
  obtain ⟨width, -, h⟩ := ok_of_bind h
  obtain ⟨height, -, h⟩ := ok_of_bind h
  dsimp only at h
  split at h
  · cases h
  · obtain ⟨-, -, h⟩ := ok_of_bind h
    obtain ⟨table, htable, h⟩ := ok_of_bind h
    split at h
    · cases h
    · next hborder =>
      cases h
      exact ⟨hborder, width, height, _, table, rfl, htable⟩

theorem cell?_of_readMap {text : String} {g : Ground} (h : readMap text = .ok g) {p : Position}
    {c : Cell} (hc : g.cell? p = some c) : ∃ ch, Cell.ofMapChar? ch = some c := by
  obtain ⟨-, width, height, rows, table, rfl, htable⟩ := readMap_eq_ofRows h
  rw [cell?_eq_some_of_tabulate hc]
  cases hcell : (((table.map List.toArray).toArray)[p.y]?.bind fun row => row[p.x]?) with
  | none => exact ⟨'.', rfl⟩
  | some cell =>
    obtain ⟨row, hrow, hx⟩ := Option.bind_eq_some_iff.mp hcell
    rw [List.getElem?_toArray, List.getElem?_map] at hrow
    obtain ⟨cells, hcells, rfl⟩ := Option.map_eq_some_iff.mp hrow
    rw [List.getElem?_toArray] at hx
    exact mem_of_readRows htable cells (List.mem_of_getElem? hcells) cell
      (List.mem_of_getElem? hx)

/-! ### Cells of generated maps -/

/-- A map is generated exactly if there are as many regions as features, and it is what is
painted of the features that are scattered over it. -/
theorem generate_eq_ok_iff {seed : Int64} {plan : MapPlan} {g : Ground} :
    generate seed plan = .ok g ↔ plan.needed ≤ plan.regions ∧ ∃ width height,
      width.val = plan.width ∧ height.val = plan.height ∧
      g = tabulate width height (paint (board plan
        (scatter (pending plan) (.ofSeed seed) (List.range plan.regions))) plan width height) := by
  unfold generate
  dsimp only
  constructor
  · intro h
    split at h
    · cases h
    · next hregions =>
      refine ⟨Nat.le_of_not_lt hregions, ?_⟩
      cases hwidth : Side.ofNat? plan.width with
      | none =>
        rw [hwidth] at h
        cases h
      | some width =>
        cases hheight : Side.ofNat? plan.height with
        | none =>
          rw [hwidth, hheight] at h
          cases h
        | some height =>
          rw [hwidth, hheight] at h
          cases h
          exact ⟨width, height, Side.val_of_ofNat? hwidth, Side.val_of_ofNat? hheight, rfl⟩
  · rintro ⟨hregions, width, height, hwidth, hheight, rfl⟩
    have hside (side : Side) : Side.ofNat? side.val = some side := dif_pos side.property
    rw [if_neg (Nat.not_lt_of_le hregions), ← hwidth, ← hheight, hside, hside]
    rfl

theorem generate_eq_tabulate {seed : Int64} {plan : MapPlan} {g : Ground}
    (h : generate seed plan = .ok g) : ∃ width height board,
      width.val = plan.width ∧ height.val = plan.height ∧
        g = tabulate width height (paint board plan width height) := by
  obtain ⟨-, width, height, hwidth, hheight, hground⟩ := generate_eq_ok_iff.mp h
  exact ⟨width, height, _, hwidth, hheight, hground⟩

theorem featureCell?_eq_some {board : Array (Option Feature)} {plan : MapPlan} {p : Position}
    {c : Cell} (h : featureCell? board plan p = some c) :
    (regionOf? plan p).isSome ∧ inMargins (withinRegion p) = true ∧
      ∃ feature : Feature, c = feature.cell := by
  unfold featureCell? at h
  obtain ⟨region, hregion, h⟩ := Option.bind_eq_some_iff.mp h
  obtain ⟨feature, -, h⟩ := Option.bind_eq_some_iff.mp h
  dsimp only at h
  split at h
  · next hcovers =>
    cases h
    exact ⟨by simp [hregion], (Bool.and_eq_true_iff.mp hcovers).1, feature, rfl⟩
  · cases h

/-- A cell of a generated map is that of a feature, or rock at the border, or clear. -/
theorem cell?_of_generate {seed : Int64} {plan : MapPlan} {g : Ground}
    (h : generate seed plan = .ok g) {p : Position} {c : Cell} (hc : g.cell? p = some c) :
    (∃ feature : Feature, c = feature.cell) ∨ c = .fresh .rock 0 ∨ c = .fresh .clear 0 := by
  obtain ⟨width, height, board, -, -, rfl⟩ := generate_eq_tabulate h
  rw [cell?_eq_some_of_tabulate hc, paint]
  cases hfeature : featureCell? board plan p with
  | none => cases onBorder width height p <;> simp
  | some cell =>
    obtain ⟨-, -, hcell⟩ := featureCell?_eq_some hfeature
    exact .inl hcell

theorem pristine_of_feature (feature : Feature) : feature.cell.Pristine := by
  cases feature <;> exact Cell.pristine_fresh (by simp)

/-! ### Built grounds -/

theorem Pristine.modify {g : Ground} (h : g.Pristine) {p : Position} {f : Cell → Cell}
    (hf : ∀ c, g.cell? p = some c → (f c).Pristine) : (g.modify p f).Pristine := by
  intro q c hc
  rw [cell?_modify] at hc
  split at hc
  · next hpq =>
    subst hpq
    obtain ⟨d, hd, rfl⟩ := Option.map_eq_some_iff.mp hc
    exact hf d hd
  · exact h q c hc

/-- A built ground is as before play. -/
theorem Built.pristine {g : Ground} (h : g.Built) : g.Pristine := by
  induction h with
  | clear width height => exact pristine_tabulate fun _ => Cell.pristine_fresh (by simp)
  | walled width height => exact pristine_tabulate fun _ => Cell.pristine_fresh (by simp)
  | read h =>
    intro p c hc
    obtain ⟨ch, hch⟩ := cell?_of_readMap h hc
    exact Cell.pristine_of_ofMapChar? hch
  | generated h =>
    intro p c hc
    rcases cell?_of_generate h hc with ⟨feature, rfl⟩ | rfl | rfl
    · exact pristine_of_feature feature
    · exact Cell.pristine_fresh (by simp)
    · exact Cell.pristine_fresh (by simp)
  | @setTerrain g h p terrain _ hset ih =>
    unfold setTerrain? at hset
    split at hset <;> cases hset
    refine ih.modify fun c _ => Cell.pristine_fresh ?_
    rintro rfl
    rfl
  | @setFood g h p food _ hset ih =>
    unfold setFood? at hset
    split at hset
    · next c hc =>
      split at hset <;> cases hset
      next hpassable =>
      refine ih.modify fun d hd => ?_
      obtain rfl : c = d := Option.some.inj (hc.symm.trans hd)
      have hd := ih p c hc
      refine ⟨hd.unoccupied, hd.unmarked, fun hrock => ?_⟩
      rw [show c.terrain = .rock from hrock] at hpassable
      cases hpassable
    · cases hset

end Ground

end AntContest

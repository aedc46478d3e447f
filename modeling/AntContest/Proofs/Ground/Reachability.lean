import AntContest.Proofs.Ground.GeneratedMap
import AntContest.Proofs.Ground.Paths

/-! # No generated map walls anything off

The outermost columns and rows of a region are free, so lanes run between the regions.  From every
passable cell of a generated map there is a path to its corner:

* out of its region to a lane (`Placement.exists_lane`), along the row if there are no rocks, or
  else around them.  `RockShape.wayOut` falls with some step wherever a shape leaves room
  (`exists_step_out`), and what a region looks like does not depend on where it lies;
* along the lane to the first row, and along that to the corner (`Placement.connected_corner`).

Paths lead both ways, so any two passable cells are connected (`generated_map_connected`). -/

namespace AntContest

/-! ### Around the rocks -/

namespace RockShape

/-- Steps that a way out of a region takes around a shape, at most: west out of the cells north and
south of a wall; to the nearer side past a boulder; away from a ridge; and from inside a ring first
to its middle row, and then east through the gap. -/
def wayOut (shape : RockShape) (q : Position) : Nat :=
  match shape with
  | wall => q.x - 1
  | ring =>
    if q.distance regionCentre ≤ 4 then 16 * ((q.y - 8) + (8 - q.y)) + (16 - q.x)
    else min (q.x - 1) (16 - q.x)
  | ridge => if q.x ≤ q.y then q.x - 1 else 16 - q.x
  | boulder => min (q.x - 1) (16 - q.x)

/-- A shape leaves room at a position off the rim of its region. -/
structure Spares (shape : RockShape) (q : Position) : Prop where
  left : 0 < q.x
  right : q.x + 1 < regionSide
  top : 0 < q.y
  bottom : q.y + 1 < regionSide
  free : shape.covers q = false

instance (shape : RockShape) (q : Position) : Decidable (shape.Spares q) :=
  decidable_of_iff (0 < q.x ∧ q.x + 1 < regionSide ∧ 0 < q.y ∧ q.y + 1 < regionSide ∧
      shape.covers q = false)
    ⟨fun ⟨left, right, top, bottom, free⟩ => ⟨left, right, top, bottom, free⟩,
      fun h => ⟨h.left, h.right, h.top, h.bottom, h.free⟩⟩

theorem Spares.lt {shape : RockShape} {q : Position} (h : shape.Spares q) :
    q.x < regionSide ∧ q.y < regionSide :=
  ⟨Nat.lt_of_succ_lt h.right, Nat.lt_of_succ_lt h.bottom⟩

end RockShape

/-- A lane is a column or a row that no feature reaches. -/
def IsLane (n : Nat) : Prop :=
  n % regionSide < regionMargin ∨ regionSide - regionMargin ≤ n % regionSide

instance (n : Nat) : Decidable (IsLane n) := inferInstanceAs (Decidable (_ ∨ _))

namespace Ground

/-- Wherever a shape leaves room, a step leads on to a lane. -/
theorem exists_step_out {shape : RockShape} {q : Position} (hq : shape.Spares q) :
    IsLane q.x ∨ ∃ d q', q.step d = some q' ∧ shape.Spares q' ∧
      shape.wayOut q' < shape.wayOut q := by
  have hall : ∀ shape ∈ RockShape.all, ∀ q ∈ oneRegion.positions, shape.Spares q →
      IsLane q.x ∨ ∃ d ∈ Direction.all, (q.step d).any fun q' =>
        shape.Spares q' ∧ shape.wayOut q' < shape.wayOut q := by decide +kernel
  have hshape : shape ∈ RockShape.all := by cases shape <;> decide
  have hregion : q ∈ oneRegion.positions := mem_positions.mpr (contains_oneRegion.mpr hq.lt)
  refine (hall shape hshape q hregion hq).imp_right fun ⟨d, _, hd⟩ => ?_
  obtain ⟨q', hstep, hq'⟩ := (Option.any_eq_true _ _).mp hd
  exact ⟨d, q', hstep, decide_eq_true_eq.mp hq'⟩

/-- Regions have an even number of rows, so that a step is the same in each of them. -/
theorem step_withinMap {column row : Nat} {q q' : Position} {d : Direction}
    (hx : (withinMap column row q').x < Position.limit) (h : q.step d = some q') :
    (withinMap column row q).step d = some (withinMap column row q') := by
  rw [Position.step_eq_some_iff] at h ⊢
  cases d <;> simp only [Position.StepsTo, withinMap, regionSide] at h hx ⊢ <;> omega

theorem isLane_withinMap {column row : Nat} {q : Position} :
    IsLane (withinMap column row q).x ↔ IsLane q.x := by
  simp only [IsLane, withinMap, Nat.mul_add_mod_self_right]

theorem inMargins_withinRegion_iff {p : Position} :
    inMargins (withinRegion p) = true ↔ ¬ IsLane p.x ∧ ¬ IsLane p.y := by
  simp only [inMargins, Bool.and_eq_true, decide_eq_true_eq]
  simp only [withinRegion, IsLane, not_or, Nat.not_lt, Nat.not_le, and_assoc]

theorem spares_withinRegion {shape : RockShape} {p : Position} (hx : ¬ IsLane p.x)
    (hy : ¬ IsLane p.y) (hcovers : shape.covers (withinRegion p) = false) :
    shape.Spares (withinRegion p) := by
  have hoff {n : Nat} (hn : ¬ IsLane n) : 0 < n % regionSide ∧ n % regionSide + 1 < regionSide := by
    simp only [IsLane, regionMargin, regionSide] at hn ⊢
    omega
  obtain ⟨hleft, hright⟩ := hoff hx
  obtain ⟨htop, hbottom⟩ := hoff hy
  exact ⟨hleft, hright, htop, hbottom, hcovers⟩

/-! ### Passable cells of a map -/

/-- Inside the border of a rectangle. -/
structure Inside (width height : Side) (p : Position) : Prop where
  left : 0 < p.x
  right : p.x + 1 < width.val
  top : 0 < p.y
  bottom : p.y + 1 < height.val

theorem inside_iff {width height : Side} {p : Position} : Inside width height p ↔
    (p.x < width.val ∧ p.y < height.val) ∧ onBorder width height p = false := by
  simp only [onBorder, Bool.or_eq_false_iff, beq_eq_false_iff_ne]
  constructor
  · rintro ⟨hleft, hright, htop, hbottom⟩
    omega
  · intro h
    exact ⟨by omega, by omega, by omega, by omega⟩

theorem Inside.of_le {width height : Side} {p q : Position} (h : Inside width height p)
    (hx : 0 < q.x) (hxp : q.x ≤ p.x) (hy : 0 < q.y) (hyp : q.y ≤ p.y) :
    Inside width height q where
  left := hx
  right := Nat.lt_of_le_of_lt (Nat.succ_le_succ hxp) h.right
  top := hy
  bottom := Nat.lt_of_le_of_lt (Nat.succ_le_succ hyp) h.bottom

theorem inside_withinMap {width height : Side} {column row : Nat} {shape : RockShape}
    {q : Position} (hcolumn : column < width.val / regionSide)
    (hrow : row < height.val / regionSide) (hq : shape.Spares q) :
    Inside width height (withinMap column row q) where
  left := Nat.add_pos_right _ hq.left
  right := by
    rw [withinMap, Nat.add_assoc]
    exact add_lt_of_lt_div hcolumn hq.right
  top := Nat.add_pos_right _ hq.top
  bottom := by
    rw [withinMap, Nat.add_assoc]
    exact add_lt_of_lt_div hrow hq.bottom

/-- Where nothing of a region is in the way, its row leads west to a lane. -/
theorem exists_lane_of_row {g : Ground} {p : Position} (hlane : ¬ IsLane p.x)
    (hrow : ∀ a, 0 < a → a ≤ p.x → a / regionSide = p.x / regionSide → g.Passable ⟨a, p.y⟩) :
    ∃ q, g.Connected p q ∧ g.Passable q ∧ IsLane q.x := by
  have hfirst : p.x / regionSide * regionSide + 1 ≤ p.x := by
    simp only [IsLane, regionMargin, regionSide] at hlane ⊢
    omega
  have hwest {a : Nat} (ha : p.x / regionSide * regionSide + 1 ≤ a) (hap : a ≤ p.x) :
      g.Passable ⟨a, p.y⟩ := by
    refine hrow a (Nat.lt_of_lt_of_le (Nat.succ_pos _) ha) hap ?_
    simp only [regionSide] at ha ⊢
    omega
  refine ⟨⟨p.x / regionSide * regionSide + 1, p.y⟩, connected_west hfirst fun a => hwest,
    hwest Nat.le.refl hfirst, .inl ?_⟩
  rw [Nat.mul_add_mod_self_right]
  decide

section Map

variable {plan : MapPlan} {placed : List (Nat × Feature)} (h : Placement plan placed)
  {width height : Side} (hwidth : width.val = plan.width) (hheight : height.val = plan.height)
  {p : Position}

include h hwidth hheight

/-- Ants can stand inside the border, unless rocks are in the way. -/
theorem Placement.passable_iff : (mapOf plan placed width height).Passable p ↔
    Inside width height p ∧
      ∀ entry ∈ placed, Occupies plan entry p → entry.2.cell.terrain.isPassable = true := by
  rw [inside_iff, Passable, mapOf, cell?_tabulate]
  constructor
  · rintro ⟨c, hc, hpassable⟩
    split at hc
    · next hcontains =>
      cases hc
      refine ⟨⟨hcontains, ?_⟩, fun entry hentry hoccupies => ?_⟩
      · by_contra hborder
        rw [Bool.not_eq_false] at hborder
        rw [paint, featureCell?_of_onBorder hwidth hheight hborder, Option.getD_none,
          if_pos hborder] at hpassable
        cases hpassable
      · rwa [h.paint_eq_of_occupies hentry hoccupies] at hpassable
    · cases hc
  · rintro ⟨⟨hcontains, hborder⟩, hpassable⟩
    refine ⟨_, if_pos hcontains, ?_⟩
    rcases h.paint_cases width height p with ⟨entry, hentry, hoccupies, hpaint⟩ | ⟨-, hpaint⟩
    · rw [hpaint]
      exact hpassable entry hentry hoccupies
    · rw [hpaint, hborder]
      rfl

theorem Placement.passable_of_isLane (hp : Inside width height p)
    (hlane : IsLane p.x ∨ IsLane p.y) : (mapOf plan placed width height).Passable p := by
  refine (h.passable_iff hwidth hheight).mpr ⟨hp, fun entry _ hoccupies => ?_⟩
  obtain ⟨hx, hy⟩ := inMargins_withinRegion_iff.mp hoccupies.margins
  exact absurd hlane (not_or.mpr ⟨hx, hy⟩)

theorem Placement.passable_of_spares {region : Nat} {shape : RockShape}
    (hentry : (region, .rocks shape) ∈ placed) {q : Position} (hq : shape.Spares q) :
    (mapOf plan placed width height).Passable
      (withinMap (region % plan.columns) (region / plan.columns) q) := by
  have hregion : region < plan.regions := h.lt hentry
  obtain ⟨hcolumn, hrow⟩ := columnAndRow_lt hregion
  refine (h.passable_iff hwidth hheight).mpr
    ⟨inside_withinMap ?_ ?_ hq, fun entry hmem hoccupies => ?_⟩
  · rwa [hwidth]
  · rwa [hheight]
  · have hsame := (regionOf?_eq_some_iff hregion).mpr (withinMap_div hq.lt)
    rw [hoccupies.region, Option.some.injEq] at hsame
    obtain rfl := h.eq_of_region_eq hmem hentry hsame
    have hcovers : shape.covers _ = true := hoccupies.covers
    rw [withinRegion_withinMap hq.lt, hq.free] at hcovers
    cases hcovers

theorem Placement.exists_lane_of_spares {region : Nat} {shape : RockShape}
    (hentry : (region, .rocks shape) ∈ placed) {q : Position} (hq : shape.Spares q) :
    ∃ p, (mapOf plan placed width height).Connected
      (withinMap (region % plan.columns) (region / plan.columns) q) p ∧
        (mapOf plan placed width height).Passable p ∧ IsLane p.x := by
  have hpassable {q : Position} (hq : shape.Spares q) :=
    h.passable_of_spares hwidth hheight hentry hq
  have hout : ∀ p, (∃ q, shape.Spares q ∧
        p = withinMap (region % plan.columns) (region / plan.columns) q) →
      IsLane p.x ∨ ∃ p', (mapOf plan placed width height).Linked p p' ∧
        (∃ q', shape.Spares q' ∧
          p' = withinMap (region % plan.columns) (region / plan.columns) q') ∧
        shape.wayOut (withinRegion p') < shape.wayOut (withinRegion p) := by
    rintro _ ⟨q, hq, rfl⟩
    rcases exists_step_out hq with hlane | ⟨d, q', hstep, hq', hlt⟩
    · exact .inl (isLane_withinMap.mpr hlane)
    · have hcontains := contains_iff.mp (hpassable hq').contains
      have hstep := step_withinMap (Nat.lt_trans hcontains.1 width.property.2) hstep
      refine .inr ⟨_, linked_of_step d (hpassable hq) (hpassable hq') hstep, ⟨q', hq', rfl⟩, ?_⟩
      rwa [withinRegion_withinMap hq.lt, withinRegion_withinMap hq'.lt]
  obtain ⟨_, hpath, ⟨q', hq', rfl⟩, hlane⟩ := exists_connected_of_rank _ _ _ hout ⟨q, hq, rfl⟩
  exact ⟨_, hpath, hpassable hq', hlane⟩

/-- A path leads from every passable cell to a lane: without rocks in the way, along the row. -/
theorem Placement.exists_lane (hp : (mapOf plan placed width height).Passable p) :
    ∃ q, (mapOf plan placed width height).Connected p q ∧
      (mapOf plan placed width height).Passable q ∧ IsLane q.x := by
  have ⟨hinside, hpassable⟩ := (h.passable_iff hwidth hheight).mp hp
  by_cases hlane : IsLane p.x
  · exact ⟨p, .refl, hp, hlane⟩
  by_cases hrocks : ¬ IsLane p.y ∧ ∃ region shape, (region, Feature.rocks shape) ∈ placed ∧
      regionOf? plan p = some region
  · obtain ⟨hy, region, shape, hentry, hregion⟩ := hrocks
    have hmargins := inMargins_withinRegion_iff.mpr ⟨hlane, hy⟩
    have hcovers : shape.covers (withinRegion p) = false := by
      rw [← Bool.not_eq_true]
      intro hcovers
      cases hpassable _ hentry ⟨hregion, hmargins, hcovers⟩
    have hspares := spares_withinRegion hlane hy hcovers
    obtain ⟨hcolumn, hrow⟩ := (regionOf?_eq_some_iff (h.lt hentry)).mp hregion
    have hpath := h.exists_lane_of_spares hwidth hheight hentry hspares
    rwa [← hcolumn, ← hrow, withinMap_withinRegion] at hpath
  · -- The cells to the west lie in the same region, which has no rocks in this row.
    refine exists_lane_of_row hlane fun a ha hap hsame => ?_
    refine (h.passable_iff hwidth hheight).mpr
      ⟨hinside.of_le ha hap hinside.top Nat.le.refl, fun ⟨region, feature⟩ hentry hoccupies => ?_⟩
    have hregion : regionOf? plan p = some region := by
      rw [← hoccupies.region, regionOf?, regionOf?, hsame]
    cases feature with
    | hill owner => rfl
    | blob => rfl
    | rocks shape =>
      have hy := (inMargins_withinRegion_iff.mp hoccupies.margins).2
      exact absurd ⟨hy, region, shape, hentry, hregion⟩ hrocks

theorem Placement.connected_corner (hp : (mapOf plan placed width height).Passable p) :
    (mapOf plan placed width height).Connected p ⟨1, 1⟩ := by
  obtain ⟨q, hpath, hq, hlane⟩ := h.exists_lane hwidth hheight hp
  have ⟨hinside, _⟩ := (h.passable_iff hwidth hheight).mp hq
  have first : IsLane 1 := by decide
  have hnorth : (mapOf plan placed width height).Connected q ⟨q.x, 1⟩ :=
    connected_north hinside.top fun b hb hby =>
      h.passable_of_isLane hwidth hheight (hinside.of_le hinside.left Nat.le.refl hb hby)
        (.inl hlane)
  have hwest : (mapOf plan placed width height).Connected ⟨q.x, 1⟩ ⟨1, 1⟩ :=
    connected_west hinside.left fun a ha hax =>
      h.passable_of_isLane hwidth hheight (hinside.of_le ha hax Nat.one_pos hinside.top)
        (.inr first)
  exact (hpath.trans hnorth).trans hwest

end Map

/-! ### Generated maps -/

theorem Populated.passable_of_shows {plan : MapPlan} {g : Ground} (h : Populated plan g)
    {p : Position} {a : Sight} (ha : a ≠ .rock) (hshows : g.Shows p a) : g.Passable p := by
  obtain ⟨c, hc, hshows⟩ := hshows
  refine ⟨c, hc, ?_⟩
  cases a with
  | hill owner => rw [show c.terrain = .hill owner from hshows]; rfl
  | food => rw [h.food p c hc hshows]; rfl
  | rock => exact absurd rfl ha

theorem Populated.exists_hill {plan : MapPlan} {g : Ground} (h : Populated plan g)
    (colony : Colony) : ∃ p, g.Shows p (.hill colony) := by
  have hpos : 0 < g.hills.countP (·.2 == colony) := by rw [h.hills colony]; decide
  obtain ⟨⟨p, owner⟩, hmem, howner⟩ := List.countP_pos_iff.mp hpos
  obtain rfl : owner = colony := eq_of_beq howner
  exact ⟨p, mem_hills.mp hmem⟩

/-- Any two passable cells of a generated map are connected.  So the hills and the food of all
blobs can be reached from each other. -/
theorem generated_map_connected {seed : Int64} {plan : MapPlan} {g : Ground}
    (h : generate seed plan = .ok g) :
    (∀ p q, g.Passable p → g.Passable q → g.Connected p q) ∧
    ∀ p q a b, a ≠ .rock → b ≠ .rock → g.Shows p a → g.Shows q b → g.Connected p q := by
  obtain ⟨placed, hplacement, hwidth, hheight, hg⟩ := exists_placement h
  have hcorner {p : Position} (hp : g.Passable p) : g.Connected p ⟨1, 1⟩ := by
    rw [hg] at hp ⊢
    exact hplacement.connected_corner hwidth hheight hp
  have hall (p q : Position) (hp : g.Passable p) (hq : g.Passable q) : g.Connected p q :=
    (hcorner hp).trans (hcorner hq).symm
  have hpopulated := populated_of_generate h
  exact ⟨hall, fun p q a b ha hb hp hq => hall p q (hpopulated.passable_of_shows ha hp)
    (hpopulated.passable_of_shows hb hq)⟩

/-- For example the hills of a map of four regions, one of them with rocks. -/
theorem hills_connected_on_four_regions : ∃ g p q, generate 3 ⟨40, 40, 1, 1⟩ = .ok g ∧
    g.Shows p (.hill .red) ∧ g.Shows q (.hill .black) ∧ g.Connected p q := by
  obtain ⟨g, hg⟩ : ∃ g, generate 3 ⟨40, 40, 1, 1⟩ = .ok g :=
    exists_generate_of_needed_le 3 (by decide) (by decide) (by decide)
  have hpopulated := populated_of_generate hg
  obtain ⟨p, hp⟩ := hpopulated.exists_hill .red
  obtain ⟨q, hq⟩ := hpopulated.exists_hill .black
  exact ⟨g, p, q, hg, hp, hq,
    (generated_map_connected hg).2 p q (.hill .red) (.hill .black) nofun nofun hp hq⟩

end Ground

end AntContest

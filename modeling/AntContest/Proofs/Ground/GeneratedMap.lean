import AntContest.Proofs.Ground.Census
import AntContest.Proofs.Ground.MapRoundTrip
import AntContest.Proofs.Ground.Placement
import Mathlib.Algebra.BigOperators.Group.Finset.Sigma

/-! # What stands on a generated map

A feature covers as many positions in its region as in any other (`card_occupies`), and in a
placement no two features share a region.  A sum over the cells of a generated map is therefore
taken feature by feature and does not depend on where they stand (`Placement.sumOf_eq_plan`).

* `Populated` says what the map of a plan has to look like.
* `populated_of_generate`: every generated map looks like that.
* `generated_map`: a map is generated exactly if there are as many regions as features, and then
  it is populated, and is read again from its text. -/

namespace AntContest

/-! ### Sights -/

/-- What there is to see on a map besides clear ground and the rock of its border. -/
inductive Sight where
  | hill (owner : Colony)
  | food
  | rock

/-- What is seen in a cell, which may belong to the border. -/
def Cell.Shows (c : Cell) (border : Bool) : Sight → Prop
  | .hill owner => c.terrain = .hill owner
  | .food => c.food ≠ 0
  | .rock => c.terrain = .rock ∧ border = false

/-- What is seen where a feature stands. -/
def Feature.sight : Feature → Sight
  | .hill owner => .hill owner
  | .blob => .food
  | .rocks _ => .rock

theorem Feature.sight_of_shows {feature : Feature} {border : Bool} {a : Sight}
    (h : feature.cell.Shows border a) : feature.sight = a := by
  cases feature <;> cases a <;> simp_all [Cell.Shows, cell, sight, Cell.fresh]

namespace Ground

/-- What is seen at a position. -/
def Shows (g : Ground) (p : Position) (a : Sight) : Prop :=
  ∃ c, g.cell? p = some c ∧ c.Shows (g.isBorder p) a

/-! ### One region -/

/-- A region as a ground of its own. -/
def oneRegion : Ground := clear ⟨regionSide, by decide⟩ ⟨regionSide, by decide⟩

/-- How many cells of its region a feature covers. -/
def area (feature : Feature) : Nat :=
  oneRegion.positions.countP fun q => inMargins q = true ∧ feature.covers q = true

theorem area_hill (owner : Colony) : area (.hill owner) = 127 := by
  have hsame : area (.hill owner) = area (.hill .red) := rfl
  rw [hsame]
  decide +kernel

theorem area_blob : area .blob = 25 := by decide +kernel

theorem contains_oneRegion {q : Position} :
    oneRegion.contains q = true ↔ q.x < regionSide ∧ q.y < regionSide := contains_iff

/-! ### Summing over a map -/

theorem sumOf_tabulate (width height : Side) (f : Position → Cell) (w : Cell → Nat) :
    (tabulate width height f).sumOf w =
      ∑ p ∈ (tabulate width height f).positions.toFinset, w (f p) := by
  rw [List.sum_toFinset _ (nodup_positions _), sumOf, positions, List.map_map]
  congr 1
  refine List.ext_getElem (by simp) fun i hi _ => ?_
  simp [tabulate, positionAt]

theorem card_filter_positions (g : Ground) (q : Position → Prop) [DecidablePred q] :
    (g.positions.toFinset.filter q).card = g.positions.countP fun p => q p := by
  rw [List.countP_eq_length_filter,
    ← List.toFinset_card_of_nodup (g.nodup_positions.filter _), List.toFinset_filter]
  simp only [decide_eq_true_eq]

/-- A feature covers as many positions in its region as in any other. -/
theorem card_occupies {plan : MapPlan} {g : Ground} (hwidth : g.width.val = plan.width)
    (hheight : g.height.val = plan.height) {entry : Nat × Feature} (h : entry.1 < plan.regions) :
    (g.positions.toFinset.filter (Occupies plan entry)).card = area entry.2 := by
  obtain ⟨hcolumn, hrow⟩ := columnAndRow_lt h
  rw [area, ← card_filter_positions]
  simp only [occupies_iff, regionOf?_eq_some_iff h]
  generalize entry.1 % plan.columns = column at hcolumn
  generalize entry.1 / plan.columns = row at hrow
  have hmap {p : Position} : p ∈ g.positions.toFinset ↔ p.x < plan.width ∧ p.y < plan.height := by
    rw [List.mem_toFinset, mem_positions, contains_iff, hwidth, hheight]
  have hregion {q : Position} : q ∈ oneRegion.positions.toFinset ↔
      q.x < regionSide ∧ q.y < regionSide := by
    rw [List.mem_toFinset, mem_positions, contains_oneRegion]
  refine Finset.card_nbij' withinRegion (withinMap column row) ?_ ?_ ?_ ?_
  · intro p hp
    obtain ⟨-, -, hcovered⟩ := Finset.mem_filter.mp (Finset.mem_coe.mp hp)
    exact Finset.mem_filter.mpr ⟨hregion.mpr (withinRegion_lt p), hcovered⟩
  · intro q hq
    obtain ⟨hq, hcovered⟩ := Finset.mem_filter.mp (Finset.mem_coe.mp hq)
    obtain ⟨hx, hy⟩ := hregion.mp hq
    refine Finset.mem_filter.mpr ⟨hmap.mpr ?_, ?_⟩
    · exact ⟨add_lt_of_lt_div hcolumn hx, add_lt_of_lt_div hrow hy⟩
    · rw [withinRegion_withinMap ⟨hx, hy⟩]
      exact ⟨withinMap_div ⟨hx, hy⟩, hcovered⟩
  · intro p hp
    obtain ⟨-, ⟨rfl, rfl⟩, -⟩ := Finset.mem_filter.mp (Finset.mem_coe.mp hp)
    exact withinMap_withinRegion p
  · intro q hq
    exact withinRegion_withinMap (hregion.mp (Finset.mem_filter.mp (Finset.mem_coe.mp hq)).1)

section Sums

variable {plan : MapPlan} {placed : List (Nat × Feature)}

theorem Placement.sumOf_eq (h : Placement plan placed) {width height : Side}
    (hwidth : width.val = plan.width) (hheight : height.val = plan.height) {w : Cell → Nat}
    (hrock : w (.fresh .rock 0) = 0) (hclear : w (.fresh .clear 0) = 0) :
    (mapOf plan placed width height).sumOf w =
      (placed.map fun entry => area entry.2 * w entry.2.cell).sum := by
  have hcell (p : Position) : w (paint (board plan placed) plan width height p) =
      ∑ entry ∈ placed.toFinset, if Occupies plan entry p then w entry.2.cell else 0 := by
    rcases h.paint_cases width height p with ⟨entry, hentry, hoccupies, hpaint⟩ | ⟨hfree, hpaint⟩
    · rw [hpaint, Finset.sum_eq_single_of_mem entry (List.mem_toFinset.mpr hentry),
        if_pos hoccupies]
      intro entry' hentry' hne
      refine if_neg fun hoccupies' => hne ?_
      refine h.eq_of_region_eq (List.mem_toFinset.mp hentry') hentry ?_
      exact Option.some.inj (hoccupies'.region.symm.trans hoccupies.region)
    · rw [hpaint, Finset.sum_eq_zero]
      · split <;> assumption
      · exact fun entry hentry => if_neg (hfree entry (List.mem_toFinset.mp hentry))
  rw [mapOf, sumOf_tabulate, ← List.sum_toFinset _ h.nodup.of_map,
    Finset.sum_congr rfl fun p _ => hcell p, Finset.sum_comm]
  refine Finset.sum_congr rfl fun entry hentry => ?_
  have hregion := h.lt (List.mem_toFinset.mp hentry)
  rw [← Finset.sum_filter, Finset.sum_const, card_occupies hwidth hheight hregion,
    Nat.nsmul_eq_mul]

/-- A sum over features that were placed is one over what was to be placed, if rocks count for
nothing. -/
theorem sum_map_features {pending : List Pending} {features : List Feature}
    (h : List.Forall₂ Pending.Placed pending features) {v : Feature → Nat}
    (hrocks : ∀ shape, v (.rocks shape) = 0) :
    (features.map v).sum =
      (pending.map fun
        | .fixed feature => v feature
        | .rocks => 0).sum := by
  induction h with
  | nil => rfl
  | cons hplaced _ ih =>
    rw [List.map_cons, List.map_cons, List.sum_cons, List.sum_cons, ih]
    cases hplaced with
    | fixed feature => rfl
    | rocks shape => rw [hrocks]

theorem Placement.sumOf_eq_plan (h : Placement plan placed) {width height : Side}
    (hwidth : width.val = plan.width) (hheight : height.val = plan.height) {w : Cell → Nat}
    (hrock : w (.fresh .rock 0) = 0) (hclear : w (.fresh .clear 0) = 0) :
    (mapOf plan placed width height).sumOf w =
      127 * w (.fresh (.hill .red) 0) + 127 * w (.fresh (.hill .black) 0) +
        plan.blobs * (25 * w (.fresh .clear blobFood)) := by
  have hfeatures := sum_map_features h.features
    (v := fun feature => area feature * w feature.cell) fun shape => by
      rw [show Feature.cell (.rocks shape) = .fresh .rock 0 from rfl, hrock, Nat.mul_zero]
  rw [List.map_map] at hfeatures
  rw [h.sumOf_eq hwidth hheight hrock hclear]
  refine hfeatures.trans ?_
  simp only [pending, area_hill, area_blob, Feature.cell, List.cons_append, List.nil_append,
    List.map_cons, List.map_append, List.map_replicate, List.sum_cons, List.sum_append,
    List.sum_replicate, Nat.nsmul_eq_mul, Nat.mul_zero, Nat.add_zero]
  exact (Nat.add_assoc _ _ _).symm

end Sums

/-! ### Populated maps -/

/-- A map as a plan wants it: of its measures, closed, with both hills and all blobs, food on clear
ground only, and each feature in a region of its own. -/
structure Populated (plan : MapPlan) (g : Ground) : Prop where
  width : g.width.val = plan.width
  height : g.height.val = plan.height
  border : ∀ p c, g.isBorder p = true → g.cell? p = some c → c.terrain = .rock
  hills : ∀ colony, g.hills.countP (·.2 == colony) = 127
  totalFood : g.totalFood = 125 * plan.blobs
  food : ∀ p c, g.cell? p = some c → c.food ≠ 0 → c.terrain = .clear
  /-- In each region there is one thing to be seen at most. -/
  sights : ∀ p q, p.x / regionSide = q.x / regionSide → p.y / regionSide = q.y / regionSide →
    ∀ a b, g.Shows p a → g.Shows q b → a = b

/-- Whatever is seen on a generated map comes from a feature. -/
theorem Placement.exists_of_shows {plan : MapPlan} {placed : List (Nat × Feature)}
    (h : Placement plan placed) {width height : Side} {p : Position} {a : Sight}
    (ha : (mapOf plan placed width height).Shows p a) :
    ∃ entry ∈ placed, Occupies plan entry p ∧ entry.2.sight = a := by
  obtain ⟨c, hc, ha⟩ := ha
  rw [cell?_eq_some_of_tabulate hc] at ha
  rcases h.paint_cases width height p with ⟨entry, hentry, hoccupies, hpaint⟩ | ⟨-, hpaint⟩
  · rw [hpaint] at ha
    exact ⟨entry, hentry, hoccupies, Feature.sight_of_shows ha⟩
  · rw [hpaint] at ha
    change Cell.Shows _ (onBorder width height p) a at ha
    cases hborder : onBorder width height p <;> cases a <;>
      simp [hborder, Cell.Shows, Cell.fresh] at ha

theorem populated_of_generate {seed : Int64} {plan : MapPlan} {g : Ground}
    (h : generate seed plan = .ok g) : Populated plan g := by
  obtain ⟨placed, hplacement, hwidth, hheight, hg⟩ := exists_placement h
  exact {
    width := hwidth
    height := hheight
    border := fun p c hborder hc => by
      have hclosed := openBorder?_eq_none_iff.mp (openBorder?_of_generate h) p
      exact Decidable.not_not.mp fun hterrain => hclosed ⟨hborder, c, hc, hterrain⟩
    hills := fun colony => by
      rw [countP_hills, hg, hplacement.sumOf_eq_plan hwidth hheight rfl rfl]
      cases colony <;> simp [Cell.fresh, Terrain.isHillOf]
    totalFood := by
      rw [totalFood_eq_sumOf, hg, hplacement.sumOf_eq_plan hwidth hheight rfl rfl]
      have hfood : (Cell.fresh .clear blobFood).food.toNat = 5 := rfl
      rw [hfood]
      simp only [Cell.fresh, UInt32.toNat_zero]
      omega
    food := fun p c hc hfood => by
      rcases cell?_of_generate h hc with ⟨feature, rfl⟩ | rfl | rfl
      · cases feature with
        | hill owner => exact absurd rfl hfood
        | blob => rfl
        | rocks shape => exact absurd rfl hfood
      · exact absurd rfl hfood
      · rfl
    sights := fun p q hx hy a b ha hb => by
      rw [hg] at ha hb
      obtain ⟨entry, hentry, hp, rfl⟩ := hplacement.exists_of_shows ha
      obtain ⟨entry', hentry', hq, rfl⟩ := hplacement.exists_of_shows hb
      have hregion : regionOf? plan p = regionOf? plan q := by
        rw [regionOf?, hx, hy, regionOf?]
      rw [hp.region, hq.region] at hregion
      rw [hplacement.eq_of_region_eq hentry hentry' (Option.some.inj hregion)] }

theorem exists_generate_of_needed_le (seed : Int64) {plan : MapPlan}
    (hwidth : plan.width < Position.limit) (hheight : plan.height < Position.limit)
    (h : plan.needed ≤ plan.regions) : ∃ g, generate seed plan = .ok g := by
  have hpos : 0 < plan.columns * plan.rows :=
    Nat.lt_of_lt_of_le (by simp only [MapPlan.needed]; omega) h
  have hside {side : Nat} (hregions : 0 < side / regionSide) : 0 < side :=
    Nat.lt_of_lt_of_le hregions (Nat.div_le_self side regionSide)
  let width : Side := ⟨plan.width, hside (Nat.pos_of_mul_pos_right hpos), hwidth⟩
  let height : Side := ⟨plan.height, hside (Nat.pos_of_mul_pos_left hpos), hheight⟩
  exact ⟨_, generate_eq_ok_iff.mpr ⟨h, width, height, rfl, rfl, rfl⟩⟩

/-- From every seed, a map is generated exactly if it has as many regions as the plan has features,
and then it is as the plan wants it, and is read again from its text. -/
theorem generated_map (seed : Int64) (plan : MapPlan) (hwidth : plan.width < Position.limit)
    (hheight : plan.height < Position.limit) :
    ((∃ g, generate seed plan = .ok g) ↔
      2 + plan.blobs + plan.rocks ≤ plan.width / 18 * (plan.height / 18)) ∧
    ∀ g, generate seed plan = .ok g → Populated plan g ∧ readMap g.mapText = .ok g := by
  refine ⟨⟨fun ⟨g, hg⟩ => (generate_eq_ok_iff.mp hg).1, fun hregions => ?_⟩, fun g hg => ?_⟩
  · exact exists_generate_of_needed_le seed hwidth hheight hregions
  · exact ⟨populated_of_generate hg, readMap_mapText_of_generate hg⟩

/-- For example a map of four regions, which has room for a blob and for one rock formation, but
not for two. -/
theorem generated_map_of_four_regions :
    (∃ g, generate 3 ⟨40, 40, 1, 1⟩ = .ok g ∧ g.hills.countP (·.2 == .red) = 127 ∧
      g.totalFood = 125 ∧ readMap g.mapText = .ok g) ∧
    ¬ ∃ g, generate 3 ⟨40, 40, 1, 2⟩ = .ok g := by
  obtain ⟨hexists, hmap⟩ := generated_map 3 ⟨40, 40, 1, 1⟩ (by decide) (by decide)
  obtain ⟨g, hg⟩ := hexists.mpr (by decide)
  obtain ⟨hpopulated, hread⟩ := hmap g hg
  refine ⟨⟨g, hg, hpopulated.hills .red, hpopulated.totalFood, hread⟩, fun hnone => ?_⟩
  exact absurd ((generated_map 3 ⟨40, 40, 1, 2⟩ (by decide) (by decide)).1.mp hnone) (by decide)

end Ground

end AntContest

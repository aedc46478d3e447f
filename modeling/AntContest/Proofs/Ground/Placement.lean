import AntContest.Proofs.Ground.Built
import Mathlib.Data.List.Forall2
import Mathlib.Data.List.Nodup

/-! # Every feature has a region of its own

The features of a generated map draw their regions from a list that gets shorter with each draw.

* `Placement` says what comes of it, for every state of the random source: different regions of
  the map, and the features of the plan in their order (`placement_scatter`).
* `Occupies` says that a feature takes a position of its region.  On the map of a placement the
  cell of a position is that of the one feature that occupies it
  (`Placement.paint_eq_of_occupies`).
* `exists_placement`: every generated map is the map of a placement. -/

namespace AntContest

namespace Ground

/-! ### Positions of a region -/

theorem columnAndRow_lt {plan : MapPlan} {region : Nat} (h : region < plan.regions) :
    region % plan.columns < plan.columns ∧ region / plan.columns < plan.rows :=
  ⟨Nat.mod_lt _ (Nat.pos_of_mul_pos_right (Nat.zero_lt_of_lt h)), Nat.div_lt_of_lt_mul h⟩

/-- The regions are numbered row by row. -/
theorem regionOf?_eq_some_iff {plan : MapPlan} {region : Nat} (h : region < plan.regions)
    {p : Position} : regionOf? plan p = some region ↔
      p.x / regionSide = region % plan.columns ∧ p.y / regionSide = region / plan.columns := by
  unfold regionOf?
  dsimp only
  have hbounds := columnAndRow_lt h
  have hcolumns : 0 < plan.columns := Nat.zero_lt_of_lt hbounds.1
  constructor
  · intro hp
    split at hp
    · next hin =>
      cases hp
      rw [Nat.mul_comm, Nat.mul_add_mod, Nat.mod_eq_of_lt hin.1, Nat.mul_add_div hcolumns,
        Nat.div_eq_of_lt hin.1]
      exact ⟨rfl, rfl⟩
    · cases hp
  · rintro ⟨hx, hy⟩
    rw [hx, hy, if_pos hbounds, Nat.div_add_mod']

/-- A position of a region, counted from the corner of the map. -/
def withinMap (column row : Nat) (q : Position) : Position :=
  ⟨column * regionSide + q.x, row * regionSide + q.y⟩

theorem withinRegion_lt (p : Position) :
    (withinRegion p).x < regionSide ∧ (withinRegion p).y < regionSide :=
  ⟨Nat.mod_lt _ (by decide), Nat.mod_lt _ (by decide)⟩

@[simp] theorem withinMap_withinRegion (p : Position) :
    withinMap (p.x / regionSide) (p.y / regionSide) (withinRegion p) = p :=
  congrArg₂ Position.mk (Nat.div_add_mod' _ _) (Nat.div_add_mod' _ _)

section Region

variable {column row : Nat} {q : Position} (hq : q.x < regionSide ∧ q.y < regionSide)

include hq

theorem withinRegion_withinMap : withinRegion (withinMap column row q) = q := by
  simp only [withinRegion, withinMap, Nat.mul_add_mod_self_right, Nat.mod_eq_of_lt hq.1,
    Nat.mod_eq_of_lt hq.2]

theorem withinMap_div : (withinMap column row q).x / regionSide = column ∧
    (withinMap column row q).y / regionSide = row := by
  simp only [withinMap, regionSide] at hq ⊢
  omega

end Region

/-- Whole regions lie on the map. -/
theorem add_lt_of_lt_div {column x side : Nat} (h : column < side / regionSide)
    (hx : x < regionSide) : column * regionSide + x < side := by
  simp only [regionSide] at h hx ⊢
  omega

/-! ### Drawing regions -/

theorem drawRegion_of_ne_nil (random : Random) {left : List Nat} (hne : left ≠ [])
    (hnodup : left.Nodup) :
    (drawRegion random left).1 ∈ left ∧
      (drawRegion random left).1 ∉ (drawRegion random left).2.1 ∧
      (drawRegion random left).2.1.Sublist left ∧
      (drawRegion random left).2.1.length + 1 = left.length := by
  have hpos : 0 < left.length := List.length_pos_iff.mpr hne
  -- The length may not fit the word that bounds the draw, but the draw is below it all the same.
  have hpick : (random.draw (UInt32.ofNat left.length)).1.toNat < left.length := by
    by_cases hzero : UInt32.ofNat left.length = 0
    · rw [hzero, Random.draw_zero]
      exact hpos
    · have hlt := UInt32.lt_iff_toNat_lt.mp (Random.draw_lt random hzero)
      have hle := Nat.mod_le left.length UInt32.size
      rw [UInt32.toNat_ofNat'] at hlt
      exact Nat.lt_of_lt_of_le hlt hle
  unfold drawRegion
  dsimp only
  generalize (random.draw (UInt32.ofNat left.length)).1.toNat = pick at hpick
  have hdrawn : left[pick]? = some left[pick] := List.getElem?_eq_getElem hpick
  rw [hdrawn, Option.getD_some]
  refine ⟨List.getElem_mem hpick, fun hmem => ?_, left.eraseIdx_sublist pick, ?_⟩
  · obtain ⟨i, hi, hsame⟩ := List.mem_eraseIdx_iff_getElem?.mp hmem
    exact hi ((List.getElem?_inj hpick hnodup).mp (hdrawn.trans hsame.symm)).symm
  · rw [List.length_eraseIdx_of_lt hpick]
    omega

/-- A feature that stands where one was to be placed. -/
inductive Pending.Placed : Pending → Feature → Prop
  | fixed (feature : Feature) : Placed (.fixed feature) feature
  | rocks (shape : RockShape) : Placed .rocks (.rocks shape)

/-- Features in different regions of a list, as many and of such kinds as were to be placed. -/
structure Scattered (pending : List Pending) (left : List Nat) (placed : List (Nat × Feature)) :
    Prop where
  nodup : (placed.map Prod.fst).Nodup
  subset : ∀ region ∈ placed.map Prod.fst, region ∈ left
  features : List.Forall₂ Pending.Placed pending (placed.map Prod.snd)

theorem Scattered.cons {pending : List Pending} {left rest : List Nat}
    {placed : List (Nat × Feature)} {pend : Pending} {region : Nat} {feature : Feature}
    (h : Scattered pending rest placed) (hsub : rest.Sublist left) (hregion : region ∈ left)
    (hrest : region ∉ rest) (hplaced : pend.Placed feature) :
    Scattered (pend :: pending) left ((region, feature) :: placed) where
  nodup := List.nodup_cons.mpr ⟨fun hmem => hrest (h.subset region hmem), h.nodup⟩
  subset := List.forall_mem_cons.mpr ⟨hregion, fun r hr => hsub.subset (h.subset r hr)⟩
  features := .cons hplaced h.features

theorem scattered_scatter {pending : List Pending} (random : Random) {left : List Nat}
    (hnodup : left.Nodup) (hlength : pending.length ≤ left.length) :
    Scattered pending left (scatter pending random left) := by
  induction pending generalizing random left with
  | nil => exact ⟨.nil, by simp [scatter], .nil⟩
  | cons pend pending ih =>
    rw [List.length_cons] at hlength
    have hne : left ≠ [] := fun h => by simp [h] at hlength
    obtain ⟨hregion, hrest, hsub, hleft⟩ := drawRegion_of_ne_nil random hne hnodup
    have hscattered (random' : Random) := ih random' (hnodup.sublist hsub) (by omega)
    cases pend with
    | fixed feature => exact (hscattered _).cons hsub hregion hrest (.fixed feature)
    | rocks => exact (hscattered _).cons hsub hregion hrest (.rocks _)

/-! ### The board -/

/-- What stands in a region of the board: what was placed there, or what stood there before. -/
theorem join_getElem?_foldl {placed : List (Nat × Feature)} (hnodup : (placed.map Prod.fst).Nodup)
    {board : Array (Option Feature)} (hlt : ∀ region ∈ placed.map Prod.fst, region < board.size)
    {region : Nat} {feature : Feature} :
    ((placed.foldl (fun b (region, feature) => b.setIfInBounds region (some feature))
        board)[region]?).join = some feature ↔
      (region, feature) ∈ placed ∨
        region ∉ placed.map Prod.fst ∧ (board[region]?).join = some feature := by
  induction placed generalizing board with
  | nil => simp
  | cons entry placed ih =>
    obtain ⟨r, f⟩ := entry
    obtain ⟨hr, hnodup⟩ := List.nodup_cons.mp hnodup
    obtain ⟨hsize, hlt⟩ := List.forall_mem_cons.mp hlt
    dsimp only at hr hsize
    rw [List.foldl_cons, ih hnodup (by simpa using hlt), Array.getElem?_setIfInBounds,
      List.mem_cons, List.map_cons, List.mem_cons, Prod.mk.injEq]
    by_cases hsame : r = region
    · subst hsame
      simp only [if_true, hsize, hr, not_false_eq_true, true_and, not_true_eq_false,
        false_and, or_false, Option.join_some, Option.some.injEq]
      rw [or_comm, eq_comm]
    · simp only [hsame, if_false, Ne.symm hsame, false_and, false_or]

/-- The features of a plan in different regions of its map. -/
def Placement (plan : MapPlan) (placed : List (Nat × Feature)) : Prop :=
  Scattered (pending plan) (List.range plan.regions) placed

theorem length_pending (plan : MapPlan) : (pending plan).length = plan.needed := by
  simp only [pending, MapPlan.needed, List.length_append, List.length_cons, List.length_nil,
    List.length_replicate]

theorem placement_scatter {plan : MapPlan} (h : plan.needed ≤ plan.regions) (random : Random) :
    Placement plan (scatter (pending plan) random (List.range plan.regions)) :=
  scattered_scatter random List.nodup_range (by rwa [length_pending, List.length_range])

section Board

variable {plan : MapPlan} {placed : List (Nat × Feature)}

theorem Placement.lt (h : Placement plan placed) {entry : Nat × Feature} (hentry : entry ∈ placed) :
    entry.1 < plan.regions :=
  List.mem_range.mp (h.subset _ (List.mem_map_of_mem hentry))

theorem Placement.eq_of_region_eq (h : Placement plan placed) {entry entry' : Nat × Feature}
    (hentry : entry ∈ placed) (hentry' : entry' ∈ placed) (hregion : entry.1 = entry'.1) :
    entry = entry' :=
  List.inj_on_of_nodup_map h.nodup hentry hentry' hregion

theorem Placement.join_board_iff (h : Placement plan placed) {region : Nat} {feature : Feature} :
    ((board plan placed)[region]?).join = some feature ↔ (region, feature) ∈ placed := by
  have hempty : ((Array.replicate plan.regions (none : Option Feature))[region]?).join = none := by
    rw [Array.getElem?_replicate]
    split <;> rfl
  rw [board, join_getElem?_foldl h.nodup, hempty]
  · simp
  · intro r hr
    rw [Array.size_replicate]
    exact List.mem_range.mp (h.subset r hr)

/-- A feature takes a position of its region. -/
structure Occupies (plan : MapPlan) (entry : Nat × Feature) (p : Position) : Prop where
  region : regionOf? plan p = some entry.1
  margins : inMargins (withinRegion p) = true
  covers : entry.2.covers (withinRegion p) = true

theorem occupies_iff {plan : MapPlan} {entry : Nat × Feature} {p : Position} :
    Occupies plan entry p ↔ regionOf? plan p = some entry.1 ∧
      inMargins (withinRegion p) = true ∧ entry.2.covers (withinRegion p) = true :=
  ⟨fun h => ⟨h.region, h.margins, h.covers⟩, fun h => ⟨h.1, h.2.1, h.2.2⟩⟩

instance (plan : MapPlan) (entry : Nat × Feature) (p : Position) :
    Decidable (Occupies plan entry p) := decidable_of_iff' _ occupies_iff

theorem Placement.featureCell?_iff (h : Placement plan placed) {p : Position} {c : Cell} :
    featureCell? (board plan placed) plan p = some c ↔
      ∃ entry ∈ placed, Occupies plan entry p ∧ c = entry.2.cell := by
  unfold featureCell?
  constructor
  · intro hcell
    obtain ⟨region, hregion, hcell⟩ := Option.bind_eq_some_iff.mp hcell
    obtain ⟨feature, hfeature, hcell⟩ := Option.bind_eq_some_iff.mp hcell
    dsimp only at hcell
    split at hcell
    · next hcovers =>
      cases hcell
      obtain ⟨hmargins, hcovers⟩ := Bool.and_eq_true_iff.mp hcovers
      exact ⟨(region, feature), h.join_board_iff.mp hfeature, ⟨hregion, hmargins, hcovers⟩, rfl⟩
    · cases hcell
  · rintro ⟨⟨region, feature⟩, hmem, ⟨hregion, hmargins, hcovers⟩, rfl⟩
    refine Option.bind_eq_some_iff.mpr ⟨region, hregion, ?_⟩
    refine Option.bind_eq_some_iff.mpr ⟨feature, h.join_board_iff.mpr hmem, ?_⟩
    dsimp only
    rw [if_pos (Bool.and_eq_true_iff.mpr ⟨hmargins, hcovers⟩)]

/-- What is painted at a position: the feature that takes it, if there is one. -/
theorem Placement.paint_eq_of_occupies (h : Placement plan placed) {entry : Nat × Feature}
    {p : Position} (hentry : entry ∈ placed) (hp : Occupies plan entry p) (width height : Side) :
    paint (board plan placed) plan width height p = entry.2.cell := by
  rw [paint, h.featureCell?_iff.mpr ⟨entry, hentry, hp, rfl⟩, Option.getD_some]

theorem Placement.paint_eq_of_free (h : Placement plan placed) {p : Position}
    (hp : ∀ entry ∈ placed, ¬ Occupies plan entry p) (width height : Side) :
    paint (board plan placed) plan width height p =
      .fresh (if onBorder width height p then .rock else .clear) 0 := by
  have hnone : featureCell? (board plan placed) plan p = none := by
    rw [Option.eq_none_iff_forall_ne_some]
    intro c hc
    obtain ⟨entry, hentry, hoccupies, -⟩ := h.featureCell?_iff.mp hc
    exact hp entry hentry hoccupies
  rw [paint, hnone, Option.getD_none]

theorem Placement.paint_cases (h : Placement plan placed) (width height : Side) (p : Position) :
    (∃ entry ∈ placed, Occupies plan entry p ∧
      paint (board plan placed) plan width height p = entry.2.cell) ∨
    (∀ entry ∈ placed, ¬ Occupies plan entry p) ∧
      paint (board plan placed) plan width height p =
        .fresh (if onBorder width height p then .rock else .clear) 0 := by
  by_cases hp : ∃ entry ∈ placed, Occupies plan entry p
  · obtain ⟨entry, hentry, hoccupies⟩ := hp
    exact .inl ⟨entry, hentry, hoccupies, h.paint_eq_of_occupies hentry hoccupies width height⟩
  · have hfree (entry) (hentry : entry ∈ placed) : ¬ Occupies plan entry p :=
      fun hoccupies => hp ⟨entry, hentry, hoccupies⟩
    exact .inr ⟨hfree, h.paint_eq_of_free hfree width height⟩

end Board

/-! ### Maps of placements -/

/-- The map on which features stand in the regions of a plan. -/
def mapOf (plan : MapPlan) (placed : List (Nat × Feature)) (width height : Side) : Ground :=
  tabulate width height (paint (board plan placed) plan width height)

/-- A generated map shows the features of its plan, each in a region of its own. -/
theorem exists_placement {seed : Int64} {plan : MapPlan} {g : Ground}
    (h : generate seed plan = .ok g) : ∃ placed, Placement plan placed ∧
      g.width.val = plan.width ∧ g.height.val = plan.height ∧
      g = mapOf plan placed g.width g.height := by
  obtain ⟨hregions, width, height, hwidth, hheight, rfl⟩ := generate_eq_ok_iff.mp h
  exact ⟨_, placement_scatter hregions _, hwidth, hheight, rfl⟩

end Ground

end AntContest

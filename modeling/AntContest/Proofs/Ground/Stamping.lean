import AntContest.Proofs.Ground.MapRoundTrip
import AntContest.Proofs.Ground.Placement
import AntContest.Proofs.Ground.Register

/-! # Maps made by stamping

`generate` draws first where everything stands and then paints the map, position by position.  A
map can be made the other way round: the ground is walled, a region is drawn for a feature, the
feature is stamped there by changing cell after cell, and the next one is taken up.  That is
`stampedMap`, and it makes the same maps (`generate_eq_stampedMap`).

* A stamp is a list of calls, one for each position that its feature occupies
  (`mem_stampCalls_iff`).
* No two features of a placement occupy the same position, so no stamp touches what another one has
  left, and a cell of the walled ground becomes what is painted there (`mapOf_eq_after`). -/

namespace AntContest

/-- The call that sets a position as a feature has it. -/
def Feature.change (f : Feature) (p : Position) : Change :=
  match f with
  | hill owner => .terrain p (.hill owner)
  | blob => .food p blobFood
  | rocks _ => .terrain p .rock

theorem Feature.position_change (f : Feature) (p : Position) : (f.change p).position = p := by
  cases f <;> rfl

/-- Clear ground becomes a cell of the feature.  Of other ground this would not be true: a blob
leaves the terrain as it is, and a hill the food. -/
theorem Feature.onCell_change (f : Feature) (p : Position) :
    (f.change p).onCell (.fresh .clear 0) = f.cell := by
  cases f <;> rfl

namespace Ground

/-! ### Stamps -/

/-- The columns of a region that a feature may take, or the rows. -/
def stampRange : List Nat := List.range' regionMargin (regionSide - 2 * regionMargin)

def corner (plan : MapPlan) (region : Nat) : Position :=
  ⟨region % plan.columns * regionSide, region / plan.columns * regionSide⟩

/-- Stamps a feature into the region at a corner: the calls are made row by row, and it does not
matter what they answer. -/
def stamp (g : Ground) (corner : Position) (f : Feature) : Ground :=
  stampRange.foldl (fun g y => stampRange.foldl (fun g x =>
    if f.covers ⟨x, y⟩ then ((f.change ⟨corner.x + x, corner.y + y⟩).result? g).getD g else g) g) g

/-- What is at hand between two features: the random source, the regions that are left, and the
ground as it has been stamped so far. -/
structure Stamping where
  random : Random
  left : List Nat
  ground : Ground

/-- Draws a region for a feature and stamps it there. -/
def Stamping.place (plan : MapPlan) (s : Stamping) (pend : Pending) : Stamping :=
  let (region, left, random) := drawRegion s.random s.left
  match pend with
  | .fixed feature => ⟨random, left, s.ground.stamp (corner plan region) feature⟩
  | .rocks =>
    let (shape, random) := drawShape random
    ⟨random, left, s.ground.stamp (corner plan region) (.rocks shape)⟩

/-- Generates a map from a seed by stamping it. -/
def stampedMap (seed : Int64) (plan : MapPlan) : Except MapPlanError Ground := do
  if plan.regions < plan.needed then throw (.tooSmall plan)
  let some width := Side.ofNat? plan.width | throw .noSide
  let some height := Side.ofNat? plan.height | throw .noSide
  let start : Stamping := ⟨.ofSeed seed, List.range plan.regions, walled width height⟩
  return ((pending plan).foldl (.place plan) start).ground

/-! ### Stamps as lists of calls -/

def stampCalls (plan : MapPlan) (entry : Nat × Feature) : List Change :=
  ((stampRange.flatMap fun y => stampRange.map fun x => (⟨x, y⟩ : Position)).filter
    entry.2.covers).map fun q =>
      entry.2.change (withinMap (entry.1 % plan.columns) (entry.1 / plan.columns) q)

theorem stamp_eq_after (g : Ground) (plan : MapPlan) (entry : Nat × Feature) :
    g.stamp (corner plan entry.1) entry.2 = g.after (stampCalls plan entry) := by
  rw [after, stampCalls, List.foldl_map, List.foldl_filter, List.foldl_flatMap]
  simp only [List.foldl_map]
  rfl

theorem after_append (g : Ground) (calls calls' : List Change) :
    g.after (calls ++ calls') = (g.after calls).after calls' :=
  List.foldl_append

/-- What is stamped all in all, in the regions and with the shapes that `scatter` draws. -/
theorem ground_foldl_place (plan : MapPlan) (pending : List Pending) (s : Stamping) :
    (pending.foldl (.place plan) s).ground =
      s.ground.after ((scatter pending s.random s.left).flatMap (stampCalls plan)) := by
  induction pending generalizing s with
  | nil => rfl
  | cons pend pending ih =>
    rw [List.foldl_cons, ih]
    cases pend <;>
      rw [scatter, List.flatMap_cons, after_append, ← stamp_eq_after, Stamping.place]

theorem inMargins_iff {q : Position} :
    inMargins q = true ↔ q.x ∈ stampRange ∧ q.y ∈ stampRange := by
  simp only [inMargins, Bool.and_eq_true, decide_eq_true_eq]
  simp only [stampRange, List.mem_range'_1, regionMargin, regionSide]
  omega

theorem lt_of_inMargins {q : Position} (h : inMargins q = true) :
    q.x < regionSide ∧ q.y < regionSide := by
  simp only [inMargins, Bool.and_eq_true, decide_eq_true_eq] at h
  simp only [regionSide] at h ⊢
  omega

theorem mem_stampCalls_iff {plan : MapPlan} {entry : Nat × Feature} (h : entry.1 < plan.regions)
    {c : Change} :
    c ∈ stampCalls plan entry ↔ ∃ p, Occupies plan entry p ∧ entry.2.change p = c := by
  have hpositions (q : Position) :
      (q ∈ stampRange.flatMap fun y => stampRange.map fun x => ⟨x, y⟩) ↔ inMargins q = true := by
    rw [inMargins_iff]
    constructor
    · intro hq
      obtain ⟨y, hy, hq⟩ := List.mem_flatMap.mp hq
      obtain ⟨x, hx, rfl⟩ := List.mem_map.mp hq
      exact ⟨hx, hy⟩
    · rintro ⟨hx, hy⟩
      exact List.mem_flatMap.mpr ⟨q.y, hy, List.mem_map.mpr ⟨q.x, hx, rfl⟩⟩
  simp only [stampCalls, List.mem_map, List.mem_filter, hpositions]
  constructor
  · rintro ⟨q, ⟨hmargins, hcovers⟩, rfl⟩
    have hq := lt_of_inMargins hmargins
    refine ⟨_, ⟨(regionOf?_eq_some_iff h).mpr (withinMap_div hq), ?_, ?_⟩, rfl⟩
    · rwa [withinRegion_withinMap hq]
    · rwa [withinRegion_withinMap hq]
  · rintro ⟨p, hp, rfl⟩
    obtain ⟨hx, hy⟩ := (regionOf?_eq_some_iff h).mp hp.region
    exact ⟨withinRegion p, ⟨hp.margins, hp.covers⟩, by rw [← hx, ← hy, withinMap_withinRegion]⟩

/-! ### Painting and stamping -/

section

variable {plan : MapPlan} {placed : List (Nat × Feature)}

/-- A position that a feature of a placement occupies is named by one call of that feature, and by
no other one. -/
theorem Placement.mem_calls_iff (h : Placement plan placed) {entry : Nat × Feature} {p : Position}
    (hentry : entry ∈ placed) (hp : Occupies plan entry p) {c : Change} :
    c ∈ placed.flatMap (stampCalls plan) ∧ c.position = p ↔ c = entry.2.change p := by
  constructor
  · rintro ⟨hc, hposition⟩
    obtain ⟨entry', hentry', hc⟩ := List.mem_flatMap.mp hc
    obtain ⟨q, hq, rfl⟩ := (mem_stampCalls_iff (h.lt hentry')).mp hc
    rw [Feature.position_change] at hposition
    subst hposition
    have hregion := Option.some.inj (hq.region.symm.trans hp.region)
    rw [h.eq_of_region_eq hentry' hentry hregion]
  · rintro rfl
    refine ⟨List.mem_flatMap.mpr ⟨entry, hentry, ?_⟩, Feature.position_change _ _⟩
    exact (mem_stampCalls_iff (h.lt hentry)).mpr ⟨p, hp, rfl⟩

/-- Painting the features of a placement comes to the same as stamping them. -/
theorem mapOf_eq_after (h : Placement plan placed) {width height : Side}
    (hwidth : width.val = plan.width) (hheight : height.val = plan.height) :
    mapOf plan placed width height =
      (walled width height).after (placed.flatMap (stampCalls plan)) := by
  obtain ⟨hw, hh⟩ := sides_after (walled width height) (placed.flatMap (stampCalls plan))
  refine ext_cell? hw.symm hh.symm fun p => ?_
  have hwalled : (walled width height).cell? p = _ := cell?_tabulate width height _ p
  rw [mapOf, cell?_tabulate]
  rcases h.paint_cases width height p with ⟨entry, hentry, hp, hpaint⟩ | ⟨hfree, hpaint⟩
  · have hcalls (c : Change) := h.mem_calls_iff hentry hp (c := c)
    -- Features keep clear of the border, so what they change is clear ground.
    have hborder : onBorder width height p = false := by
      rw [Bool.eq_false_iff]
      intro hborder
      have hcell := h.featureCell?_iff.mpr ⟨entry, hentry, hp, rfl⟩
      rw [featureCell?_of_onBorder hwidth hheight hborder] at hcell
      cases hcell
    rw [cell?_after (entry.2.position_change p) fun c hc hcp => (hcalls c).mp ⟨hc, hcp⟩,
      if_pos ((hcalls _).mpr rfl).1, hwalled, hpaint, hborder]
    split
    · exact congrArg some (entry.2.onCell_change p).symm
    · rfl
  · have hcalls (c : Change) (hc : c ∈ placed.flatMap (stampCalls plan)) : c.position ≠ p := by
      rintro rfl
      obtain ⟨entry, hentry, hc⟩ := List.mem_flatMap.mp hc
      obtain ⟨q, hq, rfl⟩ := (mem_stampCalls_iff (h.lt hentry)).mp hc
      rw [Feature.position_change] at hfree
      exact hfree entry hentry hq
    have hposition : (Change.terrain p .rock).position = p := rfl
    rw [cell?_after hposition fun c hc hcp => absurd hcp (hcalls c hc),
      if_neg fun hc => hcalls _ hc hposition, hwalled, hpaint]

end

/-- Stamping makes the maps that are generated, and fails where none is. -/
theorem generate_eq_stampedMap (seed : Int64) (plan : MapPlan) :
    generate seed plan = stampedMap seed plan := by
  unfold generate stampedMap
  dsimp only
  by_cases hregions : plan.regions < plan.needed
  · simp only [hregions, if_true]
    rfl
  · simp only [hregions, if_false]
    cases hwidth : Side.ofNat? plan.width with
    | none => rfl
    | some width =>
      cases hheight : Side.ofNat? plan.height with
      | none => rfl
      | some height =>
        have hplacement := placement_scatter (Nat.le_of_not_lt hregions) (.ofSeed seed)
        have hstamped := mapOf_eq_after hplacement (Side.val_of_ofNat? hwidth)
          (Side.val_of_ofNat? hheight)
        dsimp only
        rw [ground_foldl_place, ← hstamped, mapOf]

end Ground

end AntContest

import AntContest.Proofs.Ground.Distance
import Mathlib.Order.Bounds.Basic

/-! # Distance is the length of a shortest path

A `Walk` goes from neighbour to neighbour on the ground, over whatever terrain.  Every step of it
changes the distance by one at most, so no walk is shorter than the distance
(`Walk.stepsApart_le`).

The walk that is as short as that goes row by row to the row of the goal, and then along it.
`Position.towards` is its first position: a neighbour (`stepsApart_towards`) that is one step nearer
to the goal (`stepsApart_of_towards`) and on every ground that has both ends (`contains_towards`).

`distance_isLeast_walk` puts this together, with what it means for a distance to be one of a
metric. -/

namespace AntContest

namespace Position

/-- The place in the row in half columns, which shows the stagger of the odd rows. -/
def halfColumns (p : Position) : Nat := 2 * p.x + p.y % 2

/-- The next position on the way to a goal.  In another row the way goes to that side on which the
goal lies; if it lies on neither, to that side on which a neighbour has the same column. -/
def towards (p q : Position) : Position :=
  if p.y = q.y then ⟨if p.x < q.x then p.x + 1 else p.x - 1, p.y⟩
  else
    let east := p.halfColumns < q.halfColumns ∨ p.halfColumns = q.halfColumns ∧ p.y % 2 = 0
    ⟨(if east then p.halfColumns + 1 else p.halfColumns - 1) / 2,
      if p.y < q.y then p.y + 1 else p.y - 1⟩

section

variable {p q : Position}

/-- Rows are crossed half a column at a time; the rest of the columns takes as many steps. -/
theorem stepsApart_eq_max (p q : Position) :
    let rows := ((p.y : Int) - q.y).natAbs
    let halves := ((p.halfColumns : Int) - q.halfColumns).natAbs
    p.stepsApart q = max rows ((halves + rows) / 2) := by
  unfold stepsApart slant halfColumns
  dsimp only
  omega

/-- Where the way to a goal leads, in rows and half columns. -/
theorem towards_cases (hne : p ≠ q) :
    let r := p.towards q
    (r.y = p.y ∧ p.y = q.y ∧
      (p.x < q.x ∧ r.x = p.x + 1 ∨ q.x < p.x ∧ r.x + 1 = p.x)) ∨
    ((p.y < q.y ∧ r.y = p.y + 1 ∨ q.y < p.y ∧ r.y + 1 = p.y) ∧
      (p.halfColumns < q.halfColumns ∧ r.halfColumns = p.halfColumns + 1 ∨
        q.halfColumns < p.halfColumns ∧ r.halfColumns + 1 = p.halfColumns ∨
        p.halfColumns = q.halfColumns ∧ r.x = p.x)) := by
  obtain ⟨x, y⟩ := p
  obtain ⟨x', y'⟩ := q
  rw [ne_eq, mk.injEq] at hne
  unfold towards halfColumns
  dsimp only
  split
  · next hrow =>
    dsimp only
    split <;> omega
  · next hrow =>
    dsimp only
    generalize hnext : (if y < y' then y + 1 else y - 1) = next
    have hrows : y < y' ∧ next = y + 1 ∨ y' < y ∧ next + 1 = y := by
      split at hnext <;> omega
    refine .inr ⟨hrows, ?_⟩
    -- The next row is staggered the other way.
    have hparity : next % 2 + y % 2 = 1 := by omega
    clear hrows hnext hrow hne
    split <;> omega

theorem stepsApart_towards (hne : p ≠ q) : p.stepsApart (p.towards q) = 1 := by
  have hcases := towards_cases hne
  rw [stepsApart_eq_max]
  unfold halfColumns at hcases ⊢
  omega

/-- It is one step nearer to the goal. -/
theorem stepsApart_of_towards (hne : p ≠ q) :
    (p.towards q).stepsApart q + 1 = p.stepsApart q := by
  have hcases := towards_cases hne
  rw [stepsApart_eq_max, stepsApart_eq_max]
  rcases hcases with ⟨hstay, hrow, hcolumn⟩ | ⟨hrow, hcolumn⟩
  · unfold halfColumns
    rw [hstay, hrow]
    omega
  · have hrows : ((p.y : Int) - q.y).natAbs = (((p.towards q).y : Int) - q.y).natAbs + 1 := by
      omega
    rcases hcolumn with hcolumn | hcolumn | ⟨hlevel, hcolumn⟩
    · omega
    · omega
    · -- Below or above the goal the rows alone count, and there are two of them at least.
      unfold halfColumns at hlevel ⊢
      omega

end

end Position

namespace Ground

theorem contains_towards {g : Ground} {p q : Position} (hp : g.contains p = true)
    (hq : g.contains q = true) (hne : p ≠ q) : g.contains (p.towards q) = true := by
  obtain ⟨hpx, hpy⟩ := contains_iff.mp hp
  obtain ⟨hqx, hqy⟩ := contains_iff.mp hq
  have hcases := Position.towards_cases hne
  unfold Position.halfColumns at hcases
  exact contains_iff.mpr ⟨by omega, by omega⟩

/-- A walk of a number of steps between two positions. -/
inductive Walk (g : Ground) : Nat → Position → Position → Prop
  | here (p : Position) : Walk g 0 p p
  | step {n : Nat} {p q r : Position} (d : Direction) :
      g.adjacent? p d = some q → Walk g n q r → Walk g (n + 1) p r

section

variable {g : Ground} {p q : Position}

/-- No walk is shorter than the distance. -/
theorem Walk.stepsApart_le {n : Nat} (h : g.Walk n p q) : p.stepsApart q ≤ n := by
  induction h with
  | here p => exact Nat.le_of_eq p.stepsApart_self
  | @step n p q r d hd _ ih =>
    have hfirst := stepsApart_of_adjacent? hd
    have htriangle := p.stepsApart_triangle q r
    omega

theorem exists_adjacent?_iff (hq : g.contains q = true) :
    (∃ d, g.adjacent? p d = some q) ↔ p.stepsApart q = 1 := by
  have hx : q.x < Position.limit := Nat.lt_trans (contains_iff.mp hq).1 g.width.property.2
  simp only [adjacent?_eq_some_iff, hq, and_true, Position.exists_step_iff hx]

theorem walk_stepsApart (hp : g.contains p = true) (hq : g.contains q = true) :
    g.Walk (p.stepsApart q) p q := by
  -- On the distance: `towards` leads one step nearer and stays on the ground.
  induction hn : p.stepsApart q generalizing p with
  | zero =>
    rw [Position.stepsApart_eq_zero_iff.mp hn]
    exact .here q
  | succ n ih =>
    have hne : p ≠ q := by
      rintro rfl
      rw [Position.stepsApart_self] at hn
      cases hn
    have hnext := contains_towards hp hq hne
    have hnearer := Position.stepsApart_of_towards hne
    obtain ⟨d, hd⟩ := (exists_adjacent?_iff hnext).mpr (Position.stepsApart_towards hne)
    exact .step d hd (ih hnext (by omega))

theorem isLeast_walk (hp : g.contains p = true) (hq : g.contains q = true) :
    IsLeast {n | g.Walk n p q} (p.stepsApart q) :=
  ⟨walk_stepsApart hp hq, fun _ h => h.stepsApart_le⟩

theorem mem_neighbours (hq : g.contains q = true) :
    q ∈ g.neighbours p ↔ p.stepsApart q = 1 := by
  rw [mem_neighbours_iff, exists_adjacent?_iff hq]

end

/-- On a ground with sides below `2 ^ 31` the distance of two positions is the length of a shortest
walk from one to the other.  It is symmetric, it obeys the triangle inequality, and it is zero for
equal positions only, and one for neighbours only. -/
theorem distance_isLeast_walk {g : Ground} (hwidth : g.width.val < 2 ^ 31)
    (hheight : g.height.val < 2 ^ 31) :
    (∀ p q, g.contains p = true → g.contains q = true →
      IsLeast {n | g.Walk n p q} (p.distance q) ∧ p.distance q = q.distance p ∧
        (p.distance q = 0 ↔ p = q) ∧ (p.distance q = 1 ↔ q ∈ g.neighbours p)) ∧
    ∀ p q r, g.contains p = true → g.contains q = true → g.contains r = true →
      p.distance r ≤ p.distance q + q.distance r := by
  have hsides : g.WordSides := ⟨by omega, by omega⟩
  refine ⟨fun p q hp hq => ?_, fun p q r hp hq hr => ?_⟩
  · rw [hsides.distance_eq hp hq, hsides.distance_eq hq hp]
    exact ⟨isLeast_walk hp hq, p.stepsApart_comm q, Position.stepsApart_eq_zero_iff,
      (mem_neighbours hq).symm⟩
  · rw [hsides.distance_eq hp hr, hsides.distance_eq hp hq, hsides.distance_eq hq hr]
    exact p.stepsApart_triangle q r

/-- For example from end to end of a ground of one column, where every other step goes aside. -/
theorem distance_on_one_column :
    ∃ (g : Ground) (p q : Position), g.width.val = 1 ∧ g.contains p = true ∧
      g.contains q = true ∧ p.distance q = 4 ∧ IsLeast {n | g.Walk n p q} 4 := by
  let g := Ground.clear ⟨1, by decide⟩ ⟨5, by decide⟩
  have hp : g.contains ⟨0, 0⟩ = true := by decide +kernel
  have hq : g.contains ⟨0, 4⟩ = true := by decide +kernel
  have hfour : (⟨0, 0⟩ : Position).distance ⟨0, 4⟩ = 4 := by decide +kernel
  obtain ⟨hleast, -⟩ := (distance_isLeast_walk (g := g) (by decide +kernel)
    (by decide +kernel)).1 _ _ hp hq
  rw [hfour] at hleast
  exact ⟨g, _, _, rfl, hp, hq, hfour, hleast⟩

end Ground

end AntContest

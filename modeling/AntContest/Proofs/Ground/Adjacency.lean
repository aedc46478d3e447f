import AntContest.Proofs.Ground.Distance
import Mathlib.Data.List.Nodup

/-! # Six neighbours

On the unbounded plane every position has six coordinates beside it, one in each direction; which
ones they are depends on the parity of its row.  `Position.beside` is their table, in integers, so
that it also names those that lie west of the first column and north of the first row.

* `adjacent?_eq_some_iff_beside`: a neighbour is what the table names, if that lies on the ground.
* `adjacent?_eq_some_iff_opposite`: neighbours are neighbours of one another.  Four of the six
  directions change the parity of the row, so the way back is read off the other half of the table.
* `isSome_adjacent?_iff` and `covers_beside`: where there is a neighbour at all.

What `neighbours` lists follows from them (`NeighbourLaws`, `adjacency_sixfold`). -/

namespace AntContest

theorem Direction.pairwise_all : all.Pairwise fun d e => d.index < e.index := by decide

namespace Position

/-- The coordinates beside a position of the unbounded plane.  Towards the rows above and below, an
odd row reaches one column further east than an even one. -/
def beside (p : Position) : Direction → Int × Int
  | .east => (p.x + 1, p.y)
  | .southEast => (if p.y % 2 = 0 then p.x else p.x + 1, p.y + 1)
  | .southWest => (if p.y % 2 = 0 then p.x - 1 else p.x, p.y + 1)
  | .west => (p.x - 1, p.y)
  | .northWest => (if p.y % 2 = 0 then p.x - 1 else p.x, p.y - 1)
  | .northEast => (if p.y % 2 = 0 then p.x else p.x + 1, p.y - 1)

/-- A step leads to what lies beside, as long as that has coordinates. -/
theorem step_eq_some_iff_beside {p q : Position} {d : Direction} (hq : q.x < limit) :
    p.step d = some q ↔ p.beside d = (↑q.x, ↑q.y) := by
  rw [step_eq_some_iff, Prod.ext_iff]
  cases d <;> simp only [StepsTo, beside]
  case east => omega
  case west => omega
  -- The parity decides on the column of a diagonal neighbour.
  all_goals split <;> omega

end Position

namespace Ground

/-- Coordinates within the sides of a ground. -/
def Covers (g : Ground) (z : Int × Int) : Prop :=
  0 ≤ z.1 ∧ z.1 < g.width.val ∧ 0 ≤ z.2 ∧ z.2 < g.height.val

section

variable {g : Ground} {p q : Position} {d e : Direction}

theorem covers_iff {z : Int × Int} :
    g.Covers z ↔ ∃ q, g.contains q = true ∧ z = (↑q.x, ↑q.y) := by
  constructor
  · rintro ⟨hwest, heast, hnorth, hsouth⟩
    refine ⟨⟨z.1.toNat, z.2.toNat⟩, contains_iff.mpr ⟨?_, ?_⟩, Prod.ext ?_ ?_⟩ <;> dsimp only <;>
      omega
  · rintro ⟨q, hq, rfl⟩
    obtain ⟨hx, hy⟩ := contains_iff.mp hq
    refine ⟨?_, ?_, ?_, ?_⟩ <;> dsimp only <;> omega

/-- A neighbour is what lies beside on the ground. -/
theorem adjacent?_eq_some_iff_beside :
    g.adjacent? p d = some q ↔ g.contains q = true ∧ p.beside d = (↑q.x, ↑q.y) := by
  rw [adjacent?_eq_some_iff, and_comm]
  refine and_congr_right fun hq => Position.step_eq_some_iff_beside ?_
  exact Nat.lt_trans (contains_iff.mp hq).1 g.width.property.2

theorem adjacent?_eq_some_iff_opposite (hp : g.contains p = true) :
    g.adjacent? p d = some q ↔ g.contains q = true ∧ g.adjacent? q d.opposite = some p := by
  constructor
  · intro h
    exact ⟨(adjacent?_eq_some_iff.mp h).2, adjacent?_opposite hp h⟩
  · rintro ⟨hq, h⟩
    have hback := adjacent?_opposite hq h
    rwa [Direction.opposite_opposite] at hback

theorem adjacent?_inj (hd : g.adjacent? p d = some q) (he : g.adjacent? p e = some q) : d = e :=
  Position.step_inj (adjacent?_eq_some_iff.mp hd).1 (adjacent?_eq_some_iff.mp he).1

theorem adjacent?_ne_self : g.adjacent? p d ≠ some p := by
  intro h
  have happart := stepsApart_of_adjacent? h
  rw [Position.stepsApart_self] at happart
  cases happart

theorem isSome_adjacent?_iff : (g.adjacent? p d).isSome = true ↔ g.Covers (p.beside d) := by
  rw [Option.isSome_iff_exists, covers_iff]
  exact exists_congr fun q => adjacent?_eq_some_iff_beside

/-! ### The list of neighbours -/

theorem nodup_neighbours : (g.neighbours p).Nodup := by
  have hall : Direction.all.Nodup := Direction.pairwise_all.imp fun hlt heq => by
    rw [heq] at hlt
    exact Nat.lt_irrefl _ hlt
  exact hall.filterMap fun d e q hd he => adjacent?_inj hd he

theorem pairwise_neighbours : (g.neighbours p).Pairwise fun q r =>
    ∀ d e, g.adjacent? p d = some q → g.adjacent? p e = some r → d.index < e.index := by
  rw [neighbours, List.pairwise_filterMap]
  refine Direction.pairwise_all.imp fun {d e} hlt q hq r hr d' e' hd' he' => ?_
  obtain rfl : d = d' := adjacent?_inj hq hd'
  obtain rfl : e = e' := adjacent?_inj hr he'
  exact hlt

theorem length_neighbours_eq_six_iff :
    (g.neighbours p).length = 6 ↔ ∀ d, g.Covers (p.beside d) := by
  have hall : Direction.all.length = 6 := rfl
  rw [neighbours, List.length_filterMap_eq_countP, ← hall, List.countP_eq_length]
  simp only [Direction.mem_all, true_imp_iff, isSome_adjacent?_iff]

/-- Within the border all six lie on the ground. -/
theorem covers_beside (hp : g.contains p = true) (hborder : g.isBorder p = false) :
    g.Covers (p.beside d) := by
  obtain ⟨hx, hy⟩ := contains_iff.mp hp
  simp only [isBorder, onBorder, Bool.or_eq_false_iff, beq_eq_false_iff_ne] at hborder
  cases d <;> simp only [Position.beside, Covers]
  case east => omega
  case west => omega
  all_goals split <;> omega

end

/-- The laws of the neighbours of a position. -/
structure NeighbourLaws (g : Ground) (p : Position) : Prop where
  /-- In each direction the neighbour is what lies beside, if that is on the ground. -/
  beside : ∀ d q, g.adjacent? p d = some q ↔ g.contains q = true ∧ p.beside d = (↑q.x, ↑q.y)
  /-- The way back leads in the opposite direction. -/
  back : ∀ d q, g.adjacent? p d = some q ↔
    g.contains q = true ∧ g.adjacent? q d.opposite = some p
  /-- Different directions lead to different neighbours. -/
  distinct : ∀ d e q, g.adjacent? p d = some q → g.adjacent? p e = some q → d = e
  /-- The position itself is none of them. -/
  elsewhere : ∀ d, g.adjacent? p d ≠ some p
  /-- All neighbours are listed, and nothing else. -/
  listed : ∀ q, q ∈ g.neighbours p ↔ ∃ d, g.adjacent? p d = some q
  /-- Each is listed once. -/
  once : (g.neighbours p).Nodup
  /-- They are listed clockwise from east. -/
  clockwise : (g.neighbours p).Pairwise fun q r =>
    ∀ d e, g.adjacent? p d = some q → g.adjacent? p e = some r → d.index < e.index
  /-- There are six of them if all that lies beside is on the ground, and only then. -/
  six : (g.neighbours p).length = 6 ↔ ∀ d, g.Covers (p.beside d)
  /-- Within the border all that lies beside is on the ground. -/
  inside : g.isBorder p = false → ∀ d, g.Covers (p.beside d)

/-- Every position of every ground has the neighbours that the parity of its row says, and each of
them has it as the neighbour on the opposite side. -/
theorem adjacency_sixfold {g : Ground} {p : Position} (hp : g.contains p = true) :
    g.NeighbourLaws p where
  beside _ _ := adjacent?_eq_some_iff_beside
  back _ _ := adjacent?_eq_some_iff_opposite hp
  distinct _ _ _ := adjacent?_inj
  elsewhere _ := adjacent?_ne_self
  listed _ := mem_neighbours_iff
  once := nodup_neighbours
  clockwise := pairwise_neighbours
  six := length_neighbours_eq_six_iff
  inside hborder _ := covers_beside hp hborder

/-- For example on a ground of three by three: in its middle there are six, listed clockwise from
east, and at the western end of the same row, which is odd, there are five. -/
theorem neighbours_of_three_by_three :
    ∃ (g : Ground) (p q : Position), g.contains p = true ∧ g.contains q = true ∧
      g.NeighbourLaws p ∧ g.isBorder p = false ∧ (g.neighbours p).length = 6 ∧
      g.neighbours p = [⟨2, 1⟩, ⟨2, 2⟩, ⟨1, 2⟩, ⟨0, 1⟩, ⟨1, 0⟩, ⟨2, 0⟩] ∧
      g.NeighbourLaws q ∧ ¬ g.Covers (q.beside .west) ∧
      g.neighbours q = [⟨1, 1⟩, ⟨1, 2⟩, ⟨0, 2⟩, ⟨0, 0⟩, ⟨1, 0⟩] := by
  let g := Ground.clear ⟨3, by decide⟩ ⟨3, by decide⟩
  have hp : g.contains ⟨1, 1⟩ = true := by decide
  have hq : g.contains ⟨0, 1⟩ = true := by decide
  have hmiddle := adjacency_sixfold hp
  have hend := adjacency_sixfold hq
  have hinside : g.isBorder ⟨1, 1⟩ = false := by decide
  refine ⟨g, _, _, hp, hq, hmiddle, hinside, hmiddle.six.mpr (hmiddle.inside hinside),
    by decide, hend, ?_, by decide⟩
  rintro ⟨hwest, -⟩
  exact absurd hwest (by decide)

end Ground

end AntContest

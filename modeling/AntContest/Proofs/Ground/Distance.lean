import AntContest.Proofs.Ground.Paths
import Mathlib.Algebra.Group.Nat.Defs

/-! # Distance

`Position.stepsApart` is the number of steps between two positions on the unbounded plane.  It is
a metric (`stepsApart_comm`, `stepsApart_triangle`, `stepsApart_eq_zero_iff`), and the positions one
step apart are those that a step leads to (`exists_step_iff`).

`Position.distance` counts the same in signed machine words.  The two agree wherever the
coordinates are non-negative as such words (`distance_eq_stepsApart`), so on every ground of
`WordSides`.  A list of cells has fewer than `2 ^ 63` entries in any memory, so these are all
grounds that there can be; the type of grounds does not ask for it. -/

namespace AntContest

namespace Position

/-- The column with the stagger of the odd rows undone. -/
def slant (p : Position) : Int := p.x - (p.y / 2 : Nat)

/-- Number of steps between two positions of the unbounded plane. -/
def stepsApart (p q : Position) : Nat :=
  let dq := p.slant - q.slant
  let dr : Int := p.y - q.y
  (dq.natAbs + dr.natAbs + (dq + dr).natAbs) / 2

theorem stepsApart_comm (p q : Position) : p.stepsApart q = q.stepsApart p := by
  unfold stepsApart
  dsimp only
  omega

/-- The three differences have an even sum. -/
theorem two_mul_stepsApart (p q : Position) :
    2 * p.stepsApart q = (p.slant - q.slant).natAbs + ((p.y : Int) - q.y).natAbs +
      (p.slant - q.slant + ((p.y : Int) - q.y)).natAbs := by
  unfold stepsApart
  dsimp only
  omega

theorem stepsApart_triangle (p q r : Position) :
    p.stepsApart r ≤ p.stepsApart q + q.stepsApart r := by
  have habs {a b c : Int} (h : a = b + c) : a.natAbs ≤ b.natAbs + c.natAbs := by
    rw [h]
    exact Int.natAbs_add_le b c
  have hslant : p.slant - r.slant = (p.slant - q.slant) + (q.slant - r.slant) := by omega
  have hrow : (p.y : Int) - r.y = (p.y - q.y) + (q.y - r.y) := by omega
  have hsum : p.slant - r.slant + ((p.y : Int) - r.y) =
      (p.slant - q.slant + (p.y - q.y)) + (q.slant - r.slant + (q.y - r.y)) := by omega
  refine Nat.le_of_mul_le_mul_left ?_ Nat.two_pos
  rw [Nat.mul_add, two_mul_stepsApart, two_mul_stepsApart, two_mul_stepsApart]
  refine Nat.le_trans (Nat.add_le_add (Nat.add_le_add (habs hslant) (habs hrow)) (habs hsum)) ?_
  exact Nat.le_of_eq (by ac_rfl)

theorem stepsApart_eq_zero_iff {p q : Position} : p.stepsApart q = 0 ↔ p = q := by
  obtain ⟨x, y⟩ := p
  obtain ⟨x', y'⟩ := q
  simp only [stepsApart, slant, mk.injEq]
  omega

theorem stepsApart_self (p : Position) : p.stepsApart p = 0 := stepsApart_eq_zero_iff.mpr rfl

theorem StepsTo.stepsApart_eq_one {p q : Position} {d : Direction} (h : p.StepsTo q d) :
    p.stepsApart q = 1 := by
  unfold stepsApart slant
  cases d <;> simp only [StepsTo] at h ⊢ <;> omega

/-- The row and the parity of its number say in which direction the neighbour lies. -/
theorem exists_stepsTo {p q : Position} (h : p.stepsApart q = 1) (hq : q.x < limit) :
    ∃ d, p.StepsTo q d := by
  simp only [stepsApart, slant] at h
  rcases Nat.lt_trichotomy q.y p.y with hnorth | hrow | hsouth
  · by_cases hx : q.x = p.x + p.y % 2
    · exact ⟨.northEast, hx, by omega⟩
    · exact ⟨.northWest, by omega, by omega⟩
  · by_cases hx : q.x = p.x + 1
    · exact ⟨.east, hx, hrow, hq⟩
    · exact ⟨.west, by omega, hrow⟩
  · by_cases hx : q.x = p.x + p.y % 2
    · exact ⟨.southEast, hx, by omega⟩
    · exact ⟨.southWest, by omega, by omega⟩

theorem stepsApart_of_step {p q : Position} {d : Direction} (h : p.step d = some q) :
    p.stepsApart q = 1 :=
  (step_eq_some_iff.mp h).stepsApart_eq_one

/-- A step leads to the positions one step apart. -/
theorem exists_step_iff {p q : Position} (hq : q.x < limit) :
    (∃ d, p.step d = some q) ↔ p.stepsApart q = 1 := by
  constructor
  · rintro ⟨d, hd⟩
    exact stepsApart_of_step hd
  · intro h
    obtain ⟨d, hd⟩ := exists_stepsTo h hq
    exact ⟨d, step_eq_some_iff.mpr hd⟩

theorem step_inj {p q : Position} {d e : Direction} (hd : p.step d = some q)
    (he : p.step e = some q) : d = e := by
  rw [step_eq_some_iff] at hd he
  cases d <;> cases e <;> simp only [StepsTo] at hd he <;> first | rfl | omega

/-! ### Signed words -/

theorem signed_of_lt {n : Nat} (h : n < 2 ^ 63) : signed n = n :=
  Int.bmod_eq_of_le (by unfold limit UInt64.size; omega) (by unfold limit UInt64.size; omega)

theorem axial_of_lt {p : Position} (hx : p.x < 2 ^ 63) (hy : p.y < 2 ^ 63) :
    p.axial = (p.slant, (p.y : Int)) := by
  unfold axial slant
  dsimp only
  rw [signed_of_lt hx, signed_of_lt hy, Prod.mk.injEq]
  omega

theorem distance_eq_stepsApart {p q : Position} (hp : p.x < 2 ^ 63 ∧ p.y < 2 ^ 63)
    (hq : q.x < 2 ^ 63 ∧ q.y < 2 ^ 63) : p.distance q = p.stepsApart q := by
  unfold distance stepsApart
  rw [axial_of_lt hp.1 hp.2, axial_of_lt hq.1 hq.2]

end Position

namespace Ground

/-- The rows and the columns are numbered by non-negative signed words. -/
def WordSides (g : Ground) : Prop := g.width.val ≤ 2 ^ 63 ∧ g.height.val ≤ 2 ^ 63

theorem WordSides.of_sides {g g' : Ground} (h : g.WordSides) (hwidth : g'.width = g.width)
    (hheight : g'.height = g.height) : g'.WordSides := by
  unfold WordSides
  rw [hwidth, hheight]
  exact h

theorem WordSides.distance_eq {g : Ground} (h : g.WordSides) {p q : Position}
    (hp : g.contains p = true) (hq : g.contains q = true) : p.distance q = p.stepsApart q := by
  obtain ⟨hwidth, hheight⟩ := h
  obtain ⟨hpx, hpy⟩ := contains_iff.mp hp
  obtain ⟨hqx, hqy⟩ := contains_iff.mp hq
  exact Position.distance_eq_stepsApart ⟨by omega, by omega⟩ ⟨by omega, by omega⟩

theorem stepsApart_of_adjacent? {g : Ground} {p q : Position} {d : Direction}
    (h : g.adjacent? p d = some q) : p.stepsApart q = 1 :=
  Position.stepsApart_of_step (adjacent?_eq_some_iff.mp h).1

end Ground

end AntContest

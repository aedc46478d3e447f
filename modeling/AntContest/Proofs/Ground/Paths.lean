import AntContest.Ground.Basic
import Mathlib.Data.Nat.Init
import Mathlib.Logic.Relation

/-! # Paths over a ground

A step in one direction is taken back in the opposite one (`adjacent?_opposite`).  Two positions
are `Connected` if steps over passable cells lead from one to the other; that goes both ways
(`Connected.symm`).

Paths come from straight walks (`connected_west`, `connected_north`), and from a rank that some
step makes smaller everywhere but at the goal (`exists_connected_of_rank`). -/

namespace AntContest

namespace Position

theorem before?_eq_some_iff {n m : Nat} : before? n = some m ↔ n = m + 1 := by
  cases n <;> simp [before?]

/-- Where a step leads: a diagonal one goes half a column aside, so that the parity of the row
decides on the column. -/
def StepsTo (p q : Position) : Direction → Prop
  | .east => q.x = p.x + 1 ∧ q.y = p.y ∧ q.x < limit
  | .southEast => q.x = p.x + p.y % 2 ∧ q.y = p.y + 1
  | .southWest => q.x + 1 = p.x + p.y % 2 ∧ q.y = p.y + 1
  | .west => q.x + 1 = p.x ∧ q.y = p.y
  | .northWest => q.x + 1 = p.x + p.y % 2 ∧ q.y + 1 = p.y
  | .northEast => q.x = p.x + p.y % 2 ∧ q.y + 1 = p.y

theorem step_eq_some_iff {p q : Position} {d : Direction} :
    p.step d = some q ↔ StepsTo p q d := by
  obtain ⟨x, y⟩ := p
  obtain ⟨x', y'⟩ := q
  unfold step StepsTo
  cases d with
  | west =>
    simp only [Option.map_eq_some_iff, before?_eq_some_iff, mk.injEq, and_left_comm,
      exists_eq_left]
    omega
  | _ =>
    dsimp only
    split <;> simp [Option.bind_eq_some_iff, before?_eq_some_iff, and_left_comm] <;> omega

theorem step_opposite {p q : Position} {d : Direction} (hp : p.x < limit)
    (h : p.step d = some q) : q.step d.opposite = some p := by
  rw [step_eq_some_iff] at h ⊢
  cases d <;> simp only [StepsTo, Direction.opposite] at h ⊢ <;> omega

end Position

namespace Ground

theorem adjacent?_eq_some_iff {g : Ground} {p q : Position} {d : Direction} :
    g.adjacent? p d = some q ↔ p.step d = some q ∧ g.contains q = true := by
  rw [adjacent?, Option.filter_eq_some_iff]

theorem adjacent?_opposite {g : Ground} {p q : Position} {d : Direction}
    (hp : g.contains p = true) (h : g.adjacent? p d = some q) :
    g.adjacent? q d.opposite = some p := by
  obtain ⟨hstep, -⟩ := adjacent?_eq_some_iff.mp h
  have hx : p.x < Position.limit := Nat.lt_trans (contains_iff.mp hp).1 g.width.property.2
  exact adjacent?_eq_some_iff.mpr ⟨Position.step_opposite hx hstep, hp⟩

theorem mem_neighbours_iff {g : Ground} {p q : Position} :
    q ∈ g.neighbours p ↔ ∃ d, g.adjacent? p d = some q := by
  rw [neighbours, List.mem_filterMap]
  simp only [Direction.mem_all, true_and]

def Passable (g : Ground) (p : Position) : Prop :=
  ∃ c, g.cell? p = some c ∧ c.terrain.isPassable = true

theorem Passable.contains {g : Ground} {p : Position} (h : g.Passable p) :
    g.contains p = true := by
  obtain ⟨c, hc, -⟩ := h
  rw [← isSome_cell?, hc]
  rfl

/-- A step from one passable cell to another. -/
def Linked (g : Ground) (p q : Position) : Prop :=
  g.Passable p ∧ g.Passable q ∧ ∃ d, g.adjacent? p d = some q

/-- Steps over passable cells lead from one position to another. -/
def Connected (g : Ground) : Position → Position → Prop :=
  Relation.ReflTransGen g.Linked

section Paths

variable {g : Ground} {p q : Position}

theorem linked_of_step (d : Direction) (hp : g.Passable p) (hq : g.Passable q)
    (h : p.step d = some q) : g.Linked p q :=
  ⟨hp, hq, d, adjacent?_eq_some_iff.mpr ⟨h, hq.contains⟩⟩

theorem Linked.symm (h : g.Linked p q) : g.Linked q p := by
  obtain ⟨hp, hq, d, hd⟩ := h
  exact ⟨hq, hp, d.opposite, adjacent?_opposite hp.contains hd⟩

theorem Connected.symm (h : g.Connected p q) : g.Connected q p := by
  induction h with
  | refl => exact .refl
  | tail _ hlinked ih => exact .head hlinked.symm ih

theorem connected_west {x x' y : Nat} (hx : x' ≤ x)
    (h : ∀ a, x' ≤ a → a ≤ x → g.Passable ⟨a, y⟩) : g.Connected ⟨x, y⟩ ⟨x', y⟩ := by
  induction x, hx using Nat.le_induction with
  | base => exact .refl
  | succ a ha ih =>
    have hlinked : g.Linked ⟨a + 1, y⟩ ⟨a, y⟩ :=
      linked_of_step .west (h (a + 1) (by omega) (by omega)) (h a ha (by omega)) rfl
    exact .head hlinked (ih fun b hb hba => h b hb (by omega))

/-- A walk along a column: the stagger of the rows is undone by going north-west and north-east
by turns. -/
theorem connected_north {x y y' : Nat} (hy : y' ≤ y)
    (h : ∀ b, y' ≤ b → b ≤ y → g.Passable ⟨x, b⟩) : g.Connected ⟨x, y⟩ ⟨x, y'⟩ := by
  induction y, hy using Nat.le_induction with
  | base => exact .refl
  | succ b hb ih =>
    have hstep : ∃ d, (⟨x, b + 1⟩ : Position).step d = some ⟨x, b⟩ := by
      rcases Nat.mod_two_eq_zero_or_one (b + 1) with heven | hodd
      · exact ⟨.northEast, Position.step_eq_some_iff.mpr ⟨by simp [heven], rfl⟩⟩
      · exact ⟨.northWest, Position.step_eq_some_iff.mpr ⟨by simp [hodd], rfl⟩⟩
    obtain ⟨d, hd⟩ := hstep
    have hlinked := linked_of_step d (h (b + 1) (by omega) (by omega)) (h b hb (by omega)) hd
    exact .head hlinked (ih fun a ha hab => h a ha (by omega))

/-- If some step makes a rank smaller wherever the goal is not reached yet, there is a path to the
goal. -/
theorem exists_connected_of_rank (invariant goal : Position → Prop) (rank : Position → Nat)
    (h : ∀ p, invariant p →
      goal p ∨ ∃ q, g.Linked p q ∧ invariant q ∧ rank q < rank p) (hp : invariant p) :
    ∃ q, g.Connected p q ∧ invariant q ∧ goal q := by
  induction hrank : rank p using Nat.strong_induction_on generalizing p with
  | _ n ih =>
    rcases h p hp with hgoal | ⟨q, hlinked, hq, hlt⟩
    · exact ⟨p, .refl, hp, hgoal⟩
    · obtain ⟨r, hr, hinvariant, hgoal⟩ := ih (rank q) (hrank ▸ hlt) hq rfl
      exact ⟨r, .head hlinked hr, hinvariant, hgoal⟩

end Paths

end Ground

end AntContest

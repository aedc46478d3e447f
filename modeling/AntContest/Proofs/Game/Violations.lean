import AntContest.Game.Consistency
import AntContest.Proofs.Game.CellLine
import AntContest.Proofs.Game.Coherence
import Mathlib.Data.Set.Function

/-! # The check of consistency is exact

The check goes through the cells and asks each one about its ant, and then through the ants and
asks each one about its cell.  Neither half alone settles who stands where: two ants may name one
cell, and a cell may name an ant that stands elsewhere.  Together they say that standing somewhere
is a bijection.

* `cellViolations_eq_nil_iff`, `antViolations_eq_nil_iff`: what no breach at a cell, and none of an
  ant, amounts to.
* `Faultless` is the consistency that is meant, over all cells and ants at once.
* `violations_eq_nil_iff`: the check finds nothing exactly in faultless games, whatever game it is
  given, as long as the ants are numbered by their places. -/

namespace AntContest

namespace Game

variable {g : Game}

/-- The ants are numbered by their places. -/
def Numbered (g : Game) : Prop := ∀ (i : Nat) (ant : Ant), g.ants[i]? = some ant → ant.id = i

theorem Numbered.getElem? (h : g.Numbered) {ant : Ant} (hant : ant ∈ g.ants) :
    g.ants[ant.id]? = some ant := by
  obtain ⟨i, hi⟩ := Array.getElem?_of_mem hant
  rw [h i ant hi, hi]

/-! ### Breaches at cells and of ants -/

theorem occupantViolation?_eq_none_iff {p : Position} {i : Nat} :
    g.occupantViolation? p i = none ↔
      ∃ ant, g.ants[i]? = some ant ∧ ant.alive = true ∧ ant.position = p := by
  unfold occupantViolation?
  cases g.ants[i]? with
  | none => simp
  | some ant =>
    cases halive : ant.alive with
    | false => simp [halive]
    | true => simp [halive]

theorem not_isBare_iff {c : Cell} :
    (c.food ≠ 0 ∨ !c.redMarks.isEmpty ∨ !c.blackMarks.isEmpty) ↔ ¬ c.IsBare := by
  have hmarks : (∀ colony, c.marks colony = .empty) ↔
      c.redMarks = .empty ∧ c.blackMarks = .empty :=
    ⟨fun h => ⟨h .red, h .black⟩, fun h colony => by cases colony; exacts [h.1, h.2]⟩
  rw [Cell.IsBare, hmarks, ← MarkSet.isEmpty_iff, ← MarkSet.isEmpty_iff]
  simp only [Bool.not_eq_true', ← Bool.not_eq_true]
  tauto

theorem cellViolations_eq_nil_iff {p : Position} {c : Cell} :
    g.cellViolations p c = [] ↔
      (∀ i, c.occupant = some i →
        ∃ ant, g.ants[i]? = some ant ∧ ant.alive = true ∧ ant.position = p) ∧
      (c.terrain = .rock → c.occupant = none ∧ c.IsBare) := by
  rw [cellViolations, List.append_eq_nil_iff]
  simp only [ite_eq_right_iff, List.cons_ne_nil, imp_false, not_and, not_isBare_iff, not_not]
  cases c.occupant with
  | none => simp
  | some i =>
    simp only [List.append_eq_nil_iff, Option.toList_eq_nil_iff, occupantViolation?_eq_none_iff,
      Option.some.injEq, forall_eq', reduceCtorEq, false_and, imp_false]
    split
    · next h => simp [h]
    · next h => simp [h]

theorem antViolations_eq_nil_iff {ant : Ant} :
    g.antViolations ant = [] ↔
      (ant.alive = true → (g.ground.cell? ant.position).bind (·.occupant) = some ant.id) ∧
      (ant.alive = false → ant.carrying = false) := by
  unfold antViolations
  rw [List.append_eq_nil_iff]
  cases ant.alive with
  | false => simp
  | true => simp

/-- No breach is found if none is found at any cell, none of any ant, and the food is in
balance. -/
theorem violations_eq_nil_iff_parts : g.violations = [] ↔
    (∀ p c, g.ground.cell? p = some c → g.cellViolations p c = []) ∧
    (∀ ant ∈ g.ants, g.antViolations ant = []) ∧ g.foodPresent = g.foodExpected := by
  simp only [violations, List.append_eq_nil_iff, List.flatMap_eq_nil_iff, ite_eq_right_iff,
    List.cons_ne_nil, imp_false, not_not, Prod.forall, Ground.mem_entries, Array.mem_toList_iff,
    ne_eq, and_assoc]

/-! ### The consistency that is meant -/

def livingAnts (g : Game) : Set Ant := {ant | ant ∈ g.ants ∧ ant.alive = true}

def occupied (g : Game) : Set Position :=
  {p | ∃ c, g.ground.cell? p = some c ∧ c.occupant.isSome}

/-- A game without fault. -/
structure Faultless (g : Game) : Prop where
  /-- The living stand on the cells that name an ant, each on one and each cell under one. -/
  posted : Set.BijOn Ant.position g.livingAnts g.occupied
  /-- A cell names the ant that stands there. -/
  named : ∀ ant ∈ g.livingAnts, (g.ground.cell? ant.position).bind (·.occupant) = some ant.id
  /-- Rock is without ants, food and marks. -/
  bareRock : ∀ p c, g.ground.cell? p = some c → c.terrain = .rock → c.occupant = none ∧ c.IsBare
  /-- The dead carry nothing. -/
  unladen : ∀ ant ∈ g.ants, ant.alive = false → ant.carrying = false
  /-- The food on the ground and with the living is what there was at first, and three particles
  for each encircled ant. -/
  balanced : g.ground.totalFood + g.carriedFood = g.initialFood + 3 * g.encircled

/-- Cells that name ants standing there, and ants that stand on cells naming them, agree as a
bijection. -/
theorem posted_and_named_iff (h : g.Numbered) :
    (Set.BijOn Ant.position g.livingAnts g.occupied ∧
      ∀ ant ∈ g.livingAnts, (g.ground.cell? ant.position).bind (·.occupant) = some ant.id) ↔
    (∀ p c, g.ground.cell? p = some c → ∀ i, c.occupant = some i →
      ∃ ant, g.ants[i]? = some ant ∧ ant.alive = true ∧ ant.position = p) ∧
    ∀ ant ∈ g.ants, ant.alive = true →
      (g.ground.cell? ant.position).bind (·.occupant) = some ant.id := by
  constructor
  · rintro ⟨⟨-, -, hsurj⟩, hnamed⟩
    refine ⟨fun p c hc i hi => ?_, fun ant hant halive => hnamed ant ⟨hant, halive⟩⟩
    obtain ⟨ant, ⟨hant, halive⟩, rfl⟩ := hsurj ⟨c, hc, by rw [hi]; rfl⟩
    have hid := hnamed ant ⟨hant, halive⟩
    rw [hc, Option.bind_some, hi] at hid
    obtain rfl : i = ant.id := Option.some.inj hid
    exact ⟨ant, h.getElem? hant, halive, rfl⟩
  · rintro ⟨hcells, hants⟩
    refine ⟨⟨?_, ?_, ?_⟩, fun ant hant => hants ant hant.1 hant.2⟩
    · rintro ant ⟨hant, halive⟩
      obtain ⟨c, hc, hoccupant⟩ := Option.bind_eq_some_iff.mp (hants ant hant halive)
      exact ⟨c, hc, by rw [hoccupant]; rfl⟩
    · rintro a ⟨ha, ha'⟩ b ⟨hb, hb'⟩ hposition
      -- One cell names both, so they have one number and are one ant.
      have hida := hants a ha ha'
      have hidb := hants b hb hb'
      rw [hposition, hidb] at hida
      have hab := h.getElem? ha
      rw [← Option.some.inj hida, h.getElem? hb] at hab
      exact (Option.some.inj hab).symm
    · rintro p ⟨c, hc, hoccupied⟩
      obtain ⟨i, hi⟩ := Option.isSome_iff_exists.mp hoccupied
      obtain ⟨ant, hant, halive, hposition⟩ := hcells p c hc i hi
      exact ⟨ant, ⟨Array.mem_of_getElem? hant, halive⟩, hposition⟩

/-- The check finds no breach exactly in games without fault: it misses none and it raises no false
alarm, in whatever state a game is, if only its ants are numbered by their places. -/
theorem violations_eq_nil_iff (h : g.Numbered) : g.violations = [] ↔ g.Faultless := by
  have hexpected : g.foodExpected = g.initialFood + 3 * g.encircled := by
    rw [foodExpected, Nat.mul_comm]
    rfl
  rw [violations_eq_nil_iff_parts, hexpected]
  simp only [cellViolations_eq_nil_iff, antViolations_eq_nil_iff]
  constructor
  · rintro ⟨hcells, hants, hfood⟩
    obtain ⟨hposted, hnamed⟩ := (posted_and_named_iff h).mpr
      ⟨fun p c hc => (hcells p c hc).1, fun ant hant => (hants ant hant).1⟩
    exact ⟨hposted, hnamed, fun p c hc => (hcells p c hc).2, fun ant hant => (hants ant hant).2,
      hfood⟩
  · intro hfaultless
    obtain ⟨hcells, hants⟩ :=
      (posted_and_named_iff h).mp ⟨hfaultless.posted, hfaultless.named⟩
    exact ⟨fun p c hc => ⟨hcells p c hc, hfaultless.bareRock p c hc⟩,
      fun ant hant => ⟨hants ant hant, hfaultless.unladen ant hant⟩, hfaultless.balanced⟩

/-- For example after the beginning of a game; but not if its ant is then also entered a second
time, standing on the same cell. -/
theorem violations_of_double :
    ∃ (g : Game) (ants : Array Ant), g.Numbered ∧ g.Faultless ∧ g.ants.size = 1 ∧
      Numbered { g with ants := ants } ∧ ¬ Faultless { g with ants := ants } ∧
      ants.toList.map Ant.position = [⟨1, 1⟩, ⟨1, 1⟩] := by
  let side : Side := ⟨3, by decide⟩
  let brain : Brain := ⟨"whirl", #[.turn .left ⟨0, by decide⟩], by decide, by decide⟩
  let ground := (Ground.walled side side).modify ⟨1, 1⟩ fun c => .fresh (.hill .red) c.food
  let g := (load ground {}).begin ⟨brain, brain⟩
  let ants : Array Ant := #[.newborn .red ⟨1, 1⟩ 0, .newborn .red ⟨1, 1⟩ 1]
  have hants : ∀ (i : Nat) (ant : Ant), ants[i]? = some ant → ant.id = i
    | 0, _, rfl => rfl
    | 1, _, rfl => rfl
  have hg : Numbered g := (enrolled_begin (load ground {}) ⟨brain, brain⟩).id_eq
  have hh : Numbered { g with ants := ants } := hants
  have hclean : g.violations = [] := by decide +kernel
  have hdirty : violations { g with ants := ants } ≠ [] := by decide +kernel
  exact ⟨g, ants, hg, (violations_eq_nil_iff hg).mp hclean, by decide +kernel, hh,
    fun hfaultless => hdirty ((violations_eq_nil_iff hh).mpr hfaultless), rfl⟩

end Game

end AntContest

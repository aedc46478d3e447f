import AntContest.Proofs.Game.Effect
import AntContest.Proofs.Game.Posts

/-! # Ants far apart

An ant sees the cells one step away at most, and the ants on them, and it changes its own cell and
one next to that.  So if two ants are three steps apart, neither changes what the other one sees:
one of them may come a step nearer, but the cell that the other one looks at is still another one.

* `SameSight.effect_eq`: an ant that sees the same makes the same of it, unless it throws a
  die.  `sameSight_apply`: the effect of an ant far away cannot be seen.
* `apply_comm`: effects on different ants and cells come to the same in either order.
* `distant_ants_commute`: hence it does not matter which of two ants far apart acts first. -/

namespace AntContest

namespace Game

/-! ### What an ant sees -/

/-- An ant sees the same in two games of one configuration: the cells one step away at most, and the
ants on them. -/
structure SameSight (g g' : Game) (ant : Ant) : Prop where
  config_eq : g'.config = g.config
  contains_eq : ∀ p, g'.ground.contains p = g.ground.contains p
  cell_eq : ∀ p, ant.position.stepsApart p ≤ 1 → g'.ground.cell? p = g.ground.cell? p
  antOn_eq : ∀ p c, ant.position.stepsApart p ≤ 1 → g.ground.cell? p = some c →
    g'.antOn? c = g.antOn? c

namespace SameSight

variable {g g' : Game} {ant : Ant}

theorem adjacent?_eq (h : SameSight g g' ant) (p : Position) (d : Direction) :
    g'.ground.adjacent? p d = g.ground.adjacent? p d := by
  unfold Ground.adjacent?
  rw [funext h.contains_eq]

theorem viewed?_eq (h : SameSight g g' ant) (view : View) :
    g'.viewed? ant view = g.viewed? ant view := by
  unfold viewed?
  split
  · rfl
  · exact h.adjacent?_eq _ _

theorem stepsApart_of_viewed? {view : View} {p : Position} (hp : g.viewed? ant view = some p) :
    ant.position.stepsApart p ≤ 1 := by
  unfold viewed? at hp
  split at hp
  · cases hp
    rw [Position.stepsApart_self]
    exact Nat.zero_le 1
  · exact Nat.le_of_eq (Ground.stepsApart_of_adjacent? hp)

theorem senses_eq (h : SameSight g g' ant) {p : Position} (hp : ant.position.stepsApart p ≤ 1)
    (condition : Condition) (c : Colony) : g'.senses p condition c = g.senses p condition c := by
  unfold senses
  rw [h.cell_eq p hp]
  cases hc : g.ground.cell? p with
  | none => rfl
  | some cell =>
    dsimp only
    rw [h.antOn_eq p cell hp hc]

theorem stepTarget?_eq (h : SameSight g g' ant) : g'.stepTarget? ant = g.stepTarget? ant := by
  unfold stepTarget?
  rw [h.adjacent?_eq]
  cases hq : g.ground.adjacent? ant.position ant.facing with
  | none => rfl
  | some q =>
    have hone := Ground.stepsApart_of_adjacent? hq
    simp only [Option.filter_some, h.cell_eq q (Nat.le_of_eq hone)]

/-- An ant that sees the same makes the same of it, unless the random source decides. -/
theorem effect_eq (h : SameSight g g' ant) {instruction : Instruction}
    (hrandom : instruction.isFlip = true → g'.random = g.random) :
    g'.effect ant instruction = g.effect ant instruction := by
  have hhere : ant.position.stepsApart ant.position ≤ 1 := by
    rw [Position.stepsApart_self]
    exact Nat.zero_le 1
  unfold effect
  cases instruction with
  | sense view onTrue onFalse condition =>
    dsimp only
    rw [h.viewed?_eq]
    cases hp : g.viewed? ant view with
    | none => rfl
    | some p => simp only [Option.any_some, h.senses_eq (stepsApart_of_viewed? hp)]
  | mark m next => rfl
  | unmark m next => rfl
  | pickUp onSuccess onFailure =>
    dsimp only
    rw [h.cell_eq _ hhere]
  | drop next =>
    dsimp only
    rw [h.contains_eq]
  | turn side next => rfl
  | move onSuccess onFailure =>
    dsimp only
    rw [h.stepTarget?_eq, h.config_eq]
  | flip die onZero onOther =>
    dsimp only
    rw [hrandom rfl]

end SameSight

variable {g : Game} {teams : Teams} {i j : Nat} {a b : Ant} {e e' : Effect} {p q : Position}

/-- What an ant does cannot be seen from three steps away. -/
theorem sameSight_apply (h : AtPosts g) (hb : g.ants[j]? = some b)
    (hfar : 3 ≤ a.position.stepsApart b.position)
    (htarget : ∀ t, e.target? = some t → b.position.stepsApart t = 1) :
    SameSight g (e.apply j b.position g) a where
  config_eq := rfl
  contains_eq p := contains_apply e j _ p g
  cell_eq p hp := by
    have hown : e.target? ≠ some b.position := fun h => by
      have hone := htarget _ h
      rw [Position.stepsApart_self] at hone
      cases hone
    have hhere : p ≠ b.position := by
      rintro rfl
      omega
    have hahead : e.target? ≠ some p := fun h => by
      have hone := htarget _ h
      rw [Position.stepsApart_comm] at hone
      have htriangle := a.position.stepsApart_triangle p b.position
      omega
    rw [cell?_apply hown, if_neg hhere, if_neg hahead]
  antOn_eq p c hp hc := by
    unfold antOn?
    cases hk : c.occupant with
    | none => rfl
    | some k =>
      -- The acting ant is the one that its own cell names, and that is out of sight.
      have hjk : j ≠ k := by
        rintro rfl
        obtain ⟨other, hother, -, hposition⟩ :=
          (h.occupant_iff p j).mp (by rw [hc, Option.bind_some, hk])
        obtain rfl : b = other := Option.some.inj (hb.symm.trans hother)
        rw [hposition] at hfar
        omega
      exact (getElem?_ants_apply e j k _ g).trans (if_neg hjk)

/-! ### Changes that do not meet -/

/-- The change touches a cell: that under the ant, or that which it steps onto. -/
def Effect.Touches (e : Effect) (p t : Position) : Prop := t = p ∨ e.target? = some t

theorem ground_apply_comm (hp : e.target? ≠ some p) (hq : e'.target? ≠ some q)
    (happart : ∀ t, e.Touches p t → ¬ e'.Touches q t) (g : Game) :
    (e.apply i p (e'.apply j q g)).ground = (e'.apply j q (e.apply i p g)).ground := by
  refine Ground.ext_cell? (by simp only [width_apply]) (by simp only [height_apply]) fun t => ?_
  simp only [cell?_apply hp, cell?_apply hq]
  by_cases ht : e.Touches p t
  · obtain ⟨hown, htarget⟩ := not_or.mp (happart t ht)
    simp only [if_neg hown, if_neg htarget]
  · obtain ⟨hown, htarget⟩ := not_or.mp ht
    simp only [if_neg hown, if_neg htarget]

theorem ants_apply_comm (hij : i ≠ j) (g : Game) :
    (e.apply i p (e'.apply j q g)).ants = (e'.apply j q (e.apply i p g)).ants := by
  refine Array.ext_getElem? fun k => ?_
  simp only [getElem?_ants_apply]
  by_cases hik : i = k
  · subst hik
    simp only [if_true, if_neg hij.symm]
  · simp only [if_neg hik]

theorem random_apply_comm (g : Game) :
    (e.apply i p (e'.apply j q g)).random = (e'.apply j q (e.apply i p g)).random := by
  simp only [random_apply]
  cases e.throws with
  | false => rfl
  | true =>
    simp only [if_true]
    split <;> rfl

theorem frame_apply_apply (e e' : Effect) (i j : Nat) (p q : Position) (g : Game) :
    e.apply i p (e'.apply j q g) =
      { g with
        ground := (e.apply i p (e'.apply j q g)).ground
        ants := (e.apply i p (e'.apply j q g)).ants
        random := (e.apply i p (e'.apply j q g)).random } := rfl

theorem eq_of_frame {g₁ g₂ : Game}
    (h₁ : g₁ = { g with ground := g₁.ground, ants := g₁.ants, random := g₁.random })
    (h₂ : g₂ = { g with ground := g₂.ground, ants := g₂.ants, random := g₂.random })
    (hground : g₁.ground = g₂.ground) (hants : g₁.ants = g₂.ants)
    (hrandom : g₁.random = g₂.random) : g₁ = g₂ := by
  rw [h₁, h₂, hground, hants, hrandom]

/-- Changes of different ants and different cells come to the same in either order. -/
theorem apply_comm (hij : i ≠ j) (hp : e.target? ≠ some p) (hq : e'.target? ≠ some q)
    (happart : ∀ t, e.Touches p t → ¬ e'.Touches q t) (g : Game) :
    e.apply i p (e'.apply j q g) = e'.apply j q (e.apply i p g) :=
  eq_of_frame (frame_apply_apply e e' i j p q g) (frame_apply_apply e' e j i q p g)
    (ground_apply_comm hp hq happart g) (ants_apply_comm hij g) (random_apply_comm g)

/-! ### Two ants far apart -/

theorem Effect.Lawful.stepsApart_of_target? {instruction : Instruction}
    (he : e.Lawful g a instruction) {t : Position} (ht : e.target? = some t) :
    a.position.stepsApart t = 1 :=
  Ground.stepsApart_of_adjacent? (stepTarget?_eq_some (target?_apply he ht).2).1

theorem Effect.Lawful.target?_ne {instruction : Instruction} (he : e.Lawful g a instruction) :
    e.target? ≠ some a.position :=
  fun h => stepTarget?_ne (target?_apply he h).2

theorem Effect.Lawful.stepsApart_of_touches {instruction : Instruction}
    (he : e.Lawful g a instruction) {t : Position} (ht : e.Touches a.position t) :
    a.position.stepsApart t ≤ 1 := by
  rcases ht with rfl | ht
  · rw [Position.stepsApart_self]
    exact Nat.zero_le 1
  · exact Nat.le_of_eq (he.stepsApart_of_target? ht)

/-- The instruction that an ant follows next is one that throws a die. -/
def Flips (teams : Teams) (ant : Ant) : Prop :=
  (nextInstruction? teams ant).any Instruction.isFlip = true

/-- What an ant makes of what it sees, after another one has acted three steps away. -/
theorem effect_apply_of_far (h : AtPosts g) (hb : g.ants[j]? = some b)
    (hfar : 3 ≤ a.position.stepsApart b.position) {x y : Instruction}
    (he : e.Lawful g b y) (hflip : ¬ (x.isFlip = true ∧ y.isFlip = true)) :
    (e.apply j b.position g).effect a x = g.effect a x := by
  refine (sameSight_apply h hb hfar fun t ht => he.stepsApart_of_target? ht).effect_eq fun hx => ?_
  rw [random_apply, he.throws_eq, if_neg fun hy => hflip ⟨hx, hy⟩]

theorem ne_of_far (ha : g.ants[i]? = some a) (hb : g.ants[j]? = some b)
    (hfar : 3 ≤ a.position.stepsApart b.position) : i ≠ j := by
  rintro rfl
  obtain rfl : a = b := Option.some.inj (ha.symm.trans hb)
  rw [Position.stepsApart_self] at hfar
  cases hfar

/-- In every game whose ants stand where its cells say, two ants far apart can act in either
order. -/
theorem AtPosts.act_comm (h : AtPosts g) (ha : g.ants[i]? = some a) (hb : g.ants[j]? = some b)
    (hfar : 3 ≤ a.position.stepsApart b.position) (hflip : ¬ (Flips teams a ∧ Flips teams b)) :
    ((g.act teams i a).1.act teams j b).1 = ((g.act teams j b).1.act teams i a).1 ∧
      ((g.act teams i a).1.act teams j b).2 = (g.act teams j b).2 ∧
      ((g.act teams j b).1.act teams i a).2 = (g.act teams i a).2 := by
  have hij := ne_of_far ha hb hfar
  cases hx : nextInstruction? teams a with
  | none => simp only [act_of_none hx, and_self]
  | some x =>
    cases hy : nextInstruction? teams b with
    | none => simp only [act_of_none hy, and_self]
    | some y =>
      have hdice : ¬ (x.isFlip = true ∧ y.isFlip = true) := by
        simpa only [Flips, hx, hy, Option.any_some] using hflip
      have hex := lawful_effect g a x
      have hey := lawful_effect g b y
      have hxe := effect_apply_of_far h hb hfar hey hdice
      have hye := effect_apply_of_far h ha (by rwa [Position.stepsApart_comm]) hex
        fun hyx => hdice hyx.symm
      simp only [act_eq_apply hx, act_eq_apply hy, hxe, hye, and_self, and_true]
      refine apply_comm hij.symm hey.target?_ne hex.target?_ne (fun t htb hta => ?_) g
      have hbt := hey.stepsApart_of_touches htb
      have hat := hex.stepsApart_of_touches hta
      have htriangle := a.position.stepsApart_triangle t b.position
      rw [t.stepsApart_comm] at htriangle
      omega

/-- Two ants at least three steps apart act independently, unless both throw a die: neither changes
the other one, and the same comes of it in either order.  This holds between turns and within them,
whichever slots of the turn have been played.  On grounds whose sides fit signed words, the steps
between the ants are those that the program counts. -/
theorem distant_ants_commute {ground : Ground} {config : Config} {g₀ : Game}
    (hground : ground.Unoccupied) (hcourse : Course (load ground config) g₀) {teams : Teams}
    {is : List Nat} {g : Game} (hg : g = (slots teams is g₀).1) {i j : Nat} {a b : Ant}
    (ha : g.ants[i]? = some a) (hb : g.ants[j]? = some b)
    (hfar : 3 ≤ a.position.stepsApart b.position) (hflip : ¬ (Flips teams a ∧ Flips teams b)) :
    (g.act teams i a).1.ants[j]? = some b ∧ (g.act teams j b).1.ants[i]? = some a ∧
      ((g.act teams i a).1.act teams j b).1 = ((g.act teams j b).1.act teams i a).1 ∧
      ((g.act teams i a).1.act teams j b).2 = (g.act teams j b).2 ∧
      ((g.act teams j b).1.act teams i a).2 = (g.act teams i a).2 ∧
      (ground.WordSides → a.position.distance b.position = a.position.stepsApart b.position) := by
  subst hg
  have hposts := (atPosts_of_course hground hcourse).slots teams is
  have hij := ne_of_far ha hb hfar
  obtain ⟨hgame, hresult, hresult'⟩ := hposts.act_comm ha hb hfar hflip
  exact ⟨(getElem?_ants_act hij _ teams a).trans hb,
    (getElem?_ants_act hij.symm _ teams b).trans ha, hgame, hresult, hresult',
    fun hsides => distance_of_course hground hsides hcourse teams is ha hb⟩

/-- For example an ant that steps towards one that throws a die. -/
theorem distant_ants_commute_of_move_and_flip :
    ∃ (ground : Ground) (g : Game) (teams : Teams) (a b : Ant), ground.Unoccupied ∧
      Course (load ground {}) g ∧ g.teams? = some teams ∧ g.phase = .running ∧
      g.ants[0]? = some a ∧ g.ants[1]? = some b ∧ a.position.stepsApart b.position = 3 ∧
      Flips teams b ∧ (g.act teams 0 a).1 ≠ g ∧ (g.act teams 1 b).1 ≠ g ∧
      ((g.act teams 0 a).1.act teams 1 b).1 = ((g.act teams 1 b).1.act teams 0 a).1 := by
  let stepper : Brain := ⟨"step", #[.move ⟨0, by decide⟩ ⟨0, by decide⟩], by decide, by decide⟩
  let tosser : Brain := ⟨"toss", #[.flip ⟨2, by decide⟩ ⟨0, by decide⟩ ⟨0, by decide⟩], by decide,
    by decide⟩
  let teams : Teams := ⟨stepper, tosser⟩
  let walled := Ground.walled ⟨6, by decide⟩ ⟨3, by decide⟩
  let half := walled.modify ⟨1, 1⟩ fun c => .fresh (.hill .red) c.food
  let ground := half.modify ⟨4, 1⟩ fun c => .fresh (.hill .black) c.food
  let g := (load ground {}).begin teams
  let a := Ant.newborn .red ⟨1, 1⟩
  let b := Ant.newborn .black ⟨4, 1⟩ 1
  have hred : walled.setTerrain? ⟨1, 1⟩ (.hill .red) = some half := rfl
  have hblack : half.setTerrain? ⟨4, 1⟩ (.hill .black) = some ground := rfl
  have hbuilt : ground.Built := .setTerrain (.setTerrain (.walled _ _) hred) hblack
  have hground : ground.Unoccupied := hbuilt.pristine.unoccupied
  have hcourse : Course (load ground {}) g := .single (.begin teams)
  have ha : g.ants[0]? = some a := by decide +kernel
  have hb : g.ants[1]? = some b := by decide +kernel
  have hflip : ¬ (Flips teams a ∧ Flips teams b) := fun h => Bool.false_ne_true h.1
  have hnone : g = (slots teams [] g).1 := rfl
  obtain ⟨-, -, hgame, -⟩ := distant_ants_commute hground hcourse hnone ha hb (by decide +kernel)
    hflip
  exact ⟨ground, g, teams, a, b, hground, hcourse, rfl, by decide +kernel, ha, hb,
    by decide +kernel, rfl, by decide +kernel, by decide +kernel, hgame⟩

end Game

end AntContest

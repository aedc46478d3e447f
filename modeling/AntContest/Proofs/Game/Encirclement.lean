import AntContest.Proofs.Game.Posts
import Mathlib.Data.List.Nodup

/-! # Encirclement

The program counts the enemies of an ant on the cells around it, through the directions and the
numbers that the cells hold, and takes the victims out of play one after the other.  `Encirclement`
says what comes of that without any of it: an ant dies if five living enemies are one step away, and
all die at once.

* `enemyNeighbours_eq`: the cells around hold the living ants one step away.
* `mem_victims`: the victims are the surrounded ants, as they are.
* `getElem?_ants_bury`, `cell?_bury_of_mem`: what becomes of the ants and of the cells when victims
  are buried, one after the other.  Their order does not matter (`bury_perm`).
* `encirclement_of_course`: the end of every turn. -/

namespace AntContest

namespace Game

/-! ### The enemies around an ant -/

/-- Number of the living ants of the other colony that are one step away from a position. -/
def enemiesAround (g : Game) (p : Position) (c : Colony) : Nat :=
  g.ants.countP fun a => a.alive && a.colony != c && p.stepsApart a.position == 1

/-- The ant is alive, and at least five living enemies are one step away from it. -/
def surrounded (g : Game) (ant : Ant) : Bool :=
  ant.alive && decide (5 ≤ g.enemiesAround ant.position ant.colony)

/-- The number of the enemy on the next cell in a direction. -/
def enemyAhead? (g : Game) (p : Position) (c : Colony) (d : Direction) : Option Nat :=
  ((((p.step d).bind g.ground.cell?).bind g.occupant?).filter (·.2.colony != c)).map (·.1)

theorem enemyAhead?_eq_some_iff {g : Game} (h : AtPosts g) {p : Position} {c : Colony}
    {d : Direction} {i : Nat} : g.enemyAhead? p c d = some i ↔
      ∃ ant, g.ants[i]? = some ant ∧ ant.alive = true ∧ ant.colony ≠ c ∧
        p.step d = some ant.position := by
  unfold enemyAhead? occupant?
  simp only [Option.map_eq_some_iff, Option.filter_eq_some_iff, Option.bind_eq_some_iff,
    Prod.exists, Prod.mk.injEq, bne_iff_ne]
  constructor
  · rintro ⟨_, ant, ⟨⟨cell, ⟨q, hq, hcell⟩, j, hj, _, hant, rfl, rfl⟩, henemy⟩, rfl⟩
    obtain ⟨other, hother, halive, rfl⟩ :=
      (h.occupant_iff q j).mp (by rw [hcell, Option.bind_some, hj])
    obtain rfl := Option.some.inj (hant.symm.trans hother)
    exact ⟨_, hant, halive, henemy, hq⟩
  · rintro ⟨ant, hant, halive, henemy, hstep⟩
    obtain ⟨cell, hcell, hi⟩ := Option.bind_eq_some_iff.mp (h.occupant_eq hant halive)
    exact ⟨i, ant, ⟨⟨cell, ⟨_, hstep, hcell⟩, i, hi, ant, hant, rfl, rfl⟩, henemy⟩, rfl⟩

theorem enemyNeighbours_eq_length (g : Game) (p : Position) (c : Colony) :
    g.enemyNeighbours p c = (Direction.all.filterMap (g.enemyAhead? p c)).length := by
  rw [List.length_filterMap_eq_countP, enemyNeighbours]
  refine List.countP_congr fun d _ => ?_
  unfold enemyAhead? occupant? antOn?
  cases (p.step d).bind g.ground.cell? with
  | none => rfl
  | some cell =>
    cases hi : cell.occupant with
    | none => simp [hi]
    | some i => cases hant : g.ants[i]? <;> simp [hi, hant, Option.filter_some]

/-- Where the ants stand as the cells say, the enemies on the cells around are those one step
away. -/
theorem enemyNeighbours_eq {g : Game} (h : AtPosts g) (p : Position) (c : Colony) :
    g.enemyNeighbours p c = g.enemiesAround p c := by
  have hcount : g.enemiesAround p c = ((g.ants.toList.filter fun a =>
      a.alive && a.colony != c && p.stepsApart a.position == 1).map (·.id)).length := by
    rw [List.length_map, ← List.countP_eq_length_filter, Array.countP_toList, enemiesAround]
  rw [enemyNeighbours_eq_length, hcount]
  refine List.Perm.length_eq ?_
  have hdirections : (Direction.all.filterMap (g.enemyAhead? p c)).Nodup := by
    refine List.Nodup.filterMap (fun d e i hd he => ?_) (by decide)
    obtain ⟨ant, hant, -, -, hstep⟩ := (enemyAhead?_eq_some_iff h).mp hd
    obtain ⟨other, hother, -, -, hstep'⟩ := (enemyAhead?_eq_some_iff h).mp he
    obtain rfl := Option.some.inj (hant.symm.trans hother)
    exact Position.step_inj hstep hstep'
  rw [List.perm_ext_iff_of_nodup hdirections (Enrolled.nodup_ids h.toRoster _)]
  intro i
  rw [Enrolled.mem_ids h.toRoster, List.mem_filterMap]
  simp only [enemyAhead?_eq_some_iff h, Bool.and_eq_true, bne_iff_ne, beq_iff_eq]
  constructor
  · rintro ⟨d, -, ant, hant, halive, henemy, hstep⟩
    exact ⟨ant, hant, ⟨halive, henemy⟩, Position.stepsApart_of_step hstep⟩
  · rintro ⟨ant, hant, ⟨halive, henemy⟩, hone⟩
    have hcolumn := (Ground.contains_iff.mp (h.contains hant)).1
    obtain ⟨d, hd⟩ :=
      (Position.exists_step_iff (hcolumn.trans g.ground.width.property.2)).mpr hone
    exact ⟨d, d.mem_all, ant, hant, halive, henemy, hd⟩

/-- The victims are the surrounded ants, and they are reported as they are. -/
theorem mem_victims {g : Game} (h : AtPosts g) {k : Kill} : k ∈ g.victims ↔
    ∃ i ant, g.ants[i]? = some ant ∧ g.surrounded ant = true ∧
      k = ⟨i, ant.colony, ant.position, ant.carrying⟩ := by
  have hvictim (ant : Ant) : g.victim? ant = some k ↔
      g.surrounded ant = true ∧ k = ⟨ant.id, ant.colony, ant.position, ant.carrying⟩ := by
    unfold victim?
    rw [enemyNeighbours_eq h]
    show (if g.surrounded ant then _ else _) = _ ↔ _
    split
    · next hsurrounded => simp [hsurrounded, eq_comm]
    · next hsafe => simp [hsafe]
  rw [victims, List.mem_filterMap]
  simp only [hvictim]
  constructor
  · rintro ⟨ant, hmem, hsurrounded, rfl⟩
    obtain ⟨i, hi⟩ := Array.getElem?_of_mem (Array.mem_toList_iff.mp hmem)
    exact ⟨i, ant, hi, hsurrounded, by rw [h.id_eq i ant hi]⟩
  · rintro ⟨i, ant, hant, hsurrounded, rfl⟩
    exact ⟨ant, Array.mem_toList_iff.mpr (Array.mem_of_getElem? hant), hsurrounded,
      by rw [h.id_eq i ant hant]⟩

end Game

/-! ### Burials -/

/-- The ant after its death. -/
def Ant.fallen (ant : Ant) : Ant := { ant with alive := false, carrying := false, resting := 0 }

/-- The cell without its ant, and with what is left of the ant. -/
def Cell.vacate (amount : UInt32) (c : Cell) : Cell := (c.withOccupant none).gain amount

/-- The food that is left of a victim. -/
def Kill.spoils (k : Kill) : UInt32 := if k.carrying then 4 else 3

/-- The cell of a victim after its death. -/
def Cell.grave (c : Cell) (k : Kill) : Cell :=
  { c with occupant := none, food := addFood c.food k.spoils }

namespace Game

/-- The list names ants of the game with their place and their load, no ant twice and no place
twice. -/
structure Sentenced (g : Game) (kills : List Kill) : Prop where
  known : ∀ k ∈ kills, ∃ ant, g.ants[k.ant]? = some ant ∧ ant.position = k.position ∧
    ant.carrying = k.carrying
  distinct : kills.Pairwise fun k l => k.ant ≠ l.ant ∧ k.position ≠ l.position

namespace Sentenced

variable {g : Game} {k : Kill} {kills : List Kill}

theorem tail (h : Sentenced g (k :: kills)) (bonus : UInt32) :
    Sentenced (g.removeAnt k.ant bonus) kills := by
  obtain ⟨hne, hdistinct⟩ := List.pairwise_cons.mp h.distinct
  refine ⟨fun l hl => ?_, hdistinct⟩
  obtain ⟨ant, hant, hfacts⟩ := h.known l (List.mem_cons_of_mem k hl)
  exact ⟨ant, by rw [getElem?_ants_removeAnt, if_neg (hne l hl).1, hant], hfacts⟩

theorem of_victims (h : AtPosts g) : Sentenced g g.victims where
  known k hk := by
    obtain ⟨i, ant, hant, -, rfl⟩ := (mem_victims h).mp hk
    exact ⟨ant, hant, rfl, rfl⟩
  distinct := by
    have hsorted := Enrolled.pairwise_victims h.toRoster
    refine hsorted.imp_of_mem fun {k l} hk hl hlt => ⟨Nat.ne_of_lt hlt, fun he => ?_⟩
    obtain ⟨i, ant, hant, halive, rfl⟩ := (mem_victims h).mp hk
    obtain ⟨j, other, hother, halive', rfl⟩ := (mem_victims h).mp hl
    exact Nat.ne_of_lt hlt (h.eq_of_position_eq hant (Bool.and_eq_true_iff.mp halive).1 hother
      (Bool.and_eq_true_iff.mp halive').1 he)

end Sentenced

theorem frame_trans {g g₁ g₂ : Game} (h₁ : g₁ = { g with ground := g₁.ground, ants := g₁.ants })
    (h₂ : g₂ = { g₁ with ground := g₂.ground, ants := g₂.ants }) :
    g₂ = { g with ground := g₂.ground, ants := g₂.ants } := by
  rw [h₂, h₁]

theorem frame_removeAnt (g : Game) (i : Nat) (bonus : UInt32) :
    g.removeAnt i bonus =
      { g with ground := (g.removeAnt i bonus).ground, ants := (g.removeAnt i bonus).ants } := by
  unfold removeAnt
  split <;> rfl

theorem frame_bury (g : Game) (kills : List Kill) :
    g.bury kills = { g with ground := (g.bury kills).ground, ants := (g.bury kills).ants } := by
  induction kills generalizing g with
  | nil => rfl
  | cons k kills ih => exact frame_trans (frame_removeAnt g k.ant _) (ih _)

section Removal

variable {g : Game} {i : Nat}

theorem removeAnt_of_none (h : g.ants[i]? = none) (bonus : UInt32) : g.removeAnt i bonus = g := by
  unfold removeAnt
  rw [h]

theorem removeAnt_of_some {ant : Ant} (h : g.ants[i]? = some ant) (bonus : UInt32) :
    g.removeAnt i bonus =
      { g with
        ground := g.ground.modify ant.position
          (·.vacate (if ant.carrying then bonus + 1 else bonus))
        ants := g.ants.modify i Ant.fallen } := by
  unfold removeAnt
  rw [h]
  rfl

theorem cell?_removeAnt {ant : Ant} (h : g.ants[i]? = some ant) (bonus : UInt32) (p : Position) :
    (g.removeAnt i bonus).ground.cell? p =
      if ant.position = p then
        (g.ground.cell? p).map (·.vacate (if ant.carrying then bonus + 1 else bonus))
      else g.ground.cell? p := by
  rw [removeAnt_of_some h]
  exact Ground.cell?_modify _ _ _ _

end Removal

/-- The named ants fall and the others live on. -/
theorem getElem?_ants_bury (g : Game) (kills : List Kill) (i : Nat) :
    (g.bury kills).ants[i]? =
      if i ∈ kills.map (·.ant) then g.ants[i]?.map Ant.fallen else g.ants[i]? := by
  induction kills generalizing g with
  | nil => rfl
  | cons k kills ih =>
    refine (ih (g.removeAnt k.ant encirclementBonus)).trans ?_
    rw [getElem?_ants_removeAnt, List.map_cons]
    by_cases hi : k.ant = i
    · subst hi
      simp only [List.mem_cons_self, if_true, Option.map_map]
      split <;> rfl
    · rw [if_neg hi]
      simp only [List.mem_cons, Ne.symm hi, false_or]

theorem cell?_bury_of_ne {g : Game} {kills : List Kill} (h : Sentenced g kills) {p : Position}
    (hp : ∀ k ∈ kills, k.position ≠ p) : (g.bury kills).ground.cell? p = g.ground.cell? p := by
  induction kills generalizing g with
  | nil => rfl
  | cons k kills ih =>
    obtain ⟨ant, hant, hposition, -⟩ := h.known k List.mem_cons_self
    refine (ih (h.tail _) fun l hl => hp l (List.mem_cons_of_mem k hl)).trans ?_
    rw [cell?_removeAnt hant, hposition, if_neg (hp k List.mem_cons_self)]

theorem cell?_bury_of_mem {g : Game} {kills : List Kill} (h : Sentenced g kills) {k : Kill}
    (hk : k ∈ kills) :
    (g.bury kills).ground.cell? k.position = (g.ground.cell? k.position).map (·.grave k) := by
  induction kills generalizing g with
  | nil => cases hk
  | cons l kills ih =>
    obtain ⟨ant, hant, hposition, hload⟩ := h.known l List.mem_cons_self
    have hne := (List.pairwise_cons.mp h.distinct).1
    rcases List.mem_cons.mp hk with rfl | hk
    · -- Nobody who is buried later has stood on the same cell.
      refine (cell?_bury_of_ne (h.tail _) fun l hl => (hne l hl).2.symm).trans ?_
      rw [cell?_removeAnt hant, hposition, hload, if_pos rfl]
      rfl
    · refine (ih (h.tail _) hk).trans ?_
      rw [cell?_removeAnt hant, hposition, if_neg (hne k hk).2]

/-! ### The order of burials -/

end Game

theorem addFood_right_comm (a b c : UInt32) :
    addFood (addFood a b) c = addFood (addFood a c) b := by
  refine UInt32.toNat_inj.mp ?_
  simp only [toNat_addFood]
  omega

/-- It does not matter which of two cells is left first, even if they are the same. -/
theorem Ground.vacate_comm (g : Ground) (p q : Position) (x y : UInt32) :
    (g.modify p (·.vacate x)).modify q (·.vacate y) =
      (g.modify q (·.vacate y)).modify p (·.vacate x) := by
  have hcell (c : Cell) : (c.vacate x).vacate y = (c.vacate y).vacate x :=
    congrArg (fun food => { c with food, occupant := none }) (addFood_right_comm c.food x y)
  refine ext_cell? (by simp only [width_modify]) (by simp only [height_modify]) fun t => ?_
  simp only [cell?_modify]
  cases g.cell? t with
  | none => simp only [Option.map_none, ite_self]
  | some c => split <;> split <;> simp [hcell]

namespace Game

section Order

variable {g : Game} {i j : Nat}

theorem removeAnt_comm (hij : i ≠ j) (g : Game) (bonus : UInt32) :
    (g.removeAnt i bonus).removeAnt j bonus = (g.removeAnt j bonus).removeAnt i bonus := by
  have hkeep (i j : Nat) (hij : i ≠ j) : (g.removeAnt i bonus).ants[j]? = g.ants[j]? := by
    rw [getElem?_ants_removeAnt, if_neg hij]
  have hi := hkeep j i hij.symm
  have hj := hkeep i j hij
  cases ha : g.ants[i]? with
  | none => rw [removeAnt_of_none ha, removeAnt_of_none (hi.trans ha)]
  | some a =>
    cases hb : g.ants[j]? with
    | none => rw [removeAnt_of_none hb, removeAnt_of_none (hj.trans hb)]
    | some b =>
      have hants : (g.ants.modify i Ant.fallen).modify j Ant.fallen =
          (g.ants.modify j Ant.fallen).modify i Ant.fallen := by
        refine Array.ext_getElem? fun k => ?_
        simp only [Array.getElem?_modify]
        split <;> split <;> rfl
      rw [removeAnt_of_some (hi.trans ha), removeAnt_of_some (hj.trans hb), removeAnt_of_some ha,
        removeAnt_of_some hb]
      simp only [g.ground.vacate_comm a.position b.position, hants]

/-- The victims can be buried in any order. -/
theorem bury_perm {kills kills' : List Kill} (h : kills.Perm kills') (g : Game) :
    g.bury kills = g.bury kills' := by
  refine h.foldl_eq' (fun k _ l _ g => ?_) g
  by_cases hkl : k.ant = l.ant
  · rw [hkl]
  · exact removeAnt_comm hkl g _

end Order

/-! ### The end of a turn -/

/-- The end of a turn in which the ants have had their slots, with its kills and the game after
it. -/
structure Encirclement (w : Game) (kills : List Kill) (g : Game) : Prop where
  /-- Exactly the surrounded ants are killed, and they are reported as they were. -/
  mem_iff : ∀ k, k ∈ kills ↔ ∃ i ant, w.ants[i]? = some ant ∧ w.surrounded ant = true ∧
    k = ⟨i, ant.colony, ant.position, ant.carrying⟩
  sorted : kills.Pairwise fun k l => k.ant < l.ant
  /-- All of them fall, and the other ants are the same. -/
  ants_eq : g.ants = w.ants.map fun ant => if w.surrounded ant then ant.fallen else ant
  /-- The cell of a victim is empty and has what is left of it. -/
  graves : ∀ k ∈ kills, ∃ c, w.ground.cell? k.position = some c ∧
    g.ground.cell? k.position = some (c.grave k)
  elsewhere : ∀ p, (∀ k ∈ kills, k.position ≠ p) → g.ground.cell? p = w.ground.cell? p
  width_eq : g.ground.width = w.ground.width
  height_eq : g.ground.height = w.ground.height
  /-- The scores are those of the ground, the deaths and the turn are counted, and the last turn
  ends the game; the rest is the same. -/
  frame : g =
    { w with
      ground := g.ground
      ants := g.ants
      redScore := g.ground.hillFood .red
      blackScore := g.ground.hillFood .black
      encircled := w.encircled + kills.length
      turn := w.turn + 1
      phase := if w.config.maxTurns.toNat ≤ w.turn + 1 then .finished else w.phase }
  /-- In the end nobody is surrounded. -/
  safe : ∀ (i : Nat) (ant : Ant), g.ants[i]? = some ant → ant.alive = true →
    g.enemiesAround ant.position ant.colony < 5

section EndOfTurn

variable {w : Game}

/-- The burial of the victims as one change of all ants. -/
theorem ants_bury_victims (h : AtPosts w) :
    (w.bury w.victims).ants =
      w.ants.map fun ant => if w.surrounded ant then ant.fallen else ant := by
  refine Array.ext_getElem? fun i => ?_
  rw [getElem?_ants_bury, Array.getElem?_map]
  cases hant : w.ants[i]? with
  | none => simp
  | some ant =>
    have hmem : i ∈ w.victims.map (·.ant) ↔ w.surrounded ant = true := by
      simp only [List.mem_map, mem_victims h]
      constructor
      · rintro ⟨_, ⟨j, other, hother, hsurrounded, rfl⟩, rfl⟩
        obtain rfl := Option.some.inj (hant.symm.trans hother)
        exact hsurrounded
      · exact fun hsurrounded => ⟨_, ⟨i, ant, hant, hsurrounded, rfl⟩, rfl⟩
    simp only [hmem, Option.map_some]
    split <;> rfl

/-- Whoever is still alive has at most the enemies around that it had. -/
theorem enemiesAround_le {g : Game}
    (hants : g.ants = w.ants.map fun ant => if w.surrounded ant then ant.fallen else ant)
    (p : Position) (c : Colony) : g.enemiesAround p c ≤ w.enemiesAround p c := by
  unfold enemiesAround
  rw [hants, Array.countP_map]
  refine Array.countP_mono_left fun ant _ hfoe => ?_
  simp only [Function.comp_apply] at hfoe
  split at hfoe
  · simp [Ant.fallen] at hfoe
  · exact hfoe

theorem safe_of_ants_eq {g : Game}
    (hants : g.ants = w.ants.map fun ant => if w.surrounded ant then ant.fallen else ant)
    {i : Nat} {ant : Ant} (hant : g.ants[i]? = some ant) (halive : ant.alive = true) :
    g.enemiesAround ant.position ant.colony < 5 := by
  refine (enemiesAround_le hants _ _).trans_lt ?_
  rw [hants, Array.getElem?_map, Option.map_eq_some_iff] at hant
  obtain ⟨old, -, rfl⟩ := hant
  split at halive
  · cases halive
  · next hsafe =>
    rw [if_neg hsafe]
    simpa [surrounded, halive] using hsafe

theorem kill_recount (w : Game) (kills : List Kill) :
    w.recount.kill kills =
      { w with
        ground := (w.recount.bury kills).ground
        ants := (w.recount.bury kills).ants
        redScore := (w.recount.bury kills).ground.hillFood .red
        blackScore := (w.recount.bury kills).ground.hillFood .black
        encircled := w.encircled + kills.length } := by
  unfold kill
  split
  · next hempty =>
    obtain rfl := List.isEmpty_iff.mp hempty
    rfl
  · have hframe := frame_bury w.recount kills
    generalize w.recount.bury kills = buried at hframe ⊢
    rw [hframe]
    rfl

theorem endAtLimit_eq (g : Game) :
    g.endAtLimit =
      { g with phase := if g.config.maxTurns.toNat ≤ g.turn then .finished else g.phase } := by
  unfold endAtLimit
  split <;> rfl

/-- The end of a turn, after the slots. -/
theorem AtPosts.encirclement (h : AtPosts w) :
    Encirclement w w.victims
      { w.recount.kill w.victims with
        turn := (w.recount.kill w.victims).turn + 1 }.endAtLimit := by
  have hdone : AtPosts w.recount := h
  have hsentenced : Sentenced w.recount w.victims := .of_victims hdone
  have hants : (w.recount.bury w.victims).ants =
      w.ants.map fun ant => if w.surrounded ant then ant.fallen else ant :=
    ants_bury_victims hdone
  have hgraves {k : Kill} (hk : k ∈ w.victims) := cell?_bury_of_mem hsentenced hk
  have helsewhere {p : Position} (hp : ∀ k ∈ w.victims, k.position ≠ p) :=
    cell?_bury_of_ne hsentenced hp
  have hwidth := (Frame.bury w.recount w.victims).width
  have hheight := (Frame.bury w.recount w.victims).height
  rw [kill_recount, endAtLimit_eq]
  generalize w.recount.bury w.victims = buried at hants hgraves helsewhere hwidth hheight ⊢
  refine
    { mem_iff := fun k => mem_victims h
      sorted := Enrolled.pairwise_victims h.toRoster
      ants_eq := hants
      graves := fun k hk => ?_
      elsewhere := fun p hp => helsewhere hp
      width_eq := hwidth
      height_eq := hheight
      frame := rfl
      safe := fun i ant => safe_of_ants_eq hants }
  · obtain ⟨i, ant, hant, -, rfl⟩ := (mem_victims h).mp hk
    obtain ⟨c, hc, -⟩ := h.footing i ant hant
    exact ⟨c, hc, (hgraves hk).trans (congrArg (Option.map _) hc)⟩

end EndOfTurn

/-- Every turn of every game that was loaded without ants ends like this, and every step that is
not refused plays such a turn.  On grounds whose sides fit signed words, the steps between two ants
are those that the program counts. -/
theorem encirclement_of_course {ground : Ground} {config : Config} {g : Game} {teams : Teams}
    (hground : ground.Unoccupied) (hcourse : Course (load ground config) g)
    (hteams : g.teams? = some teams) :
    Encirclement (slots teams (List.range g.ants.size) g).1 (g.playTurn teams).1.kills
        (g.playTurn teams).2 ∧
      (∀ report g', g.step = (.ok report, g') ↔ g.phase = .running ∧ g.flags.stopped = false ∧
        report = (g.playTurn teams).1 ∧ g' = (g.playTurn teams).2) ∧
      (ground.WordSides → ∀ a ∈ (slots teams (List.range g.ants.size) g).1.ants,
        ∀ b ∈ (slots teams (List.range g.ants.size) g).1.ants,
          a.position.distance b.position = a.position.stepsApart b.position) := by
  have hslots := (atPosts_of_course hground hcourse).slots teams (List.range g.ants.size)
  refine ⟨hslots.encirclement, fun report g' => ⟨fun hstep => ?_, ?_⟩, fun hsides a ha b hb => ?_⟩
  · obtain ⟨teams', hphase, hteams', hstop, hreport, hgame⟩ :=
      played_of_ok (congrArg Prod.fst hstep)
    obtain rfl : teams = teams' := Option.some.inj (hteams.symm.trans hteams')
    rw [hstep] at hgame
    exact ⟨hphase, hstop, hreport, hgame⟩
  · rintro ⟨hphase, hstop, rfl, rfl⟩
    exact step_of_running hphase hteams hstop
  · obtain ⟨i, hi⟩ := Array.getElem?_of_mem ha
    obtain ⟨j, hj⟩ := Array.getElem?_of_mem hb
    exact distance_of_course hground hsides hcourse teams _ hi hj

/-- For example when two enemies surround each other: they stand side by side, each with four
more enemies around. -/
theorem encirclement_of_two :
    ∃ (ground : Ground) (g : Game) (teams : Teams), ground.Unoccupied ∧
      Course (load ground {}) g ∧ g.teams? = some teams ∧ g.phase = .running ∧
      (g.playTurn teams).1.kills =
        [⟨4, .red, ⟨2, 2⟩, false⟩, ⟨5, .black, ⟨3, 2⟩, false⟩] ∧
      Encirclement (slots teams (List.range g.ants.size) g).1 (g.playTurn teams).1.kills
        (g.playTurn teams).2 := by
  let brain : Brain := ⟨"whirl", #[.turn .left ⟨0, by decide⟩], by decide, by decide⟩
  let hill (c : Colony) (ground : Ground) (p : Position) : Ground :=
    ground.modify p fun _ => .fresh (.hill c) 0
  let ground := [⟨2, 1⟩, ⟨3, 1⟩, ⟨2, 2⟩, ⟨4, 2⟩, ⟨3, 3⟩].foldl (hill .red)
    ([⟨1, 1⟩, ⟨1, 2⟩, ⟨3, 2⟩, ⟨1, 3⟩, ⟨2, 3⟩].foldl (hill .black)
      (Ground.walled ⟨6, by decide⟩ ⟨5, by decide⟩))
  let g := (load ground {}).begin ⟨brain, brain⟩
  have hground : ground.Unoccupied := Ground.unoccupied_of_cells (by decide +kernel)
  have hcourse : Course (load ground {}) g := .single (.begin _)
  exact ⟨ground, g, ⟨brain, brain⟩, hground, hcourse, rfl, by decide +kernel, by decide +kernel,
    (encirclement_of_course hground hcourse rfl).1⟩

end Game

end AntContest

import AntContest.Game.Consistency
import AntContest.Proofs.Game.Course
import AntContest.Proofs.Game.Roster

/-! # The balance of food

Food moves between the cells and the living ants, and only encirclement makes some: three
particles for each victim.  Cells cannot hold more than `foodLimit`, so food can be lost, but not
while all that there is or could come to be fits one cell.

* `Passage` says what a part of a turn does to the food that is present and to the living.
  `Passage.slots` and `Passage.bury` find it for the slots of a turn and for the burial of its
  victims.
* `Balanced` is the balance of a begun game, with its scores: `balanced_begin`,
  `Balanced.playTurn`.
* `food_balance_of_course`: hence the balance of a game after any course. -/

namespace AntContest

namespace Game

def living (g : Game) : Nat := g.ants.countP (·.alive)

theorem modifyAnt_of_absent {g : Game} {i : Nat} (h : g.ants[i]? = none) (f : Ant → Ant) :
    g.modifyAnt i f = g := by
  have hsame : g.ants.modify i f = g.ants := by
    refine Array.ext_getElem? fun j => ?_
    rw [Array.getElem?_modify]
    split
    · next hij => rw [← hij, h]; rfl
    · rfl
  rw [modifyAnt, hsame]

/-- On the way from the first game to the second, food is gained and ants die, before the deaths by
encirclement are counted.  None of the food is lost if all of it fits one cell. -/
structure Passage (gain deaths : Nat) (g g' : Game) : Prop where
  present_le : g'.foodPresent ≤ g.foodPresent + gain
  present_eq : g.foodPresent + gain ≤ foodLimit.toNat → g'.foodPresent = g.foodPresent + gain
  living_le : g'.living + deaths ≤ g.living
  encircled_eq : g'.encircled = g.encircled

namespace Passage

variable {g g' g₁ g₂ g₃ : Game} {i : Nat} {ant : Ant}

theorem of_eq (hpresent : g'.foodPresent = g.foodPresent) (hliving : g'.living = g.living)
    (hencircled : g'.encircled = g.encircled) : Passage 0 0 g g' :=
  ⟨by omega, by omega, by omega, hencircled⟩

theorem refl (g : Game) : Passage 0 0 g g := of_eq rfl rfl rfl

theorem trans {m n k l : Nat} (h : Passage m k g₁ g₂) (h' : Passage n l g₂ g₃) :
    Passage (m + n) (k + l) g₁ g₃ where
  present_le := by
    have := h.present_le
    have := h'.present_le
    omega
  present_eq hfit := by
    have hm := h.present_eq (by omega)
    have hn := h'.present_eq (by omega)
    omega
  living_le := by
    have := h.living_le
    have := h'.living_le
    omega
  encircled_eq := h'.encircled_eq.trans h.encircled_eq

theorem after {n k : Nat} (h : Passage 0 0 g₁ g₂) (h' : Passage n k g₂ g₃) :
    Passage n k g₁ g₃ := by
  simpa only [Nat.zero_add] using h.trans h'

theorem modifyAnt {f : Ant → Ant} (halive : ∀ a, (f a).alive = a.alive)
    (hload : ∀ a, (f a).carrying = a.carrying) : Passage 0 0 g (g.modifyAnt i f) := by
  cases hant : g.ants[i]? with
  | none =>
    rw [modifyAnt_of_absent hant]
    exact refl g
  | some ant =>
    have hcarried := countP_modify (fun a : Ant => a.alive && a.carrying) f hant
    have hliving := countP_modify (fun a : Ant => a.alive) f hant
    simp only [halive, hload] at hcarried hliving
    refine of_eq ?_ (Nat.add_right_cancel hliving) rfl
    exact congrArg (g.ground.totalFood + ·) (Nat.add_right_cancel hcarried)

theorem modifyCell {p : Position} {f : Cell → Cell} (h : ∀ c, (f c).food = c.food) :
    Passage 0 0 g (g.modifyCell p f) :=
  of_eq (congrArg (· + g.carriedFood) (Ground.totalFood_modify_of_eq h)) rfl rfl

theorem relocate (source target : Position) : Passage 0 0 g (g.relocate i source target) := by
  have hleft : Passage 0 0 g (g.modifyCell source (·.withOccupant none)) :=
    modifyCell fun _ => rfl
  have hentered : Passage 0 0 g ((g.modifyCell source (·.withOccupant none)).modifyCell target
      (·.withOccupant (some i))) := hleft.after (modifyCell fun _ => rfl)
  exact hentered.after (modifyAnt (fun _ => rfl) fun _ => rfl)

/-- The food that is present and the number of the living, after one cell and one ant have
changed. -/
theorem exchange {p : Position} {c : Cell} {f : Cell → Cell} {e : Ant → Ant}
    (hc : g.ground.cell? p = some c) (hant : g.ants[i]? = some ant) :
    ((g.modifyCell p f).modifyAnt i e).foodPresent +
        (c.food.toNat + (ant.alive && ant.carrying).toNat) =
      g.foodPresent + ((f c).food.toNat + ((e ant).alive && (e ant).carrying).toNat) ∧
    ((g.modifyCell p f).modifyAnt i e).living + ant.alive.toNat =
      g.living + (e ant).alive.toNat := by
  refine ⟨?_, countP_modify (fun a : Ant => a.alive) e hant⟩
  have hground := Ground.totalFood_modify f hc
  have hants := countP_modify (fun a : Ant => a.alive && a.carrying) e hant
  simp only [foodPresent, carriedFood, Game.modifyAnt, Game.modifyCell]
  omega

theorem food_add_load_le {p : Position} {c : Cell} (hc : g.ground.cell? p = some c)
    (hant : g.ants[i]? = some ant) (halive : ant.alive = true) :
    c.food.toNat + ant.carrying.toNat ≤ g.foodPresent := by
  have hcell := Ground.food_le_totalFood hc
  have hload : ant.carrying.toNat ≤ g.carriedFood := by
    cases hcarrying : ant.carrying with
    | false => exact Nat.zero_le _
    | true =>
      exact Array.countP_pos_iff.mpr
        ⟨ant, Array.mem_of_getElem? hant, by simp [halive, hcarrying]⟩
  unfold foodPresent
  omega

/-- What an ant does neither gains nor loses food, unless a cell is full. -/
theorem deed (hant : g.ants[i]? = some ant) (halive : ant.alive = true)
    (hdeed : Deed g i ant g') : Passage 0 0 g g' := by
  cases hdeed with
  | idle => exact refl g
  | mark f => exact modifyCell fun c => by cases ant.colony <;> rfl
  | @pickUp c hload hc hfood =>
    obtain ⟨hpresent, hliving⟩ := exchange (f := fun _ => { c with food := c.food - 1 })
      (e := ({ · with carrying := true })) hc hant
    have hsome : 1 ≤ c.food.toNat := by
      have : c.food.toNat ≠ 0 := fun h => hfood (UInt32.toNat_inj.mp h)
      omega
    have htake : (c.food - 1).toNat = c.food.toNat - 1 :=
      UInt32.toNat_sub_of_le _ _ (UInt32.le_iff_toNat_le.mpr hsome)
    simp only [halive, hload, htake, Bool.true_and, Bool.toNat_true, Bool.toNat_false]
      at hpresent hliving
    exact of_eq (by omega) (by omega) rfl
  | drop hload hp =>
    obtain ⟨c, hc⟩ := Ground.exists_cell? hp
    obtain ⟨hpresent, hliving⟩ := exchange (f := (·.gain 1))
      (e := ({ · with carrying := false })) hc hant
    have hgain : (c.gain 1).food.toNat = min (c.food.toNat + 1) foodLimit.toNat :=
      toNat_addFood c.food 1
    have hroom := food_add_load_le hc hant halive
    simp only [halive, hload, hgain, Bool.true_and, Bool.toNat_true, Bool.toNat_false]
      at hpresent hliving hroom
    exact ⟨by omega, by omega, by omega, rfl⟩
  | face d => exact modifyAnt (fun _ => rfl) fun _ => rfl
  | step _ =>
    exact after (relocate ant.position _) (modifyAnt (fun _ => rfl) fun _ => rfl)
  | draw random => exact of_eq rfl rfl rfl

/-- A living ant leaves what it carried, and the bonus. -/
theorem removeAnt (h : Enrolled g) (hant : g.ants[i]? = some ant) (halive : ant.alive = true)
    (bonus : UInt32) (hbonus : bonus.toNat < foodLimit.toNat) :
    Passage bonus.toNat 1 g (g.removeAnt i bonus) := by
  obtain ⟨c, hc, -⟩ := h.footing i ant hant
  simp only [Game.removeAnt, hant]
  generalize hleft : (if ant.carrying then bonus + 1 else bonus) = left
  have hsum : left.toNat = bonus.toNat + ant.carrying.toNat := by
    have hlimit : foodLimit.toNat = 4294967295 := rfl
    rw [← hleft]
    cases ant.carrying with
    | false => rfl
    | true => exact (UInt32.toNat_add bonus 1).trans (Nat.mod_eq_of_lt (by simp; omega))
  obtain ⟨hpresent, hliving⟩ := exchange (f := fun c => (c.withOccupant none).gain left)
    (e := ({ · with alive := false, carrying := false, resting := 0 })) hc hant
  have hgain : ((c.withOccupant none).gain left).food.toNat =
      min (c.food.toNat + left.toNat) foodLimit.toNat := toNat_addFood c.food left
  have hroom := food_add_load_le hc hant halive
  simp only [halive, hgain, hsum, Bool.true_and, Bool.false_and, Bool.toNat_true,
    Bool.toNat_false] at hpresent hliving
  exact ⟨by omega, by omega, by omega, rfl⟩

theorem slot (h : Enrolled g) (teams : Teams) (i : Nat) : Passage 0 0 g (g.slot teams i).1 := by
  generalize hresult : g.slot teams i = result
  have hslot := slotResult_slot g teams i
  rw [hresult] at hslot
  cases hslot with
  | absent _ => exact refl g
  | dead _ _ => exact refl g
  | resting _ _ _ => exact modifyAnt (fun _ => rfl) fun _ => rfl
  | acted next hant halive _ hdeed =>
    exact after (deed hant halive hdeed) (modifyAnt (fun _ => rfl) fun _ => rfl)
  | faulted hant halive _ _ =>
    have hremoved := removeAnt h hant halive 0 (by decide)
    exact ⟨hremoved.present_le, hremoved.present_eq, Nat.le_of_succ_le hremoved.living_le,
      hremoved.encircled_eq⟩

theorem slots (h : Enrolled g) (teams : Teams) (is : List Nat) :
    Passage 0 0 g (Game.slots teams is g).1 := by
  have hslot (g' : Game) (i : Nat) (hg : Enrolled g' ∧ Passage 0 0 g g') :
      Enrolled (g'.slot teams i).1 ∧ Passage 0 0 g (g'.slot teams i).1 :=
    ⟨hg.1.slot teams i, hg.2.after (slot hg.1 teams i)⟩
  have hkeeps := slots_keeps (I := fun g' => Enrolled g' ∧ Passage 0 0 g g') hslot is ⟨h, refl g⟩
  exact hkeeps.2

theorem bury {kills : List Kill} (h : Enrolled g) (hkills : Doomed g kills) :
    Passage (3 * kills.length) kills.length g (g.bury kills) := by
  induction kills generalizing g with
  | nil => exact refl g
  | cons k kills ih =>
    obtain ⟨ant, hant, halive⟩ := hkills.alive k List.mem_cons_self
    have hfirst := removeAnt h hant halive encirclementBonus (by decide)
    have hrest := ih (h.removeAnt k.ant encirclementBonus) (hkills.tail _)
    have hboth := hfirst.trans hrest
    rw [show encirclementBonus.toNat = 3 from rfl] at hboth
    rw [List.length_cons, Nat.mul_succ, Nat.add_comm (3 * _), Nat.add_comm kills.length]
    exact hboth

end Passage

/-! ### The balance of a begun game -/

/-- The scores are the food on the hills. -/
def Scored (g : Game) : Prop := ∀ colony, g.score colony = g.ground.hillFood colony

theorem scored_recount (g : Game) : Scored g.recount
  | .red => rfl
  | .black => rfl

/-- The food of a begun game, and its scores. -/
structure Balanced (g : Game) : Prop where
  enrolled : Enrolled g
  scored : Scored g
  initialFood_eq : g.initialFood = g.home.totalFood
  /-- The encircled are dead. -/
  casualties : g.encircled + g.living ≤ g.ants.size
  present_le : g.foodPresent ≤ g.initialFood + 3 * g.encircled
  present_eq : g.initialFood + 3 * g.ants.size ≤ foodLimit.toNat →
    g.foodPresent = g.initialFood + 3 * g.encircled

theorem carriedFood_newborns (g : Game) (h : g.ants = newborns g.home) : g.carriedFood = 0 := by
  rw [carriedFood, h, Array.countP_eq_zero]
  intro ant hant
  obtain ⟨i, hi⟩ := Array.getElem?_of_mem hant
  obtain ⟨p, c, -, rfl⟩ := getElem?_newborns.mp hi
  simp [Ant.newborn]

theorem foodPresent_begin (g : Game) (teams : Teams) :
    (g.begin teams).foodPresent = (g.begin teams).initialFood := by
  have hcarried : (g.begin teams).carriedFood = 0 := carriedFood_newborns _ rfl
  exact congrArg ((g.begin teams).ground.totalFood + ·) hcarried

theorem balanced_begin (g : Game) (teams : Teams) : Balanced (g.begin teams) := by
  have hpresent := foodPresent_begin g teams
  have htotal : (g.begin teams).ground.totalFood = g.home.totalFood := by
    refine seat_keeps (I := fun ground => ground.totalFood = g.home.totalFood) ?_ _ rfl
    intro ground p i h
    rw [← h]
    exact Ground.totalFood_modify_of_eq fun _ => rfl
  have hencircled : (g.begin teams).encircled = 0 := rfl
  refine ⟨enrolled_begin g teams, scored_recount _, htotal, ?_, ?_, ?_⟩
  · rw [hencircled, Nat.zero_add]
    exact Array.countP_le_size
  · omega
  · omega

namespace Balanced

variable {g : Game}

/-- A part of a turn keeps the balance, once its victims are counted and the scores are taken. -/
theorem of_passage {g' : Game} {n : Nat} (h : Balanced g) (hframe : Frame g g')
    (hpassage : Passage (3 * n) n g g') (henrolled : Enrolled g') :
    Balanced { g' with encircled := g'.encircled + n }.recount := by
  have hencircled := hpassage.encircled_eq
  have hliving := hpassage.living_le
  have hcasualties := h.casualties
  have hsize := hframe.size
  have hinitial := hframe.initialFood
  refine ⟨henrolled, scored_recount _, ?_, ?_, ?_, ?_⟩
  · exact hinitial.trans (h.initialFood_eq.trans (congrArg Ground.totalFood hframe.home.symm))
  · show g'.encircled + n + g'.living ≤ g'.ants.size
    omega
  · show g'.foodPresent ≤ g'.initialFood + 3 * (g'.encircled + n)
    have := hpassage.present_le
    have := h.present_le
    omega
  · show g'.initialFood + 3 * g'.ants.size ≤ foodLimit.toNat →
      g'.foodPresent = g'.initialFood + 3 * (g'.encircled + n)
    intro hfit
    have hpresent := h.present_eq (by omega)
    have := hpassage.present_eq (by omega)
    omega

theorem slots (h : Balanced g) (teams : Teams) (is : List Nat) :
    Balanced (Game.slots teams is g).1.recount :=
  h.of_passage (n := 0) (Frame.slots teams is g) (Passage.slots h.enrolled teams is)
    (h.enrolled.slots teams is)

theorem kill (h : Balanced g) : Balanced (g.kill g.victims) := by
  unfold Game.kill
  split
  · exact h
  · exact h.of_passage (Frame.bury g g.victims)
      (Passage.bury h.enrolled h.enrolled.doomed_victims) (h.enrolled.bury g.victims)

theorem elsewhere (h : Balanced g) (config : Config) (phase : Phase) (flags : Flags)
    (turn : Nat) : Balanced { g with config, phase, flags, turn } :=
  ⟨h.enrolled, h.scored, h.initialFood_eq, h.casualties, h.present_le, h.present_eq⟩

theorem playTurn (h : Balanced g) (teams : Teams) : Balanced (g.playTurn teams).2 := by
  have hdone := (h.slots teams (List.range g.ants.size)).kill
  unfold Game.playTurn Game.endAtLimit
  dsimp only
  split
  · exact hdone.elsewhere _ _ _ _
  · exact hdone.elsewhere _ _ _ _

end Balanced

/-- A begun game stays in balance. -/
theorem balanced_of_course {g g' : Game} {teams : Teams} (h : Course (g.begin teams) g') :
    Balanced g' :=
  h.keeps_play (balanced_begin g teams) (fun g₁ teams _ => balanced_begin g₁ teams)
    (fun _ teams _ hg => hg.playTurn teams)
    fun g₁ config phase flags hg => hg.elsewhere config phase flags g₁.turn

/-- After a game has begun, and whatever is done with it, the scores are the food on the hills,
and the food that is present is at most what was there at first and three particles for each
encircled ant.  It is just that, on the hills of red, on those of black, off the hills and with
the living, if it and the bonus of all ants would fit one cell. -/
theorem food_balance_of_course {ground : Ground} {config : Config} {g₀ g : Game} {teams : Teams}
    (h₀ : Course (load ground config) g₀) (h : Course (g₀.begin teams) g) :
    g.initialFood = ground.totalFood ∧
    g.foodPresent ≤ g.initialFood + 3 * g.encircled ∧
    (∀ colony, g.score colony = g.ground.hillFood colony) ∧
    (g.initialFood + 3 * g.ants.size ≤ foodLimit.toNat →
      g.foodPresent = g.initialFood + 3 * g.encircled ∧
      (g.score .red).toNat + (g.score .black).toNat + g.ground.foodOffHills + g.carriedFood =
        g.initialFood + 3 * g.encircled) := by
  have hg := balanced_of_course h
  have hhome : g.home = ground := h.home_eq.trans h₀.home_eq
  refine ⟨hhome ▸ hg.initialFood_eq, hg.present_le, hg.scored, fun hfit => ?_⟩
  have hpresent := hg.present_eq hfit
  refine ⟨hpresent, ?_⟩
  have hencircled : g.encircled ≤ g.ants.size := (Nat.le_add_right _ _).trans hg.casualties
  have hsplit := g.ground.totalFood_eq_add
  rw [hg.scored, hg.scored, Ground.toNat_hillFood, Ground.toNat_hillFood]
  unfold foodPresent at hpresent
  omega

/-- For example when an ant has picked up one of two particles on its hill. -/
theorem food_balance_after_pickUp :
    ∃ (ground : Ground) (g : Game), g.turn = 1 ∧ g.score .red = 1 ∧ g.carriedFood = 1 ∧
      g.initialFood = 2 ∧ g.foodPresent = g.initialFood + 3 * g.encircled ∧
      g.initialFood = ground.totalFood := by
  let side : Side := ⟨3, by decide⟩
  let first : StateIndex := ⟨0, by decide⟩
  let brain : Brain := ⟨"gather", #[.pickUp first first], by decide, by decide⟩
  let ground := (Ground.walled side side).modify ⟨1, 1⟩ fun _ => .fresh (.hill .red) 2
  let g := (load ground {}).begin ⟨brain, brain⟩
  have hcourse : Course g g.step.2 := .single .step
  obtain ⟨htotal, -, -, hbalance⟩ := food_balance_of_course .refl hcourse
  exact ⟨ground, g.step.2, by decide +kernel, by decide +kernel, by decide +kernel,
    by decide +kernel, (hbalance (by decide +kernel)).1, htotal⟩

end Game

end AntContest

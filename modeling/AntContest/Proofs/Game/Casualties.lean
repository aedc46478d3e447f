import AntContest.Proofs.Game.FoodBalance
import AntContest.Proofs.Game.Observed

/-! # The dead of a game

An ant dies in its slot when it faults, or at the end of a turn when it is encircled.  Either death
is counted in the game and stands in the report of the turn, and what is left of a dead ant never
changes until a game begins again.

* `Toll lost ids g g'`: on the way from one game to another the ants `ids` have died, `lost` of them
  by faults, and the ants that were dead before are as they were.  Slots and burials pay their toll
  (`Toll.slots`, `Toll.bury`).
* `Tolled reports g`: the dead are those in the reports.  This holds when a game begins and along
  every chronicle (`tolled_of_chronicle`), so there are such reports of every game
  (`tolled_of_course`).
* `death_accounting`: hence the numbers of the living and of the dead add up, and nobody dies
  twice. -/

namespace AntContest

/-- The numbers of the ants that died in a turn, first those with a fault. -/
def TurnReport.deaths (r : TurnReport) : List Nat := r.faults.map (·.ant) ++ r.kills.map (·.ant)

theorem TurnReport.length_deaths (r : TurnReport) :
    r.deaths.length = r.faults.length + r.kills.length := by
  simp [deaths]

namespace Game

def Dead (g : Game) (i : Nat) : Prop := ∃ ant, g.ants[i]? = some ant ∧ ant.alive = false

theorem not_dead_of_alive {g : Game} {i : Nat} {ant : Ant} (hant : g.ants[i]? = some ant)
    (halive : ant.alive = true) : ¬ g.Dead i := by
  rintro ⟨other, hother, hdead⟩
  rw [Option.some.inj (hother.symm.trans hant), halive] at hdead
  cases hdead

/-- Whoever is dead in the first game is the same in the second. -/
def Frozen (g g' : Game) : Prop :=
  ∀ (i : Nat) (ant : Ant), g.ants[i]? = some ant → ant.alive = false → g'.ants[i]? = some ant

/-- On the way from the first game to the second the ants `ids` have died, `lost` of them by faults,
before the victims of encirclement are counted. -/
structure Toll (lost : Nat) (ids : List Nat) (g g' : Game) : Prop where
  nodup : ids.Nodup
  /-- They were not dead before. -/
  fresh : ∀ i ∈ ids, ¬ g.Dead i
  dead_iff : ∀ i, g'.Dead i ↔ g.Dead i ∨ i ∈ ids
  frozen : Frozen g g'
  faulted_eq : g'.faulted = g.faulted + lost
  encircled_eq : g'.encircled = g.encircled

namespace Toll

variable {g g' g₁ g₂ g₃ : Game} {i : Nat} {ant : Ant}

theorem of_eq (hants : g'.ants = g.ants) (hfaulted : g'.faulted = g.faulted)
    (hencircled : g'.encircled = g.encircled) : Toll 0 [] g g' where
  nodup := List.nodup_nil
  fresh _ h := nomatch h
  dead_iff i := by simp [Dead, hants]
  frozen i ant hant _ := by rw [hants, hant]
  faulted_eq := hfaulted
  encircled_eq := hencircled

theorem refl (g : Game) : Toll 0 [] g g := of_eq rfl rfl rfl

theorem trans {m n : Nat} {ids ids' : List Nat} (h : Toll m ids g₁ g₂) (h' : Toll n ids' g₂ g₃) :
    Toll (m + n) (ids ++ ids') g₁ g₃ where
  nodup := by
    refine List.nodup_append.mpr ⟨h.nodup, h'.nodup, ?_⟩
    rintro i hi _ hi' rfl
    exact h'.fresh i hi' ((h.dead_iff i).mpr (.inr hi))
  fresh i hi hdead := by
    rcases List.mem_append.mp hi with hi | hi
    · exact h.fresh i hi hdead
    · exact h'.fresh i hi ((h.dead_iff i).mpr (.inl hdead))
  dead_iff i := by rw [h'.dead_iff, h.dead_iff, List.mem_append, or_assoc]
  frozen i ant hant hdead := h'.frozen i ant (h.frozen i ant hant hdead) hdead
  faulted_eq := by rw [h'.faulted_eq, h.faulted_eq, Nat.add_assoc]
  encircled_eq := h'.encircled_eq.trans h.encircled_eq

theorem after {n : Nat} {ids : List Nat} (h : Toll 0 [] g₁ g₂) (h' : Toll n ids g₂ g₃) :
    Toll n ids g₁ g₃ := by
  simpa only [Nat.zero_add, List.nil_append] using h.trans h'

theorem not_dead (h : Toll 0 [] g g') (hi : ¬ g.Dead i) : ¬ g'.Dead i := by
  simpa only [h.dead_iff, List.not_mem_nil, or_false] using hi

theorem modifyAnt {f : Ant → Ant} (hi : ¬ g.Dead i) (halive : ∀ a, (f a).alive = a.alive) :
    Toll 0 [] g (g.modifyAnt i f) where
  nodup := List.nodup_nil
  fresh _ h := nomatch h
  dead_iff j := by
    simp only [Dead, Game.modifyAnt, Array.getElem?_modify, List.not_mem_nil, or_false]
    split
    · cases g.ants[j]? <;> simp [halive]
    · rfl
  frozen j ant hant hdead := by
    have hij : i ≠ j := fun h => hi ⟨ant, h ▸ hant, hdead⟩
    rw [Game.modifyAnt, Array.getElem?_modify, if_neg hij, hant]
  faulted_eq := rfl
  encircled_eq := rfl

theorem deed (hi : ¬ g.Dead i) (hdeed : Deed g i ant g') : Toll 0 [] g g' := by
  have hcell (p : Position) (f : Cell → Cell) : Toll 0 [] g (g.modifyCell p f) := of_eq rfl rfl rfl
  cases hdeed with
  | idle => exact refl g
  | mark f => exact hcell _ _
  | pickUp _ _ _ => exact (hcell _ _).after (modifyAnt hi fun _ => rfl)
  | drop _ _ => exact (hcell _ _).after (modifyAnt hi fun _ => rfl)
  | face d => exact modifyAnt hi fun _ => rfl
  | @step target _ =>
    have hcells : Toll 0 [] g ((g.modifyCell ant.position (·.withOccupant none)).modifyCell target
        (·.withOccupant (some i))) := of_eq rfl rfl rfl
    have hmoved : Toll 0 [] g (g.relocate i ant.position target) :=
      hcells.after (modifyAnt hi fun _ => rfl)
    exact hmoved.after (modifyAnt (hmoved.not_dead hi) fun _ => rfl)
  | draw random => exact of_eq rfl rfl rfl

theorem removeAnt (hant : g.ants[i]? = some ant) (halive : ant.alive = true) (bonus : UInt32) :
    Toll 0 [i] g (g.removeAnt i bonus) where
  nodup := by simp
  fresh j hj := by
    rw [List.mem_singleton.mp hj]
    exact not_dead_of_alive hant halive
  dead_iff j := by
    unfold Dead
    rw [getElem?_ants_removeAnt, List.mem_singleton]
    split
    · next hij =>
      subst hij
      simp [hant]
    · next hij => simp [Ne.symm hij]
  frozen j other hother hdead := by
    have hij : i ≠ j := fun h => not_dead_of_alive hant halive ⟨other, h ▸ hother, hdead⟩
    rw [getElem?_ants_removeAnt, if_neg hij, hother]
  faulted_eq := by
    unfold Game.removeAnt
    split <;> rfl
  encircled_eq := by
    unfold Game.removeAnt
    split <;> rfl

/-- In a slot dies the ant whose fault is reported. -/
theorem slot (g : Game) (teams : Teams) (i : Nat) :
    Toll (g.slot teams i).2.toList.length ((g.slot teams i).2.toList.map (·.ant)) g
      (g.slot teams i).1 := by
  generalize hresult : g.slot teams i = result
  have hslot := slotResult_slot g teams i
  rw [hresult] at hslot
  cases hslot with
  | absent _ => exact refl g
  | dead _ _ => exact refl g
  | resting hant halive _ => exact modifyAnt (not_dead_of_alive hant halive) fun _ => rfl
  | acted next hant halive _ hdeed =>
    have hi := not_dead_of_alive hant halive
    have hdone := deed hi hdeed
    exact hdone.after (modifyAnt (hdone.not_dead hi) fun _ => rfl)
  | faulted hant halive _ _ =>
    have hremoved := removeAnt hant halive 0
    exact ⟨hremoved.nodup, hremoved.fresh, hremoved.dead_iff, hremoved.frozen,
      congrArg (· + 1) hremoved.faulted_eq, hremoved.encircled_eq⟩

theorem slots (teams : Teams) (is : List Nat) (g : Game) :
    Toll (Game.slots teams is g).2.length ((Game.slots teams is g).2.map (·.ant)) g
      (Game.slots teams is g).1 := by
  induction is generalizing g with
  | nil => exact refl g
  | cons i is ih =>
    rw [slots_cons, List.length_append, List.map_append]
    exact (slot g teams i).trans (ih _)

theorem bury {kills : List Kill} (hkills : Doomed g kills) :
    Toll 0 (kills.map (·.ant)) g (g.bury kills) := by
  induction kills generalizing g with
  | nil => exact refl g
  | cons k kills ih =>
    obtain ⟨ant, hant, halive⟩ := hkills.alive k List.mem_cons_self
    exact (removeAnt hant halive encirclementBonus).trans (ih (hkills.tail _))

end Toll

/-- The counting of victims does not touch the ants. -/
theorem kill_eq_bury (g : Game) (kills : List Kill) :
    (g.kill kills).ants = (g.bury kills).ants ∧
      (g.kill kills).faulted = (g.bury kills).faulted ∧
      (g.kill kills).encircled = (g.bury kills).encircled + kills.length := by
  unfold kill
  split
  · next hempty =>
    obtain rfl := List.isEmpty_iff.mp hempty
    exact ⟨rfl, rfl, rfl⟩
  · exact ⟨rfl, rfl, rfl⟩

/-- In a turn die the ants that its report names, and its victims are counted in the end. -/
theorem toll_playTurn {g : Game} (h : Enrolled g) (teams : Teams) :
    ∃ buried, Toll (g.playTurn teams).1.faults.length (g.playTurn teams).1.deaths g buried ∧
      (g.playTurn teams).2.ants = buried.ants ∧ (g.playTurn teams).2.faulted = buried.faulted ∧
      (g.playTurn teams).2.encircled =
        buried.encircled + (g.playTurn teams).1.kills.length := by
  let done := (Game.slots teams (List.range g.ants.size) g).1.recount
  have hslots := Toll.slots teams (List.range g.ants.size) g
  have hcounted : Toll 0 [] (Game.slots teams (List.range g.ants.size) g).1 done :=
    .of_eq rfl rfl rfl
  have hdone : Enrolled done := h.slots teams _
  have hburied := hslots.trans (hcounted.after (.bury hdone.doomed_victims))
  have hlast : SamePlay (g.playOut teams).2 (g.playTurn teams).2 := .endAtLimit _
  obtain ⟨hants, hfaulted, hencircled⟩ := kill_eq_bury done done.victims
  exact ⟨_, hburied, hlast.ants.trans hants, hlast.faulted.trans hfaulted,
    hlast.encircled.trans hencircled⟩

/-! ### The dead and the reports -/

/-- The dead of a game are those in the reports of its turns, and each is counted once. -/
structure Tolled (reports : List TurnReport) (g : Game) : Prop where
  enrolled : Enrolled g
  nodup : (reports.flatMap (·.deaths)).Nodup
  mem_iff : ∀ i, i ∈ reports.flatMap (·.deaths) ↔ g.Dead i
  encircled_eq : g.encircled = (reports.flatMap (·.kills)).length
  faulted_eq : g.faulted = (reports.flatMap (·.faults)).length

namespace Tolled

variable {g g' : Game} {reports : List TurnReport}

theorem load (ground : Ground) (config : Config) : Tolled [] (load ground config) where
  enrolled := enrolled_load ground config
  nodup := List.nodup_nil
  mem_iff i := by simp [Dead, Game.load]
  encircled_eq := rfl
  faulted_eq := rfl

theorem begin (g : Game) (teams : Teams) : Tolled [] (g.begin teams) where
  enrolled := enrolled_begin g teams
  nodup := List.nodup_nil
  mem_iff i := by
    refine ⟨fun h => (List.not_mem_nil h).elim, ?_⟩
    rintro ⟨ant, hant, hdead⟩
    obtain ⟨p, colony, -, rfl⟩ := getElem?_newborns.mp hant
    cases hdead
  encircled_eq := rfl
  faulted_eq := rfl

theorem of_samePlay (h : Tolled reports g) (hsame : SamePlay g g') : Tolled reports g' := by
  rw [hsame]
  exact ⟨h.enrolled, h.nodup, h.mem_iff, h.encircled_eq, h.faulted_eq⟩

theorem playTurn (h : Tolled reports g) (teams : Teams) :
    Tolled (reports ++ [(g.playTurn teams).1]) (g.playTurn teams).2 := by
  obtain ⟨buried, htoll, hants, hfaulted, hencircled⟩ := toll_playTurn h.enrolled teams
  have hdead (i : Nat) : (g.playTurn teams).2.Dead i ↔ buried.Dead i := by rw [Dead, hants, Dead]
  refine ⟨h.enrolled.playTurn teams, ?_, fun i => ?_, ?_, ?_⟩
  · rw [List.flatMap_append, List.flatMap_singleton]
    refine List.nodup_append.mpr ⟨h.nodup, htoll.nodup, ?_⟩
    rintro i hi _ hi' rfl
    exact htoll.fresh i hi' ((h.mem_iff i).mp hi)
  · rw [List.flatMap_append, List.flatMap_singleton, List.mem_append, h.mem_iff, hdead,
      htoll.dead_iff]
  · rw [hencircled, htoll.encircled_eq, h.encircled_eq, List.flatMap_append, List.length_append,
      List.flatMap_singleton]
  · rw [hfaulted, htoll.faulted_eq, h.faulted_eq, List.flatMap_append, List.length_append,
      List.flatMap_singleton]

end Tolled

/-- Along a chronicle from the beginning of a game, the dead are those in the reports. -/
theorem tolled_of_chronicle {g₀ g : Game} {teams : Teams} {reports : List TurnReport}
    (h : Chronicle (g₀.begin teams) reports g) : Tolled reports g :=
  h.keeps (fun _ _ teams _ _ hg => hg.playTurn teams) (fun _ _ _ hsame hg => hg.of_samePlay hsame)
    (.begin g₀ teams)

/-- Whatever has been done with a game, some reports account for its dead. -/
theorem tolled_of_course {ground : Ground} {config : Config} {g : Game}
    (h : Course (load ground config) g) : ∃ reports, Tolled reports g := by
  refine h.keeps_play (I := fun g => ∃ reports, Tolled reports g) ⟨[], .load ground config⟩
    (fun g teams _ => ⟨[], .begin g teams⟩) ?_ ?_
  · rintro g teams - ⟨reports, hg⟩
    exact ⟨_, hg.playTurn teams⟩
  · rintro g config phase flags ⟨reports, hg⟩
    exact ⟨reports, hg.of_samePlay rfl⟩

/-- Whatever is done with a game short of beginning it again, the dead are left as they are. -/
theorem frozen_of_continuation {g g' : Game} (h : Enrolled g)
    (hrun : Relation.ReflTransGen Continuation g g') : Frozen g g' := by
  obtain ⟨reports, hreports⟩ := exists_chronicle_iff.mpr hrun
  refine (hreports.keeps (I := fun _ g' => Enrolled g' ∧ Frozen g g') ?_ ?_
    ⟨h, fun i ant hant _ => hant⟩).2
  · rintro - g₁ teams - - ⟨henrolled, hfrozen⟩
    obtain ⟨buried, htoll, hants, -, -⟩ := toll_playTurn henrolled teams
    refine ⟨henrolled.playTurn teams, fun i ant hant hdead => ?_⟩
    rw [hants]
    exact htoll.frozen i ant (hfrozen i ant hant hdead) hdead
  · rintro - g₁ g₂ hsame ⟨henrolled, hfrozen⟩
    rw [hsame]
    exact ⟨henrolled, hfrozen⟩

/-! ### Numbers -/

theorem aliveCount_add_aliveCount (g : Game) :
    g.aliveCount .red + g.aliveCount .black = g.living := by
  unfold aliveCount living
  simp only [← Array.countP_toList]
  induction g.ants.toList with
  | nil => rfl
  | cons ant ants ih =>
    simp only [List.countP_cons]
    cases ant.alive <;> cases ant.colony <;> simp <;> omega

def deadIds (g : Game) : List Nat := (g.ants.toList.filter fun a => !a.alive).map (·.id)

theorem length_deadIds (g : Game) : g.living + g.deadIds.length = g.ants.size := by
  have hsplit := List.length_eq_countP_add_countP (fun a : Ant => a.alive) (l := g.ants.toList)
  rw [Array.length_toList] at hsplit
  rw [deadIds, List.length_map, ← List.countP_eq_length_filter, living, ← Array.countP_toList]
  simp only [Bool.not_eq_true, Bool.decide_eq_false] at hsplit
  exact hsplit.symm

theorem Enrolled.nodup_deadIds {g : Game} (h : Enrolled g) : g.deadIds.Nodup := h.nodup_ids _

theorem Enrolled.mem_deadIds {g : Game} (h : Enrolled g) {i : Nat} : i ∈ g.deadIds ↔ g.Dead i := by
  rw [deadIds, h.mem_ids]
  simp only [Dead, Bool.not_eq_true']

theorem Tolled.length_eq {g : Game} {reports : List TurnReport} (h : Tolled reports g) :
    (reports.flatMap (·.deaths)).length = g.deadIds.length := by
  refine List.Perm.length_eq ?_
  rw [List.perm_ext_iff_of_nodup h.nodup h.enrolled.nodup_deadIds]
  intro i
  rw [h.mem_iff, h.enrolled.mem_deadIds]

theorem length_deaths (reports : List TurnReport) :
    (reports.flatMap (·.deaths)).length =
      (reports.flatMap (·.kills)).length + (reports.flatMap (·.faults)).length := by
  induction reports with
  | nil => rfl
  | cons report reports ih =>
    simp only [List.flatMap_cons, List.length_append, ih, TurnReport.length_deaths]
    omega

/-- Each ant lives or has been counted among the dead. -/
theorem Tolled.balance {g : Game} {reports : List TurnReport} (h : Tolled reports g) :
    g.living + g.encircled + g.faulted = g.ants.size := by
  have hsize := length_deadIds g
  have hdeaths := h.length_eq
  have hsum := length_deaths reports
  have hencircled := h.encircled_eq
  have hfaulted := h.faulted_eq
  omega

/-- What is known of the dead of a game from the reports of its turns. -/
structure DeathLaws (reports : List TurnReport) (g : Game) : Prop where
  /-- Every ant lives, or it has been counted once among the dead. -/
  balance : g.aliveCount .red + g.aliveCount .black + g.encircled + g.faulted = g.ants.size
  /-- The reports name nobody twice, be it for a fault or for encirclement. -/
  nodup : (reports.flatMap (·.deaths)).Nodup
  encircled_eq : g.encircled = (reports.flatMap (·.kills)).length
  faulted_eq : g.faulted = (reports.flatMap (·.faults)).length
  /-- The dead ants are those that the reports name. -/
  mem_iff : ∀ i, i ∈ reports.flatMap (·.deaths) ↔
    ∃ ant, g.ants[i]? = some ant ∧ ant.id = i ∧ ant.alive = false
  /-- A dead ant carries nothing. -/
  unladen : ∀ (i : Nat) (ant : Ant), g.ants[i]? = some ant → ant.alive = false →
    ant.carrying = false
  /-- Nothing changes a dead ant but the beginning of a game. -/
  frozen : ∀ (i : Nat) (ant : Ant), g.ants[i]? = some ant → ant.alive = false →
    ∀ g', Relation.ReflTransGen Continuation g g' → g'.ants[i]? = some ant
  /-- It does not change within a turn, and nothing happens in its slot. -/
  idle : ∀ (i : Nat) (ant : Ant), g.ants[i]? = some ant → ant.alive = false →
    ∀ (teams : Teams) (is : List Nat), (slots teams is g).1.ants[i]? = some ant ∧
      (slots teams is g).1.slot teams i = ((slots teams is g).1, none)

theorem Tolled.deathLaws {g : Game} {reports : List TurnReport} (h : Tolled reports g) :
    DeathLaws reports g where
  balance := by
    rw [aliveCount_add_aliveCount]
    exact h.balance
  nodup := h.nodup
  encircled_eq := h.encircled_eq
  faulted_eq := h.faulted_eq
  mem_iff i := by
    refine (h.mem_iff i).trans ⟨?_, ?_⟩
    · rintro ⟨ant, hant, hdead⟩
      exact ⟨ant, hant, h.enrolled.id_eq i ant hant, hdead⟩
    · rintro ⟨ant, hant, -, hdead⟩
      exact ⟨ant, hant, hdead⟩
  unladen := h.enrolled.unladen
  frozen i ant hant hdead g' hrun := frozen_of_continuation h.enrolled hrun i ant hant hdead
  idle i ant hant hdead teams is := by
    have hsame := (Toll.slots teams is g).frozen i ant hant hdead
    exact ⟨hsame, slot_of_dead hsame hdead⟩

/-- From the beginning of a game to the next one, whatever is done in between, the deaths are kept
account of.  With fewer than `2 ^ 32` hills the two counters fit 32 bits. -/
theorem death_accounting {ground : Ground} {config : Config} {g₀ g : Game} {teams : Teams}
    {reports : List TurnReport} (hhills : ground.hills.length < 2 ^ 32)
    (h₀ : Course (load ground config) g₀) (h : Chronicle (g₀.begin teams) reports g) :
    DeathLaws reports g ∧ g.ants.size = ground.hills.length ∧ g.encircled + g.faulted < 2 ^ 32 := by
  have hlaws := (tolled_of_chronicle h).deathLaws
  have hsize : g.ants.size = ground.hills.length := by
    refine (h.keeps (I := fun _ g => g.ants.size = ground.hills.length) ?_ ?_ ?_)
    · intro _ g teams _ _ hg
      exact (Frame.playTurn g teams).size.trans hg
    · intro _ g g' hsame hg
      rw [hsame]
      exact hg
    · have hhome : g₀.home = ground := h₀.home_eq
      rw [size_ants_begin, hhome]
  have hbalance := hlaws.balance
  exact ⟨hlaws, hsize, by omega⟩

/-- For example when a red ant is encircled by six black ants, whose brain then jumps past its
end. -/
theorem death_accounting_of_hexagon :
    ∃ (ground : Ground) (g : Game) (reports : List TurnReport), ground.hills.length < 2 ^ 32 ∧
      g.turn = 2 ∧ g.encircled = 1 ∧ g.faulted = 6 ∧ g.aliveCount .red = 0 ∧
      g.aliveCount .black = 0 ∧ reports.length = 2 ∧ DeathLaws reports g ∧
      g.ants.size = ground.hills.length := by
  let side : Side := ⟨5, by decide⟩
  let brain : Brain := ⟨"jump", #[.turn .left ⟨1, by decide⟩], by decide, by decide⟩
  let hill (c : Colony) (ground : Ground) (p : Position) : Ground :=
    ground.modify p fun _ => .fresh (.hill c) 0
  let ground := hill .red
    ([⟨1, 1⟩, ⟨2, 1⟩, ⟨1, 2⟩, ⟨3, 2⟩, ⟨1, 3⟩, ⟨2, 3⟩].foldl (hill .black) (Ground.walled side side))
    ⟨2, 2⟩
  let g₀ := load ground {}
  have hchronicle : Chronicle (g₀.begin ⟨brain, brain⟩) _ _ := Chronicle.start.step.step
  have hhills : ground.hills.length < 2 ^ 32 := by decide +kernel
  obtain ⟨hlaws, hsize, -⟩ := death_accounting hhills .refl hchronicle
  exact ⟨ground, _, _, hhills, by decide +kernel, by decide +kernel, by decide +kernel,
    by decide +kernel, by decide +kernel, by decide +kernel, hlaws, hsize⟩

end Game

end AntContest

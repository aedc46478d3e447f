import AntContest.Proofs.Game.Course
import AntContest.Proofs.Game.Roster
import AntContest.Proofs.Ground.Built
import AntContest.Proofs.Ground.Distance

/-! # Where the ants stand

Where an ant stands is written down twice: the ant names its cell and the cell names its ant.
`Posted` says that the two records agree, on top of the roster being in order.

* `atPosts_begin`: the records agree when a game begins on a ground without ants.
* `AtPosts.slot`, `AtPosts.removeAnt` and what follows from them: every turn keeps them in
  agreement, whatever the ants do and however they die.
* `atPosts_of_course`: hence they agree after every course of a game.
* `distance_of_course`: the ants stand on ground of the loaded sides, so that the program measures
  the steps between them unless the ground is wider than signed words. -/

namespace AntContest

/-- The ants of a list stand on a ground as its cells say. -/
structure Posted (ground : Ground) (ants : Array Ant) : Prop extends Roster ground ants where
  occupant_iff : ∀ (p : Position) (i : Nat), (ground.cell? p).bind (·.occupant) = some i ↔
    ∃ ant, ants[i]? = some ant ∧ ant.alive = true ∧ ant.position = p

namespace Game

/-- The ants of a game stand where its cells say. -/
abbrev AtPosts (g : Game) : Prop := Posted g.ground g.ants

namespace AtPosts

variable {g g' : Game} {i j : Nat} {ant other : Ant} {p : Position} {c : Cell}

/-- A cell names the ant that stands on it alive. -/
theorem occupant_eq (h : AtPosts g) (hant : g.ants[i]? = some ant) (halive : ant.alive = true) :
    (g.ground.cell? ant.position).bind (·.occupant) = some i :=
  (h.occupant_iff _ _).mpr ⟨ant, hant, halive, rfl⟩

theorem eq_of_position_eq (h : AtPosts g) (hant : g.ants[i]? = some ant)
    (halive : ant.alive = true) (hother : g.ants[j]? = some other)
    (halive' : other.alive = true) (he : ant.position = other.position) : i = j := by
  have hi := h.occupant_eq hant halive
  have hj := h.occupant_eq hother halive'
  rw [he] at hi
  exact Option.some.inj (hi.symm.trans hj)

theorem modifyAnt {f : Ant → Ant} (h : AtPosts g) (hid : ∀ a, (f a).id = a.id)
    (hposition : ∀ a, (f a).position = a.position) (halive : ∀ a, (f a).alive = a.alive)
    (hload : ∀ a, g.ants[i]? = some a → (f a).alive = false → (f a).carrying = false) :
    AtPosts (g.modifyAnt i f) where
  toRoster := Enrolled.modifyAnt h.toRoster hid hposition hload
  occupant_iff p j := by
    refine (h.occupant_iff p j).trans ⟨?_, ?_⟩
    · rintro ⟨a, ha, hliving, rfl⟩
      by_cases hij : i = j
      · refine ⟨f a, ?_, by rw [halive, hliving], hposition a⟩
        simp [Game.modifyAnt, Array.getElem?_modify, hij, ha]
      · refine ⟨a, ?_, hliving, rfl⟩
        simp [Game.modifyAnt, Array.getElem?_modify, hij, ha]
    · rintro ⟨a, ha, hliving, rfl⟩
      rcases getElem?_modify_cases ha with ⟨old, -, hold, rfl⟩ | ⟨-, hold⟩
      · exact ⟨old, hold, by rw [← halive, hliving], (hposition old).symm⟩
      · exact ⟨a, hold, hliving, rfl⟩

theorem modifyCell {f : Cell → Cell} (h : AtPosts g)
    (hterrain : ∀ c, g.ground.cell? p = some c → (f c).terrain = c.terrain)
    (hoccupant : ∀ c, g.ground.cell? p = some c → (f c).occupant = c.occupant) :
    AtPosts (g.modifyCell p f) where
  toRoster := Enrolled.modifyCell h.toRoster hterrain
  occupant_iff q j := by
    refine Iff.trans ?_ (h.occupant_iff q j)
    simp only [Game.modifyCell, Ground.cell?_modify]
    split
    · next hpq =>
      subst hpq
      cases hc : g.ground.cell? p with
      | none => exact Iff.rfl
      | some c => simp [hoccupant c hc]
    · exact Iff.rfl

/-- A living ant steps from its cell onto a free one. -/
theorem relocate {target : Position} (h : AtPosts g) (hant : g.ants[i]? = some ant)
    (halive : ant.alive = true) (hc : g.ground.cell? target = some c) (hfree : c.isFree = true) :
    AtPosts (g.relocate i ant.position target) where
  toRoster := Enrolled.relocate h.toRoster hc hfree
  occupant_iff q j := by
    have hvacant : (g.ground.cell? target).bind (·.occupant) = none := by
      rw [hc]
      simpa [Cell.isFree] using (Bool.and_eq_true_iff.mp hfree).2
    have hhere := h.occupant_eq hant halive
    have hne : ant.position ≠ target := by
      intro he
      rw [he, hvacant] at hhere
      cases hhere
    have hold := h.occupant_iff q j
    have hcell : ((g.relocate i ant.position target).ground.cell? q).bind (·.occupant) =
        if target = q then some i else if ant.position = q then none
        else (g.ground.cell? q).bind (·.occupant) := by
      simp only [Game.relocate, Game.modifyAnt, Game.modifyCell, Ground.cell?_modify]
      by_cases ht : target = q
      · subst ht
        simp [hne, hc, Cell.withOccupant]
      · by_cases hs : ant.position = q
        · subst hs
          cases g.ground.cell? ant.position <;> simp [ht, Cell.withOccupant]
        · simp [ht, hs]
    have hants : (g.relocate i ant.position target).ants[j]? =
        if i = j then g.ants[j]?.map ({ · with position := target }) else g.ants[j]? :=
      Array.getElem?_modify
    rw [hcell, hants]
    by_cases hij : i = j
    · subst hij
      simp only [if_true, hant, Option.map_some, Option.some.injEq]
      by_cases ht : target = q
      · simp [ht, halive]
      · by_cases hs : ant.position = q
        · simp [ht, hs]
        · rw [hant] at hold
          simpa [ht, hs, halive] using hold
    · by_cases ht : target = q
      · subst ht
        rw [hvacant] at hold
        simpa [hij] using hold
      · by_cases hs : ant.position = q
        · subst hs
          rw [hhere] at hold
          simpa [ht, hij] using hold
        · simpa [ht, hs, hij] using hold

/-- A living ant leaves its cell for good. -/
theorem removeAnt (h : AtPosts g) (hant : g.ants[i]? = some ant) (halive : ant.alive = true)
    (bonus : UInt32) : AtPosts (g.removeAnt i bonus) where
  toRoster := Enrolled.removeAnt h.toRoster i bonus
  occupant_iff q j := by
    have hold := h.occupant_iff q j
    have hhere := h.occupant_eq hant halive
    rw [getElem?_ants_removeAnt]
    have hcell : ((g.removeAnt i bonus).ground.cell? q).bind (·.occupant) =
        if ant.position = q then none else (g.ground.cell? q).bind (·.occupant) := by
      simp only [Game.removeAnt, hant, Game.modifyAnt, Game.modifyCell, Ground.cell?_modify]
      by_cases hs : ant.position = q
      · subst hs
        cases g.ground.cell? ant.position <;> simp [Cell.withOccupant, Cell.gain]
      · simp [hs]
    rw [hcell]
    by_cases hij : i = j
    · subst hij
      by_cases hs : ant.position = q
      · simp [hs, hant]
      · rw [hant] at hold
        simpa [hs, hant, halive] using hold
    · by_cases hs : ant.position = q
      · subst hs
        rw [hhere] at hold
        simpa [hij] using hold
      · simpa [hs, hij] using hold

theorem deed (h : AtPosts g) (hant : g.ants[i]? = some ant) (halive : ant.alive = true)
    (hdeed : Deed g i ant g') : AtPosts g' := by
  cases hdeed with
  | idle => exact h
  | mark f =>
    exact h.modifyCell (fun _ _ => by cases ant.colony <;> rfl) fun _ _ => by
      cases ant.colony <;> rfl
  | @pickUp d _ hd _ =>
    have htake : AtPosts (g.modifyCell ant.position fun _ => { d with food := d.food - 1 }) :=
      h.modifyCell (fun _ hc => by rw [Option.some.inj (hd.symm.trans hc)]) fun _ hc => by
        rw [Option.some.inj (hd.symm.trans hc)]
    refine htake.modifyAnt (fun _ => rfl) (fun _ => rfl) (fun _ => rfl) fun a ha hdead => ?_
    obtain rfl : ant = a := Option.some.inj (hant.symm.trans ha)
    rw [halive] at hdead
    cases hdead
  | drop _ _ =>
    have hgain : AtPosts (g.modifyCell ant.position (·.gain 1)) :=
      h.modifyCell (fun _ _ => rfl) fun _ _ => rfl
    exact hgain.modifyAnt (fun _ => rfl) (fun _ => rfl) (fun _ => rfl) fun _ _ _ => rfl
  | face d => exact h.modifyAnt (fun _ => rfl) (fun _ => rfl) (fun _ => rfl) (h.unladen i)
  | step htarget =>
    obtain ⟨-, c, hc, hfree⟩ := stepTarget?_eq_some htarget
    have hmoved := h.relocate hant halive hc hfree
    exact hmoved.modifyAnt (fun _ => rfl) (fun _ => rfl) (fun _ => rfl) (hmoved.unladen i)
  | draw random => exact h

theorem slot (h : AtPosts g) (teams : Teams) (i : Nat) : AtPosts (g.slot teams i).1 := by
  generalize hresult : g.slot teams i = result
  have hslot := slotResult_slot g teams i
  rw [hresult] at hslot
  cases hslot with
  | absent _ => exact h
  | dead _ _ => exact h
  | resting _ _ _ =>
    exact AtPosts.modifyAnt h (fun _ => rfl) (fun _ => rfl) (fun _ => rfl) (h.unladen i)
  | acted next hant halive _ hdeed =>
    have hdone := h.deed hant halive hdeed
    exact AtPosts.modifyAnt hdone (fun _ => rfl) (fun _ => rfl) (fun _ => rfl)
      (hdone.unladen i)
  | faulted hant halive _ _ => exact h.removeAnt hant halive 0

theorem slots (h : AtPosts g) (teams : Teams) (is : List Nat) :
    AtPosts (Game.slots teams is g).1 :=
  slots_keeps (fun _ i hg => hg.slot teams i) is h

theorem kill (h : AtPosts g) {kills : List Kill} (hkills : Doomed g kills) :
    AtPosts (g.kill kills) := by
  unfold Game.kill
  split
  · exact h
  · exact bury_keeps (fun _ _ _ hg hant halive => hg.removeAnt hant halive _) hkills h

theorem playTurn (h : AtPosts g) (teams : Teams) : AtPosts (g.playTurn teams).2 := by
  have hslots : AtPosts (Game.slots teams (List.range g.ants.size) g).1.recount :=
    h.slots teams _
  have hkill := hslots.kill (Enrolled.doomed_victims hslots.toRoster)
  unfold Game.playTurn endAtLimit
  dsimp only
  split <;> exact hkill

end AtPosts

/-! ### The beginning of a game -/

theorem occupant_seat {ants : List Ant}
    (hdistinct : ants.Pairwise fun a b => a.position ≠ b.position) {ground : Ground}
    (hground : ∀ a ∈ ants, ground.contains a.position = true) (p : Position) (i : Nat) :
    ((seat ants ground).cell? p).bind (·.occupant) = some i ↔
      (∃ a ∈ ants, a.position = p ∧ a.id = i) ∨
        ((∀ a ∈ ants, a.position ≠ p) ∧ (ground.cell? p).bind (·.occupant) = some i) := by
  induction ants generalizing ground with
  | nil => simp [seat]
  | cons a ants ih =>
    obtain ⟨hne, hdistinct⟩ := List.pairwise_cons.mp hdistinct
    have hrest (b : Ant) (hb : b ∈ ants) :
        (ground.modify a.position (·.withOccupant (some a.id))).contains b.position = true := by
      rw [Ground.contains_modify]
      exact hground b (List.mem_cons_of_mem a hb)
    rw [seat, ih hdistinct hrest, Ground.cell?_modify]
    by_cases hp : a.position = p
    · subst hp
      obtain ⟨c, hc⟩ := Ground.exists_cell? (hground a List.mem_cons_self)
      have hothers : ∀ b ∈ ants, b.position ≠ a.position := fun b hb => (hne b hb).symm
      have hnone : ¬ ∃ b ∈ ants, b.position = a.position ∧ b.id = i :=
        fun ⟨b, hb, he, _⟩ => hothers b hb he
      simp only [hnone, false_or, if_true, hc, Option.map_some, Option.bind_some,
        Cell.withOccupant, Option.some.injEq, List.mem_cons, exists_eq_or_imp, true_and,
        forall_eq_or_imp, ne_eq, not_true_eq_false, false_and, or_false]
      exact ⟨fun h => h.2, fun h => ⟨hothers, h⟩⟩
    · simp [hp]

/-- The new ants stand row by row, in the order of their numbers. -/
theorem offset_lt_of_newborns {ground : Ground} {i j : Nat} {a b : Ant} (hij : i < j)
    (ha : (newborns ground)[i]? = some a) (hb : (newborns ground)[j]? = some b) :
    ground.offset a.position < ground.offset b.position := by
  obtain ⟨p, c, hp, rfl⟩ := getElem?_newborns.mp ha
  obtain ⟨q, d, hq, rfl⟩ := getElem?_newborns.mp hb
  obtain ⟨hi, hp⟩ := List.getElem?_eq_some_iff.mp hp
  obtain ⟨hj, hq⟩ := List.getElem?_eq_some_iff.mp hq
  have hlt := List.pairwise_iff_getElem.mp ground.pairwise_hills i j hi hj hij
  rw [hp, hq] at hlt
  exact hlt

theorem pairwise_newborns (ground : Ground) :
    (newborns ground).toList.Pairwise fun a b => a.position ≠ b.position := by
  rw [List.pairwise_iff_getElem]
  intro i j hi hj hij he
  have hlt := offset_lt_of_newborns hij (Array.getElem?_eq_getElem hi)
    (Array.getElem?_eq_getElem hj)
  rw [show (newborns ground)[i].position = (newborns ground)[j].position from he] at hlt
  exact Nat.lt_irrefl _ hlt

/-- The cells of a game that begins name its ants, and where none of them stands, whom they named
when the ground was loaded. -/
theorem occupant_begin_iff (g : Game) (teams : Teams) (p : Position) (i : Nat) :
    ((g.begin teams).ground.cell? p).bind (·.occupant) = some i ↔
      (∃ ant, (g.begin teams).ants[i]? = some ant ∧ ant.position = p) ∨
        ((∀ ant ∈ (g.begin teams).ants, ant.position ≠ p) ∧
          (g.home.cell? p).bind (·.occupant) = some i) := by
  have hplace : ∀ a ∈ (newborns g.home).toList, ∃ j, (newborns g.home)[j]? = some a :=
    fun a ha => Array.getElem?_of_mem (Array.mem_toList_iff.mp ha)
  have hfooting : ∀ a ∈ (newborns g.home).toList, g.home.contains a.position = true := by
    intro a ha
    obtain ⟨j, hj⟩ := hplace a ha
    exact contains_of_newborns hj
  refine (occupant_seat (pairwise_newborns g.home) hfooting p i).trans (or_congr ⟨?_, ?_⟩ ?_)
  · rintro ⟨a, ha, rfl, rfl⟩
    obtain ⟨j, hj⟩ := hplace a ha
    obtain ⟨q, colony, -, rfl⟩ := getElem?_newborns.mp hj
    exact ⟨_, hj, rfl⟩
  · rintro ⟨a, ha, rfl⟩
    refine ⟨a, ?_, rfl, (roster_newborns g.home).id_eq i a ha⟩
    exact Array.mem_toList_iff.mpr (Array.mem_of_getElem? ha)
  · exact and_congr_left' (forall_congr' fun a => imp_congr_left Array.mem_toList_iff)

theorem occupant_begin {g : Game} (h : g.home.Unoccupied) (teams : Teams) (p : Position)
    (i : Nat) : ((g.begin teams).ground.cell? p).bind (·.occupant) = some i ↔
      ∃ ant, (g.begin teams).ants[i]? = some ant ∧ ant.position = p := by
  rw [occupant_begin_iff]
  exact or_iff_left fun hold => h.occupant_ne p i hold.2

theorem atPosts_load {ground : Ground} (h : ground.Unoccupied) (config : Config) :
    AtPosts (load ground config) where
  toRoster := enrolled_load ground config
  occupant_iff p i := by
    constructor
    · exact fun hp => (h.occupant_ne p i hp).elim
    · rintro ⟨ant, hant, -⟩
      cases hant

theorem atPosts_begin {g : Game} (h : g.home.Unoccupied) (teams : Teams) :
    AtPosts (g.begin teams) where
  toRoster := enrolled_begin g teams
  occupant_iff p i := by
    refine (occupant_begin h teams p i).trans ⟨?_, ?_⟩
    · rintro ⟨ant, hant, hposition⟩
      obtain ⟨q, colony, -, rfl⟩ := getElem?_newborns.mp hant
      exact ⟨_, hant, rfl, hposition⟩
    · rintro ⟨ant, hant, -, hposition⟩
      exact ⟨ant, hant, hposition⟩

/-- Every course keeps the ants where the cells say. -/
theorem atPosts_of_course {ground : Ground} {config : Config} {g : Game}
    (hground : ground.Unoccupied) (h : Course (load ground config) g) : AtPosts g := by
  refine h.keeps_play (I := AtPosts) (atPosts_load hground config) ?_
    (fun _ teams _ hg => hg.playTurn teams) fun _ _ _ _ hg => hg
  intro g teams hhome
  exact atPosts_begin (by rw [hhome]; exact hground) teams

/-! ### Distances -/

theorem sides_of_course {ground : Ground} {config : Config} {g : Game}
    (h : Course (load ground config) g) :
    g.ground.width = ground.width ∧ g.ground.height = ground.height := by
  refine h.keeps_play (I := fun g => g.ground.width = ground.width ∧
    g.ground.height = ground.height) ⟨rfl, rfl⟩ ?_ ?_ fun _ _ _ _ hsides => hsides
  · intro g teams hhome
    refine seat_keeps (I := fun land => land.width = ground.width ∧ land.height = ground.height)
      (fun land p i hland => ?_) _ ?_
    · rw [Ground.width_modify, Ground.height_modify]
      exact hland
    · rw [hhome]
      exact ⟨rfl, rfl⟩
  · intro g teams _ hsides
    have hframe := Frame.playTurn g teams
    exact ⟨hframe.width.trans hsides.1, hframe.height.trans hsides.2⟩

/-- Between two ants, and within a turn too, the program counts the steps. -/
theorem distance_of_course {ground : Ground} {config : Config} {g : Game}
    (hground : ground.Unoccupied) (hsides : ground.WordSides)
    (h : Course (load ground config) g) (teams : Teams) (is : List Nat) {i j : Nat} {a b : Ant}
    (ha : (slots teams is g).1.ants[i]? = some a) (hb : (slots teams is g).1.ants[j]? = some b) :
    a.position.distance b.position = a.position.stepsApart b.position := by
  have hposts := (atPosts_of_course hground h).slots teams is
  have hframe := Frame.slots teams is g
  obtain ⟨hwidth, hheight⟩ := sides_of_course h
  exact (hsides.of_sides (hframe.width.trans hwidth) (hframe.height.trans hheight)).distance_eq
    (hposts.contains ha) (hposts.contains hb)

end Game

end AntContest

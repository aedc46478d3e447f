import AntContest.Proofs.Game.Posts

/-! # Cells and ants agree

`Accord` says of a ground and a list of ants that the ants stand where the cells say (`Posted`),
that the land is that of the ground as it was loaded, and that rock is bare.

* `SameLand.slot`, `SameLand.removeAnt`: whatever the ants do and however they die, the land stays
  what it is, and rock stays bare, for no ant stands on any.
* `coherent_begin`, `Coherent.playTurn`: a game on a pristine ground begins in accord, and every
  turn keeps it there.
* `consistent_of_course`: hence a game on a built ground is consistent after every course. -/

namespace AntContest

/-- Nothing lies on a cell, and nobody has marked it. -/
def Cell.IsBare (c : Cell) : Prop := c.food = 0 ∧ ∀ colony, c.marks colony = .empty

/-- A ground has the land of another one, and rock on it is bare. -/
structure SameLand (home ground : Ground) : Prop where
  width_eq : ground.width = home.width
  height_eq : ground.height = home.height
  terrain_eq : ∀ p, (ground.cell? p).map (·.terrain) = (home.cell? p).map (·.terrain)
  bareRock : ∀ p c, ground.cell? p = some c → c.terrain = .rock → c.IsBare

theorem SameLand.modify {home ground : Ground} {p : Position} {f : Cell → Cell}
    (h : SameLand home ground)
    (hterrain : ∀ c, ground.cell? p = some c → (f c).terrain = c.terrain)
    (hbare : ∀ c, ground.cell? p = some c → c.terrain = .rock → (f c).IsBare) :
    SameLand home (ground.modify p f) where
  width_eq := (Ground.width_modify _ _ _).trans h.width_eq
  height_eq := (Ground.height_modify _ _ _).trans h.height_eq
  terrain_eq q := by
    rw [← h.terrain_eq q, Ground.cell?_modify]
    split
    · next hpq =>
      subst hpq
      cases hc : ground.cell? p with
      | none => rfl
      | some c => simp [hterrain c hc]
    · rfl
  bareRock q c hc hrock := by
    rw [Ground.cell?_modify] at hc
    split at hc
    · next hpq =>
      subst hpq
      obtain ⟨d, hd, rfl⟩ := Option.map_eq_some_iff.mp hc
      exact hbare d hd (by rw [← hterrain d hd, hrock])
    · exact h.bareRock q c hc hrock

theorem SameLand.withOccupant {home ground : Ground} (h : SameLand home ground) (p : Position)
    (o : Option Nat) : SameLand home (ground.modify p (·.withOccupant o)) :=
  h.modify (fun _ _ => rfl) fun c hc hrock => h.bareRock p c hc hrock

namespace SameLand

open Game

variable {home : Ground} {g g' : Game} {i : Nat} {ant : Ant}

/-- The cell under an ant is no rock, so what lies on it and the marks there may change. -/
theorem modifyUnder {f : Cell → Cell} (h : SameLand home g.ground) (hroster : Enrolled g)
    (hant : g.ants[i]? = some ant)
    (hf : ∀ c, g.ground.cell? ant.position = some c → (f c).terrain = c.terrain) :
    SameLand home (g.modifyCell ant.position f).ground :=
  h.modify hf fun c hc hrock => by
    obtain ⟨d, hd, hpassable⟩ := hroster.footing i ant hant
    rw [Option.some.inj (hd.symm.trans hc), hrock] at hpassable
    cases hpassable

theorem deed (h : SameLand home g.ground) (hroster : Enrolled g)
    (hant : g.ants[i]? = some ant) (hdeed : Deed g i ant g') : SameLand home g'.ground := by
  cases hdeed with
  | idle => exact h
  | mark f => exact h.modifyUnder hroster hant fun _ _ => by cases ant.colony <;> rfl
  | pickUp _ hd _ =>
    exact h.modifyUnder hroster hant fun _ hc => by rw [Option.some.inj (hd.symm.trans hc)]
  | drop _ _ => exact h.modifyUnder hroster hant fun _ _ => rfl
  | face d => exact h
  | step _ => exact (h.withOccupant _ _).withOccupant _ _
  | draw random => exact h

theorem removeAnt (h : SameLand home g.ground) (hroster : Enrolled g)
    (hant : g.ants[i]? = some ant) (bonus : UInt32) :
    SameLand home (g.removeAnt i bonus).ground := by
  unfold Game.removeAnt
  rw [hant]
  exact h.modifyUnder hroster hant fun _ _ => rfl

theorem slot (h : SameLand home g.ground) (hroster : Enrolled g) (teams : Teams) (i : Nat) :
    SameLand home (g.slot teams i).1.ground := by
  generalize hresult : g.slot teams i = result
  have hslot := slotResult_slot g teams i
  rw [hresult] at hslot
  cases hslot with
  | absent _ => exact h
  | dead _ _ => exact h
  | resting _ _ _ => exact h
  | @acted _ g' next hant _ _ hdeed =>
    have hdone : SameLand home g'.ground := h.deed hroster hant hdeed
    exact hdone
  | faulted hant _ _ _ => exact h.removeAnt hroster hant 0

end SameLand

/-- The ants of a list stand on a ground as its cells say, and its land is that of another one. -/
structure Accord (home ground : Ground) (ants : Array Ant) : Prop extends Roster ground ants where
  land : SameLand home ground
  occupant_iff : ∀ (p : Position) (i : Nat), (ground.cell? p).bind (·.occupant) = some i ↔
    ∃ ant, ants[i]? = some ant ∧ ant.alive = true ∧ ant.position = p

namespace Game

/-- The records of a game agree. -/
abbrev Coherent (g : Game) : Prop := Accord g.home g.ground g.ants

namespace Coherent

variable {g : Game} {i : Nat} {ant : Ant} {p : Position} {c : Cell}

theorem atPosts (h : Coherent g) : AtPosts g := ⟨h.toRoster, h.occupant_iff⟩

theorem of_atPosts (h : AtPosts g) (hland : SameLand g.home g.ground) : Coherent g :=
  ⟨h.toRoster, hland, h.occupant_iff⟩

theorem terrain_ne_rock (h : Coherent g) (hant : g.ants[i]? = some ant)
    (hc : g.ground.cell? ant.position = some c) : c.terrain ≠ .rock := by
  obtain ⟨d, hd, hpassable⟩ := h.footing i ant hant
  obtain rfl : d = c := Option.some.inj (hd.symm.trans hc)
  intro hrock
  rw [hrock] at hpassable
  cases hpassable

theorem slot (h : Coherent g) (teams : Teams) (i : Nat) : Coherent (g.slot teams i).1 := by
  refine of_atPosts (h.atPosts.slot teams i) ?_
  rw [(Frame.slot g teams i).home]
  exact h.land.slot h.toRoster teams i

theorem slots (h : Coherent g) (teams : Teams) (is : List Nat) :
    Coherent (Game.slots teams is g).1 :=
  slots_keeps (fun _ i hg => hg.slot teams i) is h

theorem removeAnt (h : Coherent g) (hant : g.ants[i]? = some ant) (halive : ant.alive = true)
    (bonus : UInt32) : Coherent (g.removeAnt i bonus) := by
  refine of_atPosts (h.atPosts.removeAnt hant halive bonus) ?_
  rw [(Frame.removeAnt g i bonus).home]
  exact h.land.removeAnt h.toRoster hant bonus

theorem kill (h : Coherent g) {kills : List Kill} (hkills : Doomed g kills) :
    Coherent (g.kill kills) := by
  unfold Game.kill
  split
  · exact h
  · exact bury_keeps (fun _ _ _ hg hant halive => hg.removeAnt hant halive _) hkills h

theorem endAtLimit (h : Coherent g) : Coherent g.endAtLimit := by
  unfold Game.endAtLimit
  split <;> exact h

/-- Every turn keeps cells and ants in accord. -/
theorem playTurn (h : Coherent g) (teams : Teams) : Coherent (g.playTurn teams).2 := by
  have hslots : Coherent (Game.slots teams (List.range g.ants.size) g).1.recount :=
    h.slots teams _
  exact Coherent.endAtLimit (hslots.kill (Enrolled.doomed_victims hslots.toRoster))

end Coherent

/-! ### The beginning of a game -/

theorem sameLand_of_pristine {ground : Ground} (h : ground.Pristine) : SameLand ground ground where
  width_eq := rfl
  height_eq := rfl
  terrain_eq _ := rfl
  bareRock p c hc hrock := ⟨(h p c hc).bare hrock, (h p c hc).unmarked⟩

theorem coherent_load {ground : Ground} (h : ground.Pristine) (config : Config) :
    Coherent (load ground config) :=
  .of_atPosts (atPosts_load h.unoccupied config) (sameLand_of_pristine h)

theorem coherent_begin {g : Game} (h : g.home.Pristine) (teams : Teams) :
    Coherent (g.begin teams) :=
  .of_atPosts (atPosts_begin h.unoccupied teams)
    (seat_keeps (fun _ _ _ h => h.withOccupant _ _) _ (sameLand_of_pristine h))

/-! ### Whole courses -/

/-- A game on a ground is consistent: the list of its ants, the cells of its ground, and the
ground that it was loaded with fit together. -/
structure Consistent (ground : Ground) (g : Game) : Prop where
  /-- The ants are numbered by their places. -/
  numbered : ∀ (i : Nat) (ant : Ant), g.ants[i]? = some ant → ant.id = i
  /-- A cell names an ant exactly if that ant is alive and stands there. -/
  occupant_iff : ∀ (p : Position) (i : Nat), (g.ground.cell? p).bind (·.occupant) = some i ↔
    ∃ ant, g.ants[i]? = some ant ∧ ant.alive = true ∧ ant.position = p
  /-- No cell names an ant that is not on the list, so looking it up finds one. -/
  known : ∀ (p : Position) (c : Cell) (i : Nat), g.ground.cell? p = some c →
    c.occupant = some i → i < g.ants.size ∧ (g.antOn? c).isSome
  /-- Every cell that a living ant stands on names that ant alone. -/
  apart : ∀ (i j : Nat) (a b : Ant), g.ants[i]? = some a → g.ants[j]? = some b →
    a.alive = true → b.alive = true → a.position = b.position → i = j
  /-- No ant is on rock or off the ground. -/
  footing : ∀ (i : Nat) (ant : Ant), g.ants[i]? = some ant →
    ∃ c, g.ground.cell? ant.position = some c ∧ c.terrain ≠ .rock
  /-- Rock has neither food nor marks. -/
  bareRock : ∀ (p : Position) (c : Cell), g.ground.cell? p = some c → c.terrain = .rock →
    c.IsBare
  /-- No dead ant carries food. -/
  unladen : ∀ (i : Nat) (ant : Ant), g.ants[i]? = some ant → ant.alive = false →
    ant.carrying = false
  width_eq : g.ground.width = ground.width
  height_eq : g.ground.height = ground.height
  /-- Row by row, the cells have the positions and the terrains that they had. -/
  land : (g.ground.entries.map fun (p, c) => (p, c.terrain)) =
    ground.entries.map fun (p, c) => (p, c.terrain)

theorem terrains_eq {home ground : Ground} (h : SameLand home ground) :
    (ground.entries.map fun (p, c) => (p, c.terrain)) =
      home.entries.map fun (p, c) => (p, c.terrain) := by
  have hpositions : ground.positions = home.positions :=
    Ground.positions_eq h.width_eq h.height_eq
  have hlist (g : Ground) : (g.entries.map fun (p, c) => (p, c.terrain)) =
      g.positions.filterMap fun p => ((g.cell? p).map (·.terrain)).map (p, ·) := by
    rw [Ground.entries, List.map_filterMap]
    simp only [Option.map_map]
    rfl
  rw [hlist, hlist, hpositions]
  simp only [h.terrain_eq]

theorem Coherent.consistent {g : Game} (h : Coherent g) : Consistent g.home g where
  numbered := h.id_eq
  occupant_iff := h.occupant_iff
  known p c i hc ho := by
    obtain ⟨ant, hant, -⟩ := (h.occupant_iff p i).mp (by rw [hc]; exact ho)
    obtain ⟨hi, -⟩ := Array.getElem?_eq_some_iff.mp hant
    exact ⟨hi, by simp [antOn?, ho, hi]⟩
  apart _ _ _ _ ha hb hia hjb := h.atPosts.eq_of_position_eq ha hia hb hjb
  footing i ant hant := by
    obtain ⟨c, hc, -⟩ := h.footing i ant hant
    exact ⟨c, hc, h.terrain_ne_rock hant hc⟩
  bareRock := h.land.bareRock
  unladen := h.unladen
  width_eq := h.land.width_eq
  height_eq := h.land.height_eq
  land := terrains_eq h.land

/-- Every course keeps the records in agreement. -/
theorem coherent_of_course {ground : Ground} {config : Config} {g : Game}
    (hground : ground.Pristine) (h : Course (load ground config) g) : Coherent g := by
  refine h.keeps_play (I := Coherent) (coherent_load hground config) ?_
    (fun _ teams _ hg => hg.playTurn teams) fun _ _ _ _ hg => hg
  intro g teams hhome
  exact coherent_begin (by rw [hhome]; exact hground) teams

/-- However a game on a built ground is played, it is consistent: between turns, and also
between the slots of a turn. -/
theorem consistent_of_course {ground : Ground} {config : Config} {g : Game}
    (hground : ground.Built) (h : Course (load ground config) g) :
    Consistent ground g ∧
      ∀ (teams : Teams) (is : List Nat), Consistent ground (slots teams is g).1 := by
  have hg := coherent_of_course hground.pristine h
  obtain rfl : g.home = ground := h.home_eq
  refine ⟨hg.consistent, fun teams is => ?_⟩
  rw [← (Frame.slots teams is g).home]
  exact (hg.slots teams is).consistent

/-- For example after the first turn on a hill inside a wall. -/
theorem consistent_after_first_turn :
    ∃ (ground : Ground) (g : Game), ground.Built ∧ Course (load ground {}) g ∧ g.turn = 1 ∧
      g.aliveCount .red = 1 ∧ Consistent ground g := by
  let side : Side := ⟨3, by decide⟩
  let brain : Brain := ⟨"whirl", #[.turn .left ⟨0, by decide⟩], by decide, by decide⟩
  let ground := (Ground.walled side side).modify ⟨1, 1⟩ fun c => .fresh (.hill .red) c.food
  have hset : (Ground.walled side side).setTerrain? ⟨1, 1⟩ (.hill .red) = some ground := rfl
  have hground : ground.Built := .setTerrain (.walled side side) hset
  have hcourse : Course (load ground {}) ((load ground {}).begin ⟨brain, brain⟩).step.2 :=
    .tail (.single (.begin _)) .step
  exact ⟨ground, _, hground, hcourse, by decide +kernel, by decide +kernel,
    (consistent_of_course hground hcourse).1⟩

end Game

end AntContest

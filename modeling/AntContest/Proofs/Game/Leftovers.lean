import AntContest.Proofs.Game.Restart
import AntContest.Proofs.Game.Violations

/-! # Beginning on a ground that was played on

Beginning sets new ants on the hills and leaves all other cells as they are.  A ground that is
taken out of a game in play brings along whom its cells name, and there the new game is out of
order from its beginning.

* `violations_begin_eq_nil_iff`: nothing is found at the beginning exactly if the ground is cleared,
  that is, if no cell but hills names an ant, and rock is bare.
* `namesBelow_of_course`: a cell that names an ant which does not exist is never made, only brought
  along.
* `begin_on_played_ground`: so on the ground of any game the beginning is in order exactly if all
  its living ants stand on hills, and in any case every ant that is ever named exists.  The second
  does not hold any more if hills are taken away in between (`leftovers_of_two`). -/

namespace AntContest

namespace Ground

/-- No cell but the hills names an ant. -/
def Cleared (ground : Ground) : Prop :=
  ∀ p c, ground.cell? p = some c → (∀ colony, c.terrain ≠ .hill colony) → c.occupant = none

/-- Cells name only ants with numbers below a bound. -/
def NamesBelow (ground : Ground) (n : Nat) : Prop :=
  ∀ p i, (ground.cell? p).bind (·.occupant) = some i → i < n

theorem NamesBelow.modify {ground : Ground} {n : Nat} {p : Position} {f : Cell → Cell}
    (h : ground.NamesBelow n)
    (hf : ∀ c i, ground.cell? p = some c → (f c).occupant = some i → i < n) :
    (ground.modify p f).NamesBelow n := by
  intro q i hi
  rw [cell?_modify] at hi
  split at hi
  · next hpq =>
    subst hpq
    obtain ⟨d, hd, hoccupant⟩ := Option.bind_eq_some_iff.mp hi
    obtain ⟨c, hc, rfl⟩ := Option.map_eq_some_iff.mp hd
    exact hf c i hc hoccupant
  · exact h q i hi

theorem NamesBelow.modify_of_eq {ground : Ground} {n : Nat} {p : Position} {f : Cell → Cell}
    (h : ground.NamesBelow n)
    (hf : ∀ c, ground.cell? p = some c → (f c).occupant = c.occupant ∨ (f c).occupant = none) :
    (ground.modify p f).NamesBelow n := by
  refine h.modify fun c i hc hi => ?_
  rcases hf c hc with hsame | hnone
  · exact h p i (by rw [hc, Option.bind_some, ← hsame, hi])
  · rw [hnone] at hi
    cases hi

end Ground

namespace Game

/-! ### The beginning -/

section Begin

variable {g : Game} {teams : Teams} {p : Position} {c d : Cell} {i : Nat} {ant : Ant}

/-- The cells of a game that begins are those that were loaded, but for whom they name. -/
theorem cell_of_begin (hd : (g.begin teams).ground.cell? p = some d) :
    ∃ c, g.home.cell? p = some c ∧ d = c.withOccupant d.occupant := by
  have hvacated : ((g.begin teams).ground.cell? p).map (·.withOccupant none) =
      (g.home.cell? p).map (·.withOccupant none) := vacated_seat _ p
  rw [hd] at hvacated
  obtain ⟨c, hc, heq⟩ := Option.map_eq_some_iff.mp hvacated.symm
  refine ⟨c, hc, ?_⟩
  calc d = (d.withOccupant none).withOccupant d.occupant := rfl
    _ = (c.withOccupant none).withOccupant d.occupant := by rw [heq]

theorem exists_cell_of_begin (hc : g.home.cell? p = some c) :
    ∃ d, (g.begin teams).ground.cell? p = some d ∧ d = c.withOccupant d.occupant := by
  have hvacated : ((g.begin teams).ground.cell? p).map (·.withOccupant none) =
      (g.home.cell? p).map (·.withOccupant none) := vacated_seat _ p
  rw [hc] at hvacated
  obtain ⟨d, hd, -⟩ := Option.map_eq_some_iff.mp hvacated
  obtain ⟨c', hc', heq⟩ := cell_of_begin hd
  obtain rfl : c = c' := Option.some.inj (hc.symm.trans hc')
  exact ⟨d, hd, heq⟩

theorem alive_of_begin (h : (g.begin teams).ants[i]? = some ant) :
    ant.alive = true ∧ ant.carrying = false := by
  obtain ⟨q, colony, -, rfl⟩ := getElem?_newborns.mp h
  exact ⟨rfl, rfl⟩

theorem exists_position_eq_iff (hc : g.home.cell? p = some c) :
    (∃ ant ∈ (g.begin teams).ants, ant.position = p) ↔ ∃ colony, c.terrain = .hill colony := by
  constructor
  · rintro ⟨ant, hmem, rfl⟩
    obtain ⟨i, hi⟩ := Array.getElem?_of_mem hmem
    obtain ⟨d, colony, hd, hterrain, -⟩ := hill_of_newborns hi
    obtain rfl : c = d := Option.some.inj (hc.symm.trans hd)
    exact ⟨colony, hterrain⟩
  · rintro ⟨colony, hterrain⟩
    obtain ⟨i, hi⟩ := List.getElem?_of_mem (Ground.mem_hills.mpr ⟨c, hc, hterrain⟩)
    have hant := getElem?_newborns.mpr ⟨p, colony, hi, rfl⟩
    exact ⟨_, Array.mem_of_getElem? hant, rfl⟩

/-- On a cleared ground the cells of a game that begins name its ants, and nobody else. -/
theorem occupant_begin_of_cleared (h : g.home.Cleared) (teams : Teams) (p : Position) (i : Nat) :
    ((g.begin teams).ground.cell? p).bind (·.occupant) = some i ↔
      ∃ ant, (g.begin teams).ants[i]? = some ant ∧ ant.position = p := by
  rw [occupant_begin_iff]
  refine or_iff_left ?_
  rintro ⟨hnobody, hold⟩
  obtain ⟨c, hc, hi⟩ := Option.bind_eq_some_iff.mp hold
  have hnone := h p c hc fun colony hterrain => by
    obtain ⟨ant, hmem, hposition⟩ := (exists_position_eq_iff hc).mpr ⟨colony, hterrain⟩
    exact hnobody ant hmem hposition
  rw [hnone] at hi
  cases hi

/-- On no other ground do all cells that name an ant name one that stands there. -/
theorem cleared_of_occupant_begin (teams : Teams)
    (h : ∀ p i, ((g.begin teams).ground.cell? p).bind (·.occupant) = some i →
      ∃ ant, (g.begin teams).ants[i]? = some ant ∧ ant.position = p) : g.home.Cleared := by
  intro p c hc hterrain
  rw [Option.eq_none_iff_forall_not_mem]
  intro i hi
  have hnobody : ∀ ant ∈ (g.begin teams).ants, ant.position ≠ p := fun ant hmem hposition => by
    obtain ⟨colony, hhill⟩ := (exists_position_eq_iff hc).mp ⟨ant, hmem, hposition⟩
    exact hterrain colony hhill
  have hold : (g.home.cell? p).bind (·.occupant) = some i := by
    rw [hc, Option.bind_some, hi]
  obtain ⟨ant, hant, hposition⟩ := h p i ((occupant_begin_iff g teams p i).mpr
    (.inr ⟨hnobody, hold⟩))
  exact hnobody ant (Array.mem_of_getElem? hant) hposition

/-- Cells and ants agree at the beginning exactly if the ground was cleared. -/
theorem atPosts_begin_iff (g : Game) (teams : Teams) :
    AtPosts (g.begin teams) ↔ g.home.Cleared := by
  constructor
  · refine fun h => cleared_of_occupant_begin teams fun p i hi => ?_
    obtain ⟨ant, hant, -, hposition⟩ := (h.occupant_iff p i).mp hi
    exact ⟨ant, hant, hposition⟩
  · refine fun h => ⟨enrolled_begin g teams, fun p i => ?_⟩
    rw [occupant_begin_of_cleared h]
    constructor
    · rintro ⟨ant, hant, hposition⟩
      exact ⟨ant, hant, (alive_of_begin hant).1, hposition⟩
    · rintro ⟨ant, hant, -, hposition⟩
      exact ⟨ant, hant, hposition⟩

theorem violations_begin_eq_nil_iff (g : Game) (teams : Teams) :
    (g.begin teams).violations = [] ↔ g.home.Cleared ∧
      ∀ p c, g.home.cell? p = some c → c.terrain = .rock → c.IsBare := by
  rw [violations_eq_nil_iff_parts]
  simp only [cellViolations_eq_nil_iff, antViolations_eq_nil_iff]
  constructor
  · -- The cells alone tell: a stale name is a breach, as nobody of the new ants stands there.
    rintro ⟨hcells, -, -⟩
    constructor
    · refine cleared_of_occupant_begin teams fun p i hi => ?_
      obtain ⟨d, hd, hoccupant⟩ := Option.bind_eq_some_iff.mp hi
      obtain ⟨ant, hant, -, hposition⟩ := (hcells p d hd).1 i hoccupant
      exact ⟨ant, hant, hposition⟩
    · intro p c hc hrock
      obtain ⟨d, hd, heq⟩ := exists_cell_of_begin hc
      rw [heq] at hd
      exact ((hcells p _ hd).2 hrock).2
  · rintro ⟨hcleared, hbare⟩
    have hposts := (atPosts_begin_iff g teams).mpr hcleared
    refine ⟨fun p d hd => ⟨fun i hi => ?_, fun hrock => ?_⟩, fun ant hmem => ⟨fun _ => ?_, ?_⟩,
      ?_⟩
    · exact (hposts.occupant_iff p i).mp (by rw [hd]; exact hi)
    · obtain ⟨c, hc, heq⟩ := cell_of_begin hd
      rw [heq] at hrock ⊢
      refine ⟨?_, hbare p c hc hrock⟩
      rw [Option.eq_none_iff_forall_not_mem]
      intro i hi
      obtain ⟨ant, hant, -, hposition⟩ := (hposts.occupant_iff p i).mp (by rw [hd]; exact hi)
      obtain ⟨colony, hhill⟩ :=
        (exists_position_eq_iff hc).mp ⟨ant, Array.mem_of_getElem? hant, hposition⟩
      exact nomatch hrock.symm.trans hhill
    · obtain ⟨i, hi⟩ := Array.getElem?_of_mem hmem
      rw [hposts.id_eq i ant hi]
      exact hposts.occupant_eq hi (alive_of_begin hi).1
    · obtain ⟨i, hi⟩ := Array.getElem?_of_mem hmem
      exact fun _ => (alive_of_begin hi).2
    · have hencircled : (g.begin teams).encircled = 0 := rfl
      rw [foodPresent_begin, foodExpected, hencircled, Nat.zero_mul, Nat.add_zero]

end Begin

/-! ### Ants that do not exist -/

section Names

variable {g g' : Game} {i n : Nat} {ant : Ant}

theorem namesBelow_deed (h : g.ground.NamesBelow n) (hi : i < n) (hdeed : Deed g i ant g') :
    g'.ground.NamesBelow n := by
  cases hdeed with
  | idle => exact h
  | mark f => exact h.modify_of_eq fun _ _ => .inl (by cases ant.colony <;> rfl)
  | pickUp _ hc _ =>
    exact h.modify_of_eq fun _ hd => .inl (by rw [Option.some.inj (hc.symm.trans hd)])
  | drop _ _ => exact h.modify_of_eq fun _ _ => .inl rfl
  | face d => exact h
  | step _ =>
    -- The cell that the ant leaves names nobody then, and the other one names the ant itself.
    refine Ground.NamesBelow.modify (h.modify_of_eq fun _ _ => .inr rfl) fun _ j _ hj => ?_
    obtain rfl : i = j := Option.some.inj hj
    exact hi
  | draw random => exact h

theorem namesBelow_removeAnt (h : g.ground.NamesBelow n) (i : Nat) (bonus : UInt32) :
    (g.removeAnt i bonus).ground.NamesBelow n := by
  unfold removeAnt
  split
  · exact h
  · exact h.modify_of_eq fun _ _ => .inr rfl

theorem namesBelow_slot (h : g.ground.NamesBelow g.ants.size) (teams : Teams) (i : Nat) :
    (g.slot teams i).1.ground.NamesBelow g.ants.size := by
  generalize hresult : g.slot teams i = result
  have hslot := slotResult_slot g teams i
  rw [hresult] at hslot
  cases hslot with
  | absent _ => exact h
  | dead _ _ => exact h
  | resting _ _ _ => exact h
  | @acted _ g' next hant _ _ hdeed =>
    obtain ⟨hi, -⟩ := Array.getElem?_eq_some_iff.mp hant
    have hdone : g'.ground.NamesBelow g.ants.size := namesBelow_deed h hi hdeed
    exact hdone
  | faulted _ _ _ _ => exact namesBelow_removeAnt h i 0

theorem namesBelow_slots (h : g.ground.NamesBelow g.ants.size) (teams : Teams) (is : List Nat) :
    (slots teams is g).1.ground.NamesBelow g.ants.size := by
  refine (slots_keeps (I := fun g' => g'.ground.NamesBelow g.ants.size ∧
    g'.ants.size = g.ants.size) ?_ is ⟨h, rfl⟩).1
  rintro g' i ⟨hnames, hsize⟩
  rw [← hsize] at hnames ⊢
  exact ⟨namesBelow_slot hnames teams i, (Frame.slot g' teams i).size⟩

theorem namesBelow_bury (h : g.ground.NamesBelow n) (kills : List Kill) :
    (g.bury kills).ground.NamesBelow n := by
  induction kills generalizing g with
  | nil => exact h
  | cons k kills ih => exact ih (namesBelow_removeAnt h k.ant encirclementBonus)

theorem namesBelow_playTurn (h : g.ground.NamesBelow g.ants.size) (teams : Teams) :
    (g.playTurn teams).2.ground.NamesBelow g.ants.size := by
  have hslots : (slots teams (List.range g.ants.size) g).1.recount.ground.NamesBelow
      g.ants.size := namesBelow_slots h teams _
  have hkill (kills : List Kill) : ((slots teams (List.range g.ants.size) g).1.recount.kill
      kills).ground.NamesBelow g.ants.size := by
    unfold kill
    split
    · exact hslots
    · exact namesBelow_bury hslots kills
  unfold playTurn endAtLimit
  dsimp only
  split <;> exact hkill _

theorem namesBelow_begin (h : g.home.NamesBelow g.home.hills.length) (teams : Teams) :
    (g.begin teams).ground.NamesBelow (g.begin teams).ants.size := by
  intro p i hi
  rcases (occupant_begin_iff g teams p i).mp hi with ⟨ant, hant, -⟩ | ⟨-, hold⟩
  · exact (Array.getElem?_eq_some_iff.mp hant).1
  · rw [size_ants_begin]
    exact h p i hold

/-- If a game begins on a ground that names no ants beyond the number of its hills, then whoever is
named later exists. -/
theorem namesBelow_of_course {ground : Ground} {config : Config} {teams : Teams}
    (hground : ground.NamesBelow ground.hills.length)
    (h : Course ((load ground config).begin teams) g) : g.ground.NamesBelow g.ants.size := by
  refine h.keeps_play (I := fun g => g.ground.NamesBelow g.ants.size)
    (namesBelow_begin hground teams) ?_ ?_ fun _ _ _ _ hg => hg
  · intro g teams hhome
    have hhome : g.home = ground := hhome
    exact namesBelow_begin (by rw [hhome]; exact hground) teams
  · intro g teams _ hg
    rw [(Frame.playTurn g teams).size]
    exact namesBelow_playTurn hg teams

end Names

/-! ### Grounds of games -/

section Played

variable {ground : Ground} {config : Config} {g : Game}

/-- The ground of a game is cleared exactly if all living ants stand on hills. -/
theorem cleared_iff (h : AtPosts g) : g.ground.Cleared ↔
    ∀ ant ∈ g.ants, ant.alive = true →
      ∃ c colony, g.ground.cell? ant.position = some c ∧ c.terrain = .hill colony := by
  constructor
  · intro hcleared ant hmem halive
    obtain ⟨i, hi⟩ := Array.getElem?_of_mem hmem
    obtain ⟨c, hc, hoccupant⟩ := Option.bind_eq_some_iff.mp (h.occupant_eq hi halive)
    by_contra hnone
    have hvacant := hcleared _ c hc fun colony hterrain => hnone ⟨c, colony, hc, hterrain⟩
    rw [hvacant] at hoccupant
    cases hoccupant
  · intro hhills p c hc hterrain
    rw [Option.eq_none_iff_forall_not_mem]
    intro i hi
    obtain ⟨ant, hant, halive, rfl⟩ := (h.occupant_iff p i).mp (by rw [hc]; exact hi)
    obtain ⟨d, colony, hd, hhill⟩ := hhills ant (Array.mem_of_getElem? hant) halive
    obtain rfl : c = d := Option.some.inj (hc.symm.trans hd)
    exact hterrain colony hhill

theorem hills_eq_of_sameLand {home : Ground} (h : SameLand home ground) :
    ground.hills = home.hills := by
  have hland : (ground.entries.map fun entry => (entry.1, entry.2.terrain)) =
      home.entries.map fun entry => (entry.1, entry.2.terrain) := terrains_eq h
  have hlist (g : Ground) : g.hills =
      (g.entries.map fun entry => (entry.1, entry.2.terrain)).filterMap fun entry =>
        entry.2.owner?.map (entry.1, ·) := by
    rw [Ground.hills_eq, List.filterMap_map]
    rfl
  rw [hlist, hlist, hland]

/-- Let a game begin on the ground of another one.  Nothing is found at its beginning exactly if
all living ants of the other one stand on hills.  However it goes on, no cell names an ant that
does not exist. -/
theorem begin_on_played_ground (hground : ground.Built) (h : Course (load ground config) g)
    (config' : Config) (teams : Teams) :
    (((load g.ground config').begin teams).violations = [] ↔
      ∀ ant ∈ g.ants, ant.alive = true →
        ∃ c colony, g.ground.cell? ant.position = some c ∧ c.terrain = .hill colony) ∧
    ∀ g', Course ((load g.ground config').begin teams) g' → g'.ground.NamesBelow g'.ants.size := by
  have hcoherent := coherent_of_course hground.pristine h
  refine ⟨?_, fun g' hg' => namesBelow_of_course ?_ hg'⟩
  · refine (violations_begin_eq_nil_iff _ teams).trans ?_
    rw [← cleared_iff hcoherent.atPosts]
    exact and_iff_left hcoherent.land.bareRock
  · intro p i hi
    obtain ⟨ant, hant, -⟩ := (hcoherent.occupant_iff p i).mp hi
    have hlt := (Array.getElem?_eq_some_iff.mp hant).1
    have hhome : g.home = ground := h.home_eq
    rw [hills_eq_of_sameLand hcoherent.land, hhome]
    exact Nat.lt_of_lt_of_le hlt (size_ants_le_of_course h)

end Played

/-- For example after the first step of two ants.  Their old places name them again, and the cells
that they went to still do; and if the second hill is taken away, then the last of these cells names
an ant that does not exist. -/
theorem leftovers_of_two :
    ∃ (ground altered : Ground) (g : Game) (teams : Teams),
      ground.Built ∧ Course (load ground {}) g ∧
      ((load g.ground {}).begin teams).violations =
        [.elsewhere ⟨2, 1⟩ 0 ⟨1, 1⟩, .elsewhere ⟨4, 1⟩ 1 ⟨3, 1⟩] ∧
      g.ground.setTerrain? ⟨3, 1⟩ .clear = some altered ∧
      ((load altered {}).begin teams).violations =
        [.elsewhere ⟨2, 1⟩ 0 ⟨1, 1⟩, .unknownAnt ⟨4, 1⟩ 1] := by
  let brain : Brain := ⟨"walk", #[.move ⟨0, by decide⟩ ⟨0, by decide⟩], by decide, by decide⟩
  let walled := Ground.walled ⟨6, by decide⟩ ⟨3, by decide⟩
  let hill : Cell → Cell := fun c => .fresh (.hill .red) c.food
  let ground := (walled.modify ⟨1, 1⟩ hill).modify ⟨3, 1⟩ hill
  have hfirst : walled.setTerrain? ⟨1, 1⟩ (.hill .red) = some (walled.modify ⟨1, 1⟩ hill) := rfl
  have hsecond : (walled.modify ⟨1, 1⟩ hill).setTerrain? ⟨3, 1⟩ (.hill .red) = some ground := rfl
  let g := ((load ground {}).begin ⟨brain, brain⟩).step.2
  have hcourse : Course (load ground {}) g := .tail (.single (.begin _)) .step
  let altered := g.ground.modify ⟨3, 1⟩ fun c => .fresh .clear c.food
  have haltered : g.ground.setTerrain? ⟨3, 1⟩ .clear = some altered := by decide +kernel
  exact ⟨ground, altered, g, ⟨brain, brain⟩, .setTerrain (.setTerrain (.walled _ _) hfirst) hsecond,
    hcourse, by decide +kernel, haltered, by decide +kernel⟩

end Game

end AntContest

import AntContest.Cup.Match
import AntContest.Proofs.Game.Coherence
import AntContest.Proofs.Game.FoodBalance
import AntContest.Proofs.Game.Stepping
import AntContest.Proofs.Ground.RowMajor

/-! # A game that begins again

Nothing of what has been played before is left in a game that begins: it depends on the loaded
ground, the parameters and the brains only, and the loaded ground is never changed
(`Course.begin_eq_load`).  `Opening` spells out the state in which a game begins, field by field.

A game that has begun can be played to its end by steps, or under an observer; as long as the
observer asks for nothing, all these ways lead to the same state (`EndsIn`, `Underway.endsIn`).

* `opening_begin`: on a ground without ants a game begins in the opening of that ground.
* `restart_leaves_no_trace`: after any course, a game that begins is the one that begins on the
  ground as it was loaded; starting again with the brains exchanged is beginning with them
  exchanged; and two games in a row, with the brains exchanged in between, have the results of two
  games that are played apart. -/

namespace AntContest

namespace Game

/-! ### The beginning of a game -/

/-- The state in which a game begins on a ground.  An ant is led by the brain of its colony, so
the colony of an ant says whose brain it has. -/
structure Opening (ground : Ground) (config : Config) (teams : Teams) (g : Game) : Prop where
  home_eq : g.home = ground
  config_eq : g.config = config
  teams_eq : g.teams? = some teams
  phase_eq : g.phase = if config.maxTurns = 0 then .finished else .running
  /-- Nobody has asked for a pause or for the end. -/
  flags_eq : g.flags = ⟨false, false⟩
  random_eq : g.random = .ofSeed config.seed
  turn_eq : g.turn = 0
  score_eq : ∀ colony, g.score colony = ground.hillFood colony
  initialFood_eq : g.initialFood = ground.totalFood
  encircled_eq : g.encircled = 0
  faulted_eq : g.faulted = 0
  width_eq : g.ground.width = ground.width
  height_eq : g.ground.height = ground.height
  /-- But for the ants on them, the cells are as they were loaded. -/
  cell_eq : ∀ p, (g.ground.cell? p).map (·.withOccupant none) = ground.cell? p
  occupant_iff : ∀ (p : Position) (i : Nat), (g.ground.cell? p).bind (·.occupant) = some i ↔
    ∃ ant, g.ants[i]? = some ant ∧ ant.position = p
  /-- Every ant is new, and stands on a hill of its colony. -/
  newborn : ∀ (i : Nat) (ant : Ant), g.ants[i]? = some ant → ∃ c colony,
    ground.cell? ant.position = some c ∧ c.terrain = .hill colony ∧
      ant = .newborn colony ant.position i
  /-- On every cell of a hill stands a new ant of its colony, and no other one. -/
  manned : ∀ (p : Position) (c : Cell) (colony : Colony), ground.cell? p = some c →
    c.terrain = .hill colony → ∃ i, g.ants[i]? = some (Ant.newborn colony p i) ∧
      ∀ (j : Nat) (ant : Ant), g.ants[j]? = some ant → ant.position = p → j = i
  /-- The numbers of the ants go row by row. -/
  rowMajor : ∀ (i j : Nat) (a b : Ant), g.ants[i]? = some a → g.ants[j]? = some b → i < j →
    a.position.Precedes b.position

theorem hill_of_newborns {ground : Ground} {i : Nat} {ant : Ant}
    (h : (newborns ground)[i]? = some ant) : ∃ c colony,
      ground.cell? ant.position = some c ∧ c.terrain = .hill colony ∧
        ant = .newborn colony ant.position i := by
  obtain ⟨p, colony, hhill, rfl⟩ := getElem?_newborns.mp h
  obtain ⟨c, hc, hterrain⟩ := Ground.mem_hills.mp (List.mem_of_getElem? hhill)
  exact ⟨c, colony, hc, hterrain, rfl⟩

/-- Setting ants on a ground changes only whom its cells name. -/
theorem vacated_seat {ground : Ground} (ants : List Ant) (p : Position) :
    ((seat ants ground).cell? p).map (·.withOccupant none) =
      (ground.cell? p).map (·.withOccupant none) := by
  refine seat_keeps (I := fun g => (g.cell? p).map (·.withOccupant none) =
    (ground.cell? p).map (·.withOccupant none)) ?_ ants rfl
  intro g q i h
  rw [← h, Ground.cell?_modify]
  split
  · rw [Option.map_map]
    rfl
  · rfl

theorem opening_begin (g : Game) (h : g.home.Unoccupied) (teams : Teams) :
    Opening g.home g.config teams (g.begin teams) where
  home_eq := rfl
  config_eq := rfl
  teams_eq := rfl
  phase_eq := rfl
  flags_eq := rfl
  random_eq := rfl
  turn_eq := rfl
  score_eq colony := by
    rw [(balanced_begin g teams).scored colony]
    refine seat_keeps (I := fun ground => ground.hillFood colony = g.home.hillFood colony) ?_ _ rfl
    intro ground p i hground
    rw [← hground]
    exact Ground.hillFood_modify_of_eq (f := (·.withOccupant (some i))) (fun _ => rfl)
      (fun _ => rfl) colony
  initialFood_eq := (balanced_begin g teams).initialFood_eq
  encircled_eq := rfl
  faulted_eq := rfl
  width_eq := seat_keeps (I := fun ground => ground.width = g.home.width)
    (fun _ _ _ h => (Ground.width_modify _ _ _).trans h) _ rfl
  height_eq := seat_keeps (I := fun ground => ground.height = g.home.height)
    (fun _ _ _ h => (Ground.height_modify _ _ _).trans h) _ rfl
  cell_eq p := by
    refine (vacated_seat _ p).trans ?_
    cases hc : g.home.cell? p with
    | none => rfl
    | some c =>
      have hvacant := h p c hc
      cases c
      exact congrArg some (by simp_all [Cell.withOccupant])
  occupant_iff := occupant_begin h teams
  newborn i ant hant := hill_of_newborns hant
  manned p c colony hc hterrain := by
    obtain ⟨i, hi⟩ := List.getElem?_of_mem (Ground.mem_hills.mpr ⟨c, hc, hterrain⟩)
    have hant := getElem?_newborns.mpr ⟨p, colony, hi, rfl⟩
    refine ⟨i, hant, fun j other hj hposition => ?_⟩
    have hhere := (occupant_begin h teams p i).mpr ⟨_, hant, rfl⟩
    have hthere := (occupant_begin h teams p j).mpr ⟨other, hj, hposition⟩
    exact Option.some.inj (hthere.symm.trans hhere)
  rowMajor i j a b ha hb hij := Ground.precedes_of_offset_lt (contains_of_newborns ha)
    (offset_lt_of_newborns hij ha hb) (contains_of_newborns hb)

/-! ### Playing to the end -/

/-- A game can be played to its end, and in whatever way that is done, with steps or under an
observer who asks for nothing, it ends in the same state. -/
structure EndsIn (g last : Game) : Prop where
  finished : last.phase = .finished
  arrives : ∃ n, g.steps n = last
  stays : ∀ n, (g.steps n).phase = .finished → g.steps n = last
  runs : ∀ {Notes : Type} (observer : Observer Notes) (notes : Notes),
    (∀ notes g report, (observer notes g report).2 = []) →
      ∃ notes', g.run observer notes = .ok (notes', last)

/-- Under an observer who asks for nothing, a run makes one step after the other. -/
theorem runTurns_of_quiet {Notes : Type} {observer : Observer Notes}
    (hquiet : ∀ notes g report, (observer notes g report).2 = []) (n : Nat) (notes : Notes)
    {g : Game} (hpaused : g.flags.paused = false) :
    ∃ notes', runTurns observer n notes g = .ok (notes', stepMany n g) := by
  induction n generalizing notes g with
  | zero => exact ⟨notes, rfl⟩
  | succ n ih =>
    unfold runTurns stepMany
    obtain ⟨-, -, hflags⟩ := settings_step g
    by_cases hphase : g.phase = .running
    · rw [if_neg (by simp [hphase]), if_neg (by simp [hpaused])]
      generalize hresult : g.step = result at hflags
      obtain ⟨outcome, next⟩ := result
      cases outcome with
      | error e => exact ⟨notes, rfl⟩
      | ok report =>
        dsimp only
        rw [hquiet]
        exact ih _ ((congrArg Flags.paused hflags).trans hpaused)
    · obtain ⟨e, hstep⟩ := step_of_not_running hphase
      rw [if_pos hphase, hstep]
      exact ⟨notes, rfl⟩

/-- A game that is underway and not on hold ends where it is played to. -/
theorem Underway.endsIn {limit : Nat} {g : Game} (h : Underway limit g)
    (hpaused : g.flags.paused = false) : EndsIn g g.play where
  finished := h.phase_play
  arrives := ⟨_, h.play_eq_steps.symm⟩
  stays n hfinished := by
    obtain ⟨hn, hturn⟩ := h.steps n
    have hlimit : limit - g.turn ≤ n := by
      rw [hn.phase_eq] at hfinished
      split at hfinished
      · cases hfinished
      · omega
    rw [h.play_eq_steps, h.steps_min, Nat.min_eq_right hlimit]
  runs observer notes hquiet := by
    have hbegun : g.phase ≠ .notStarted := by
      rw [h.phase_eq]
      split <;> simp
    rw [run, if_neg hbegun]
    exact runTurns_of_quiet hquiet _ notes hpaused

theorem endsIn_begin (g : Game) (teams : Teams) :
    EndsIn (g.begin teams) (g.begin teams).play ∧
      (g.begin teams).play.config = g.config ∧ (g.begin teams).play.teams? = some teams ∧
      Course (g.begin teams) (g.begin teams).play := by
  have hunderway := underway_begin g teams
  have hsettings := settings_steps (g.begin teams)
  refine ⟨hunderway.endsIn rfl, ?_⟩
  rw [hunderway.play_eq_steps]
  exact ⟨(hsettings _).1, (hsettings _).2.1, course_steps _ _⟩

/-! ### Beginning again -/

theorem swap_of_teams {g : Game} {teams : Teams} (h : g.teams? = some teams) :
    g.swap = .ok (g.begin teams.swap) := by
  unfold swap
  rw [h]

theorem result_of_play {ground : Ground} {config : Config} {g : Game}
    (h : Course (load ground config) g) (teams : Teams) :
    GameResult.ofGame (g.begin teams).play = playGame ground teams g.config := by
  rw [h.begin_eq_load, playGame]

/-- Two games in a row, with the brains exchanged in between, are two games apart. -/
theorem two_games {ground : Ground} {config : Config} {g : Game}
    (h : Course (load ground config) g) (a b : Brain) :
    ∃ first second last, EndsIn (g.begin ⟨a, b⟩) first ∧ first.swap = .ok second ∧
      EndsIn second last ∧ GameResult.ofGame first = playGame ground ⟨a, b⟩ g.config ∧
      GameResult.ofGame last = playGame ground ⟨b, a⟩ g.config := by
  obtain ⟨hends, hconfig, hteams, hplay⟩ := endsIn_begin g ⟨a, b⟩
  have hfirst : Course (load ground config) (g.begin ⟨a, b⟩).play :=
    (h.tail (.begin _)).trans hplay
  refine ⟨_, _, _, hends, swap_of_teams hteams, (endsIn_begin _ _).1, result_of_play h _, ?_⟩
  rw [result_of_play hfirst, hconfig]
  rfl

/-- Whatever has been done with a game, beginning it leaves no trace of that: it is as if the
ground had just been loaded with the current parameters.  Starting again with the brains exchanged
is the same with the current brains, and is refused if there are none. -/
theorem restart_leaves_no_trace {ground : Ground} {config : Config} {g : Game}
    (hground : ground.Unoccupied) (h : Course (load ground config) g) :
    (∀ teams, g.begin teams = (load ground g.config).begin teams ∧
      Opening ground g.config teams (g.begin teams)) ∧
    (∀ teams, g.teams? = some teams → g.swap = .ok (g.begin ⟨teams.black, teams.red⟩)) ∧
    (g.teams? = none → g.swap = .error .notStarted) ∧
    ∀ a b, ∃ first second last, EndsIn (g.begin ⟨a, b⟩) first ∧ first.swap = .ok second ∧
      EndsIn second last ∧ GameResult.ofGame first = playGame ground ⟨a, b⟩ g.config ∧
      GameResult.ofGame last = playGame ground ⟨b, a⟩ g.config := by
  obtain rfl : g.home = ground := h.home_eq
  refine ⟨fun teams => ⟨h.begin_eq_load teams, opening_begin g hground teams⟩,
    fun teams hteams => swap_of_teams hteams, fun hnone => ?_, two_games h⟩
  unfold swap
  rw [hnone]

/-- For example after an ant has picked up food on its hill and somebody has asked for the end: the
food is back on the hill, a new ant is there, and nobody asks for anything. -/
theorem restart_after_stop :
    ∃ (ground : Ground) (g : Game) (teams : Teams), ground.Unoccupied ∧
      Course (load ground {}) g ∧ g.turn = 1 ∧ g.flags.stopped = true ∧ g.score .red = 1 ∧
      g.carriedFood = 1 ∧ (g.begin teams).turn = 0 ∧ (g.begin teams).flags.stopped = false ∧
      (g.begin teams).score .red = 2 ∧ (g.begin teams).ants = #[.newborn .red ⟨1, 1⟩ 0] ∧
      Opening ground g.config teams (g.begin teams) ∧
      g.begin teams = (load ground g.config).begin teams ∧
      g.swap = .ok (g.begin ⟨teams.black, teams.red⟩) := by
  let side : Side := ⟨3, by decide⟩
  let first : StateIndex := ⟨0, by decide⟩
  let gatherer : Brain := ⟨"gather", #[.pickUp first first], by decide, by decide⟩
  let idler : Brain := ⟨"whirl", #[.turn .left first], by decide, by decide⟩
  let ground := (Ground.walled side side).modify ⟨1, 1⟩ fun _ => .fresh (.hill .red) 2
  let g := ((load ground {}).begin ⟨gatherer, idler⟩).step.2.request .stop
  have hground : ground.Unoccupied := by
    intro p c hc
    rw [Ground.cell?_modify] at hc
    split at hc
    · obtain ⟨d, -, rfl⟩ := Option.map_eq_some_iff.mp hc
      rfl
    · rw [Ground.cell?_eq_some_of_tabulate hc]
      rfl
  have hcourse : Course (load ground {}) g :=
    ((Relation.ReflTransGen.single (.begin _)).tail .step).tail (.request .stop)
  obtain ⟨hbegin, hswap, -, -⟩ := restart_leaves_no_trace hground hcourse
  exact ⟨ground, g, ⟨gatherer, idler⟩, hground, hcourse, by decide +kernel, by decide +kernel,
    by decide +kernel, by decide +kernel, rfl, rfl, by decide +kernel, by decide +kernel,
    (hbegin _).2, (hbegin _).1, hswap _ (by decide +kernel)⟩

end Game

end AntContest

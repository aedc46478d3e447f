import AntContest.Proofs.Cup.MatchRecord
import AntContest.Proofs.Game.Reconfiguring

/-! # Without flips the seed is not seen

The seed of a game makes its random source, and nothing but a flip draws from that.  So with brains
that never flip (`Brain.Flipless`) a game goes along with another random source and another seed
(`faithful_reseeding`), and it leaves its own source as it is (`random_steps`).  The games of two
seeds begin alike but for these (`begin_of_seed`), and stay so in every step (`steps_of_seed`).

A match takes another seed for every round.  Without flips all its rounds are the same, but for the
seed that each result names (`games_playMatch`). -/

namespace AntContest

namespace Game

/-- The game with other parameters and another random source. -/
def reseed (config : Config) (random : Random) (g : Game) : Game := { g with config, random }

/-! ### Steps with another random source -/

section Reseed

variable (config : Config) (random : Random)

/-- Other parameters and another random source as another game for every game. -/
def reseeding : Recast := ⟨reseed config random, id, id⟩

/-- Without flips a turn goes along with another random source, and with parameters that are
alike. -/
theorem faithful_reseeding :
    (reseeding config random).Faithful fun c teams => c.Alike config ∧ teams.Flipless where
  toTracks := (tracks_rebasing (fun _ => config) id id fun _ => random).mono
    fun _ _ h => ⟨h.1.rest_eq.symm, .inr h.2⟩
  teams g := (congrFun Option.map_id g.teams?).symm
  phase _ := rfl
  flags _ := rfl
  withPhase _ _ := rfl
  limit _ _ h := h.1.maxTurns_eq.symm

variable {config random} {g : Game} {teams : Teams}

theorem step_reseed (halike : g.config.Alike config) (hteams : g.teams? = some teams)
    (h : teams.Flipless) :
    (g.reseed config random).step = (g.step.1, g.step.2.reseed config random) := by
  have hstep := (faithful_reseeding config random).step (g := g) fun _ hsome =>
    ⟨halike, Option.some.inj (hteams.symm.trans hsome) ▸ h⟩
  have hreport : g.step.1.map (reseeding config random).report = g.step.1 :=
    map_report_rebasing (fun _ => config) id id (fun _ => random) g.step.1
  rw [hreport] at hstep
  exact hstep

theorem steps_reseed (halike : g.config.Alike config) (hteams : g.teams? = some teams)
    (h : teams.Flipless) (n : Nat) :
    (g.reseed config random).steps n = (g.steps n).reseed config random :=
  (faithful_reseeding config random).steps
    (fun _ hsome => ⟨halike, Option.some.inj (hteams.symm.trans hsome) ▸ h⟩) n

/-- Without flips the random source stays as it is: the game goes along with its own. -/
theorem random_steps (hteams : g.teams? = some teams) (h : teams.Flipless) (n : Nat) :
    (g.steps n).random = g.random := by
  have hown : g.steps n = (g.steps n).reseed g.config g.random :=
    steps_reseed (g := g) ⟨rfl, rfl⟩ hteams h n
  rw [hown]
  rfl

end Reseed

/-! ### Games of two seeds -/

section Seed

variable (ground : Ground) {teams : Teams} (config : Config) (seed : Int64)

theorem begin_of_seed (teams : Teams) :
    (load ground { config with seed }).begin teams =
      ((load ground config).begin teams).reseed { config with seed } (.ofSeed seed) := rfl

theorem random_begin (ground : Ground) (config : Config) (teams : Teams) :
    ((load ground config).begin teams).random = .ofSeed config.seed := rfl

theorem alike_of_seed : config.Alike { config with seed } := ⟨rfl, rfl⟩

theorem steps_of_seed (h : teams.Flipless) (n : Nat) :
    ((load ground { config with seed }).begin teams).steps n =
      (((load ground config).begin teams).steps n).reseed { config with seed }
        (.ofSeed seed) := by
  rw [begin_of_seed, steps_reseed (alike_of_seed config seed) rfl h]

theorem report_of_seed (h : teams.Flipless) (n : Nat) :
    (((load ground { config with seed }).begin teams).steps n).step.1 =
      (((load ground config).begin teams).steps n).step.1 := by
  obtain ⟨hconfig, hteams, -⟩ := settings_steps ((load ground config).begin teams) n
  have halike : (((load ground config).begin teams).steps n).config.Alike { config with seed } :=
    hconfig ▸ alike_of_seed config seed
  rw [steps_of_seed ground config seed h, step_reseed halike hteams h]

end Seed

end Game

/-! ### Results of two seeds -/

theorem GameResult.ofGame_reseed (config : Config) (random : Random) (g : Game) :
    ofGame (g.reseed config random) = { ofGame g with seed := config.seed } := rfl

section Results

variable (ground : Ground) (config : Config)

theorem playGame_of_seed {teams : Teams} (h : teams.Flipless) (seed : Int64) :
    playGame ground teams { config with seed } =
      { playGame ground teams config with seed } := by
  have hplay : ((Game.load ground config).begin teams).play =
      ((Game.load ground config).begin teams).steps config.maxTurns.toNat :=
    (Game.underway_begin (Game.load ground config) teams).play_eq_steps
  have hplay' : ((Game.load ground { config with seed }).begin teams).play =
      ((Game.load ground { config with seed }).begin teams).steps config.maxTurns.toNat :=
    (Game.underway_begin (Game.load ground { config with seed }) teams).play_eq_steps
  unfold playGame
  rw [hplay, hplay', Game.steps_of_seed ground config seed h]
  exact GameResult.ofGame_reseed _ _ _

/-- The games of a match without flips: all rounds are those of the first seed, but for the seed. -/
theorem games_playMatch {first second : Brain} (hfirst : first.Flipless)
    (hsecond : second.Flipless) (maxRounds : UInt32) :
    ∃ k, 1 ≤ k ∧ (playMatch ground first second { game := config, maxRounds }).games =
      (List.range k).flatMap fun round =>
        [{ playGame ground ⟨first, second⟩ config with
            seed := config.seed + Int64.ofNat round },
          { playGame ground ⟨second, first⟩ config with
            seed := config.seed + Int64.ofNat round }] := by
  obtain ⟨k, hpos, -, hresult, -, -⟩ :=
    exists_playMatch_eq ground first second { game := config, maxRounds }
  refine ⟨k, hpos, ?_⟩
  rw [hresult, games_result]
  unfold gamesOfRounds
  rw [List.map_flatMap]
  refine List.flatMap_congr fun round _ => ?_
  rw [← playGame_of_seed ground config (Teams.flipless_mk hfirst hsecond),
    ← playGame_of_seed ground config (Teams.flipless_mk hsecond hfirst)]
  rfl

end Results

/-- The seed matters to flips only.  Without flips, the games of two seeds are in every turn the
same but for the parameters and the random source, which both keep from their beginning, and they
report the same; their results name the seed and are the same otherwise; and in a match every round
has the results of the first, but for the seed. -/
theorem seed_matters_to_flips_only (ground : Ground) {teams : Teams} (h : teams.Flipless)
    (config : Config) (seed : Int64) :
    (∀ n,
      (((Game.load ground { config with seed }).begin teams).steps n =
        { ((Game.load ground config).begin teams).steps n with
          config := { config with seed }
          random := ((Game.load ground { config with seed }).begin teams).random }) ∧
      (((Game.load ground config).begin teams).steps n).random =
        ((Game.load ground config).begin teams).random ∧
      (((Game.load ground { config with seed }).begin teams).steps n).step.1 =
        (((Game.load ground config).begin teams).steps n).step.1) ∧
    playGame ground teams { config with seed } =
      { playGame ground teams config with seed } ∧
    ∀ maxRounds, ∃ k, 1 ≤ k ∧
      (playMatch ground teams.red teams.black { game := config, maxRounds }).games =
        (List.range k).flatMap fun round =>
          [{ playGame ground teams config with seed := config.seed + Int64.ofNat round },
            { playGame ground teams.swap config with
              seed := config.seed + Int64.ofNat round }] := by
  refine ⟨fun n => ⟨?_, Game.random_steps rfl h n, Game.report_of_seed ground config seed h n⟩,
    playGame_of_seed ground config h seed, games_playMatch ground config (h .red) (h .black)⟩
  rw [Game.random_begin]
  exact Game.steps_of_seed ground config seed h n

/-- For example the seeds 1 and 12345, and two brains one of which walks. -/
theorem seed_matters_to_no_walk :
    ∃ (ground : Ground) (teams : Teams), teams.Flipless ∧
      (∀ n, (((Game.load ground { seed := 1 }).begin teams).steps n).ants =
        (((Game.load ground {}).begin teams).steps n).ants) ∧
      playGame ground teams { seed := 1 } = { playGame ground teams {} with seed := 1 } := by
  let first : StateIndex := ⟨0, by decide⟩
  let walk : Brain := ⟨"walk", #[.move first first], by decide, by decide⟩
  let whirl : Brain := ⟨"whirl", #[.turn .left first], by decide, by decide⟩
  let ground := (Ground.walled ⟨4, by decide⟩ ⟨3, by decide⟩).modify ⟨1, 1⟩
    fun c => .fresh (.hill .red) c.food
  have hflipless : (Teams.mk walk whirl).Flipless :=
    Teams.flipless_mk (by decide) (by decide)
  obtain ⟨hgames, hresult, -⟩ := seed_matters_to_flips_only ground hflipless {} 1
  refine ⟨ground, ⟨walk, whirl⟩, hflipless, fun n => ?_, hresult⟩
  rw [(hgames n).1]

/-- A single flip tells these two seeds apart. -/
example :
    ∃ (ground : Ground) (teams : Teams),
      ((Game.load ground { seed := 1 }).begin teams).step.2.ants ≠
        ((Game.load ground {}).begin teams).step.2.ants := by
  let first : StateIndex := ⟨0, by decide⟩
  let second : StateIndex := ⟨1, by decide⟩
  let flip : Brain :=
    ⟨"flip", #[.flip ⟨2, by decide⟩ first second, .turn .left first], by decide, by decide⟩
  let ground := (Ground.walled ⟨3, by decide⟩ ⟨3, by decide⟩).modify ⟨1, 1⟩
    fun c => .fresh (.hill .red) c.food
  exact ⟨ground, ⟨flip, flip⟩, by decide +kernel⟩

end AntContest

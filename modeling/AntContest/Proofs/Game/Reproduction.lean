import AntContest.Proofs.Game.Lifecycle
import AntContest.Proofs.Game.Settings

/-! # Playing a game again

A game is determined by its ground, its brains, the seed that it began with and the rest after a
step: who starts afresh with these and plays as many turns has the same game, but for the settings.
This holds however the game has been played, as long as nobody changes the rest
(`reproduction_of_course`).

The result of a game names the seed of its parameters.  That is the seed it began with only as long
as nobody has changed it since: `seed_changed_in_play` is a game whose result names another seed,
and with that seed it cannot be played again.

* `Replay` is what is kept: the game is, but for the settings, a fresh game of as many steps.
* `samePlay_begin`: two games begin with the same play if they have the seed in common. -/

namespace AntContest

namespace Game

theorem samePlay_begin {g g' : Game} (hhome : g.home = g'.home)
    (hseed : g.config.seed = g'.config.seed) (teams : Teams) :
    SamePlay (g.begin teams) (g'.begin teams) := by
  unfold begin SamePlay
  rw [hhome, hseed]
  rfl

/-- But for the settings, a game is the fresh game with a seed and a rest after as many steps. -/
structure Replay (ground : Ground) (teams : Teams) (seed : Int64) (rest : UInt32) (g : Game) :
    Prop where
  teams_eq : g.teams? = some teams
  rest_eq : g.config.restAfterMove = rest
  same : ∀ config : Config, config.seed = seed → config.restAfterMove = rest →
    g.turn ≤ config.maxTurns.toNat →
      SamePlay (((load ground config).begin teams).steps g.turn) g

namespace Replay

variable {ground : Ground} {teams : Teams} {seed : Int64} {rest : UInt32} {g g' : Game}

theorem begin (hhome : g.home = ground) (teams : Teams) :
    Replay ground teams g.config.seed g.config.restAfterMove (g.begin teams) where
  teams_eq := rfl
  rest_eq := rfl
  same _ hseed _ _ := samePlay_begin hhome.symm hseed teams

theorem of_samePlay (h : Replay ground teams seed rest g) (hsame : SamePlay g g')
    (hrest : g'.config.restAfterMove = g.config.restAfterMove) :
    Replay ground teams seed rest g' where
  teams_eq := hsame.teams.trans h.teams_eq
  rest_eq := hrest.trans h.rest_eq
  same config hseed hrest hle := by
    rw [hsame.turn] at hle ⊢
    exact (h.same config hseed hrest hle).trans hsame

/-- The fresh game goes along with a turn. -/
theorem playTurn (h : Replay ground teams seed rest g) :
    Replay ground teams seed rest (g.playTurn teams).2 := by
  have hframe := Frame.playTurn g teams
  refine ⟨hframe.teams.trans h.teams_eq, ?_, fun config hseed hrest hle => ?_⟩
  · rw [hframe.config]
    exact h.rest_eq
  · have hturn : (g.playTurn teams).2.turn = g.turn + 1 := hframe.turn
    rw [hturn] at hle ⊢
    have hsame := h.same config hseed hrest (by omega)
    obtain ⟨hunderway, -⟩ := (underway_begin (load ground config) teams).steps g.turn
    obtain ⟨hconfig, hteams, -⟩ := settings_steps ((load ground config).begin teams) g.turn
    rw [steps_succ]
    generalize ((load ground config).begin teams).steps g.turn = fresh at *
    have hrunning : fresh.phase = .running := by
      rw [hunderway.phase_eq, if_pos]
      rw [← hsame.turn]
      exact hle
    have hrests : fresh.config.restAfterMove = g.config.restAfterMove := by
      rw [hconfig, h.rest_eq]
      exact hrest
    rw [step_of_running hrunning hteams hunderway.unasked]
    exact (hsame.playTurn hrests teams).2

theorem step (h : Replay ground teams seed rest g) : Replay ground teams seed rest g.step.2 := by
  have hstep := stepResult_step g
  generalize g.step = result at hstep
  cases hstep with
  | refused e _ => exact h
  | stopped _ _ => exact h.of_samePlay rfl rfl
  | played _ hteams _ =>
    obtain rfl := Option.some.inj (h.teams_eq.symm.trans hteams)
    exact h.playTurn

end Replay

/-! ### Since the beginning -/

/-- An operation that leaves the rest after a step as it is. -/
def Steady (Op : Game → Game → Prop) (g g' : Game) : Prop :=
  Op g g' ∧ g'.config.restAfterMove = g.config.restAfterMove

theorem Replay.continuation {ground : Ground} {teams : Teams} {seed : Int64} {rest : UInt32}
    {g g' : Game} (h : Replay ground teams seed rest g) (hop : Steady Continuation g g') :
    Replay ground teams seed rest g' := by
  obtain ⟨hop, hrest⟩ := hop
  cases hop with
  | step => exact h.step
  | run hrun =>
    exact run_keeps (fun _ h => h.step)
      (fun _ r h => h.of_samePlay (samePlay_request _ r) rfl) hrun h
  | setConfig config => exact h.of_samePlay (samePlay_setConfig g config) hrest
  | request r => exact h.of_samePlay (samePlay_request g r) hrest

/-- On a ground a game has begun as `start`.  It has been played since and has not begun again, and
the rest after a step has always been the same. -/
def LastBeginning (ground : Ground) (config₀ : Config) (start g : Game) : Prop :=
  ∃ before, Relation.ReflTransGen (Steady Operation) (load ground config₀) before ∧
    Beginning before start ∧ Relation.ReflTransGen (Steady Continuation) start g

section

variable {ground : Ground} {config₀ : Config} {start g : Game}

theorem course_of_steady {g g' : Game} (h : Relation.ReflTransGen (Steady Operation) g g') :
    Course g g' :=
  Relation.ReflTransGen.mono (fun _ _ hop => hop.1) _ _ h

theorem exists_lastBeginning (h : Relation.ReflTransGen (Steady Operation) (load ground config₀) g)
    (hbegun : g.phase ≠ .notStarted) : ∃ start, LastBeginning ground config₀ start g := by
  induction h with
  | refl => exact (hbegun rfl).elim
  | @tail before g hcourse hop ih =>
    rcases hop.1.beginning_or_continuation with hbeginning | hcontinuation
    · exact ⟨g, before, hcourse, hbeginning, .refl⟩
    · obtain ⟨start, first, hfirst, hbeginning, hsince⟩ :=
        ih fun hphase => hbegun (hcontinuation.of_notStarted hphase)
      exact ⟨start, first, hfirst, hbeginning, hsince.tail ⟨hcontinuation, hop.2⟩⟩

/-- Since its last beginning a game goes along with the fresh game of the seed it had then. -/
theorem LastBeginning.replay (h : LastBeginning ground config₀ start g) :
    ∃ teams, start.teams? = some teams ∧
      Replay ground teams start.config.seed start.config.restAfterMove g := by
  obtain ⟨before, hcourse, hbeginning, hsince⟩ := h
  have hhome : before.home = ground := (course_of_steady hcourse).home_eq
  have hstart : ∃ teams, start = before.begin teams := by
    cases hbeginning with
    | begin teams => exact ⟨teams, rfl⟩
    | swap hswap =>
      unfold swap at hswap
      split at hswap <;> cases hswap
      exact ⟨_, rfl⟩
  obtain ⟨teams, rfl⟩ := hstart
  refine ⟨teams, rfl, ?_⟩
  induction hsince with
  | refl => exact .begin hhome teams
  | tail _ hop ih => exact ih.continuation hop

end

/-- Whatever has been done with a game, short of changing the rest after a step, it can be played
again from the seed that it began with: a fresh game on the ground with its brains, that seed and
its rest has, after as many steps and under any limit that leaves room for them, the same play, and
the same result but for the seed that the result names.  The results are the same if the seed has
not been changed since the beginning. -/
theorem reproduction_of_course {ground : Ground} {config₀ : Config} {g : Game}
    (h : Relation.ReflTransGen (Steady Operation) (load ground config₀) g)
    (hbegun : g.phase ≠ .notStarted) :
    (∃ start, LastBeginning ground config₀ start g) ∧
    ∀ start, LastBeginning ground config₀ start g → ∃ teams, start.teams? = some teams ∧
      ∀ config : Config, config.seed = start.config.seed →
        config.restAfterMove = g.config.restAfterMove → g.turn ≤ config.maxTurns.toNat →
        let fresh := ((load ground config).begin teams).steps g.turn
        SamePlay fresh g ∧
        GameResult.ofGame fresh = { GameResult.ofGame g with seed := start.config.seed } ∧
        (g.config.seed = start.config.seed → GameResult.ofGame fresh = GameResult.ofGame g) := by
  refine ⟨exists_lastBeginning h hbegun, fun start hlast => ?_⟩
  obtain ⟨teams, hteams, hreplay⟩ := hlast.replay
  refine ⟨teams, hteams, fun config hseed hrest hle => ?_⟩
  have hsame := hreplay.same config hseed (hrest.trans hreplay.rest_eq) hle
  have hresult := GameResult.ofGame_of_samePlay hsame.symm
  rw [config_steps, show ((load ground config).begin teams).config = config from rfl, hseed]
    at hresult
  refine ⟨hsame, hresult, fun hunchanged => hresult.trans ?_⟩
  rw [← hunchanged]
  rfl

/-- For example a game that has been given another limit and is then put on hold: it is the fresh
game with the least limit that leaves room for its turn. -/
theorem reproduction_after_new_limit :
    ∃ (ground : Ground) (teams : Teams) (start g : Game),
      Relation.ReflTransGen (Steady Operation) (load ground {}) g ∧ g.phase ≠ .notStarted ∧
      LastBeginning ground {} start g ∧ start.teams? = some teams ∧ g.config.maxTurns = 9 ∧
      g.flags.paused = true ∧ g.turn = 1 ∧
      SamePlay (((load ground { maxTurns := 1 }).begin teams).steps g.turn) g ∧
      GameResult.ofGame (((load ground { maxTurns := 1 }).begin teams).steps g.turn) =
        GameResult.ofGame g := by
  let brain : Brain := ⟨"whirl", #[.turn .left ⟨0, by decide⟩], by decide, by decide⟩
  let ground := (Ground.walled ⟨3, by decide⟩ ⟨3, by decide⟩).modify ⟨1, 1⟩
    fun c => .fresh (.hill .red) c.food
  let start := (load ground {}).begin ⟨brain, brain⟩
  let g := (start.step.2.setConfig { maxTurns := 9 }).request .pause
  have hcourse : Relation.ReflTransGen (Steady Operation) (load ground {}) g :=
    (((Relation.ReflTransGen.single ⟨.begin _, by decide +kernel⟩).tail
      ⟨.step, by decide +kernel⟩).tail ⟨.setConfig _, by decide +kernel⟩).tail
      ⟨.request .pause, by decide +kernel⟩
  have hsince : Relation.ReflTransGen (Steady Continuation) start g :=
    ((Relation.ReflTransGen.single ⟨.step, by decide +kernel⟩).tail
      ⟨.setConfig _, by decide +kernel⟩).tail ⟨.request .pause, by decide +kernel⟩
  have hlast : LastBeginning ground {} start g := ⟨_, .refl, .begin _, hsince⟩
  have hbegun : g.phase ≠ .notStarted := by decide +kernel
  obtain ⟨teams, hteams, hfresh⟩ := (reproduction_of_course hcourse hbegun).2 start hlast
  obtain ⟨hsame, -, hresult⟩ := hfresh { maxTurns := 1 } (by decide +kernel) (by decide +kernel)
    (by decide +kernel)
  exact ⟨ground, teams, start, g, hcourse, hbegun, hlast, hteams, by decide +kernel,
    by decide +kernel, by decide +kernel, hsame, hresult (by decide +kernel)⟩

/-- The seed can be changed in play, and then the result names one that the game was not played
with: a fresh game with that seed has other ants and other random numbers to come. -/
theorem seed_changed_in_play :
    ∃ (ground : Ground) (teams : Teams) (start g : Game), LastBeginning ground {} start g ∧
      start.teams? = some teams ∧ g.phase = .running ∧
      (GameResult.ofGame g).seed ≠ start.config.seed ∧
      ∃ config : Config, config.seed = (GameResult.ofGame g).seed ∧
        config.restAfterMove = g.config.restAfterMove ∧ g.turn ≤ config.maxTurns.toNat ∧
        (((load ground config).begin teams).steps g.turn).ants ≠ g.ants ∧
        (((load ground config).begin teams).steps g.turn).random ≠ g.random := by
  let brain : Brain := ⟨"toss", #[.flip ⟨2, by decide⟩ ⟨0, by decide⟩ ⟨1, by decide⟩], by decide,
    by decide⟩
  let ground := (Ground.walled ⟨3, by decide⟩ ⟨3, by decide⟩).modify ⟨1, 1⟩
    fun c => .fresh (.hill .red) c.food
  let start := (load ground {}).begin ⟨brain, brain⟩
  let g := start.step.2.setConfig { seed := 1 }
  have hsince : Relation.ReflTransGen (Steady Continuation) start g :=
    (Relation.ReflTransGen.single ⟨.step, by decide +kernel⟩).tail
      ⟨.setConfig _, by decide +kernel⟩
  refine ⟨ground, ⟨brain, brain⟩, start, g, ⟨_, .refl, .begin _, hsince⟩, rfl, by decide +kernel,
    by decide +kernel, { seed := 1 }, by decide +kernel, by decide +kernel, by decide +kernel,
    by decide +kernel, by decide +kernel⟩

end Game

end AntContest

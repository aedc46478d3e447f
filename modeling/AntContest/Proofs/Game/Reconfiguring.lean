import AntContest.Proofs.Game.Settings

/-! # Parameters changed in play

Of its parameters a turn reads the rest after a step and the limit of turns, and both as they are
at that moment.  The seed was used when the game began and is used again when the next one does.

* `Config.Alike` holds of parameters that a turn cannot tell apart; `faithful_reconfiguring` says
  that it cannot, and so no step can (`step_withConfig`).
* `setConfig_in_play`: hence what becomes of a game whose parameters are changed while it is in
  play.  `rest_changes_in_play` is a game in which the new rest is seen in the next turn. -/

namespace AntContest

/-- Parameters that agree in all that a turn reads: the limit of turns and the rest after a
step. -/
structure Config.Alike (c d : Config) : Prop where
  maxTurns_eq : c.maxTurns = d.maxTurns
  rest_eq : c.restAfterMove = d.restAfterMove

namespace Game

/-- The game with other parameters; the limit of turns is not looked at. -/
def withConfig (g : Game) (config : Config) : Game := { g with config }

/-! ### Steps under other parameters -/

/-- Other parameters as another game for every game. -/
def reconfiguring (config : Config) : Recast := ⟨(·.withConfig config), id, id⟩

theorem faithful_reconfiguring (config : Config) :
    (reconfiguring config).Faithful fun c _ => c.Alike config where
  toTracks := (tracks_resettling config id id).mono fun _ _ h => h.rest_eq
  teams g := (congrFun Option.map_id g.teams?).symm
  phase _ := rfl
  flags _ := rfl
  withPhase _ _ := rfl
  limit _ _ h := h.maxTurns_eq.symm

/-- No step can tell parameters apart that are alike. -/
theorem step_withConfig {g : Game} {config : Config} (h : g.config.Alike config) :
    (g.withConfig config).step = (g.step.1, g.step.2.withConfig config) := by
  have hstep := (faithful_reconfiguring config).step (g := g) fun _ _ => h
  have hreport : g.step.1.map (reconfiguring config).report = g.step.1 :=
    map_report_rebasing (fun _ => config) id id id g.step.1
  rw [hreport] at hstep
  exact hstep

theorem steps_withConfig {g : Game} {config : Config} (h : g.config.Alike config) (n : Nat) :
    (g.withConfig config).steps n = (g.steps n).withConfig config :=
  (faithful_reconfiguring config).steps (fun _ _ => h) n

/-! ### Changing the parameters -/

section SetConfig

variable {g : Game} {config : Config}

theorem setConfig_of_le (hrunning : g.phase = .running) (hle : config.maxTurns.toNat ≤ g.turn) :
    g.setConfig config = { g with config, phase := .finished } := by
  unfold setConfig endAtLimit
  simp only [hrunning, hle, if_true]

theorem setConfig_of_lt (hrunning : g.phase = .running) (hlt : g.turn < config.maxTurns.toNat) :
    g.setConfig config = g.withConfig config := by
  unfold setConfig endAtLimit
  dsimp only
  rw [if_pos hrunning, if_neg (Nat.not_le_of_lt hlt)]
  rfl

@[simp] theorem config_setConfig (g : Game) (config : Config) :
    (g.setConfig config).config = config := by
  unfold setConfig endAtLimit
  dsimp only
  split
  · split <;> rfl
  · rfl

theorem underway_setConfig (hbegun : g.teams?.isSome) (hrunning : g.phase = .running)
    (hunasked : g.flags.stopped = false) (hlt : g.turn < config.maxTurns.toNat) :
    Underway config.maxTurns.toNat (g.setConfig config) := by
  rw [setConfig_of_lt hrunning hlt]
  exact ⟨hbegun, rfl, hunasked, Nat.le_of_lt hlt, hrunning.trans (if_pos hlt).symm⟩

end SetConfig

/-- What becomes of a game whose parameters are changed in play.  At the new limit of turns or past
it, the game is over at once.  Below it, every step plays and reports what it would with any other
parameters of the same limit and the same rest, whatever their seed, and the game is over when it
comes to the new limit, unless somebody asks for its end.  The next beginning is that of a fresh
game with the new parameters. -/
theorem setConfig_in_play {ground : Ground} {config₀ : Config} {g : Game}
    (h : Course (load ground config₀) g) (hrunning : g.phase = .running) (config : Config) :
    (config.maxTurns.toNat ≤ g.turn →
      g.setConfig config = { g with config, phase := .finished }) ∧
    (g.turn < config.maxTurns.toNat →
      (∀ other : Config, other.Alike config → ∀ n,
        (g.setConfig config).steps n = { (g.setConfig other).steps n with config } ∧
        ((g.setConfig config).steps n).step.1 = ((g.setConfig other).steps n).step.1) ∧
      (g.flags.stopped = false → ∀ n,
        ((g.setConfig config).steps n).turn = min (g.turn + n) config.maxTurns.toNat ∧
        (((g.setConfig config).steps n).phase = .finished ↔
          config.maxTurns.toNat ≤ g.turn + n))) ∧
    ∀ n teams, ((g.setConfig config).steps n).begin teams = (load ground config).begin teams := by
  refine ⟨setConfig_of_le hrunning, fun hlt => ⟨?_, ?_⟩, ?_⟩
  · intro other halike n
    have hlt' : g.turn < other.maxTurns.toNat := by rw [halike.maxTurns_eq]; exact hlt
    have halike' : (g.withConfig other).config.Alike config := halike
    rw [setConfig_of_lt hrunning hlt, setConfig_of_lt hrunning hlt',
      show g.withConfig config = (g.withConfig other).withConfig config from rfl,
      steps_withConfig halike' n]
    refine ⟨rfl, ?_⟩
    have hn : ((g.withConfig other).steps n).config.Alike config := by
      rw [config_steps]
      exact halike'
    rw [step_withConfig hn]
  · intro hunasked n
    have hunderway := underway_setConfig (begun_of_running h hrunning) hrunning hunasked hlt
    obtain ⟨hn, hturn⟩ := hunderway.steps n
    rw [setConfig_of_lt hrunning hlt] at hn hturn ⊢
    have hturn : ((g.withConfig config).steps n).turn = min (g.turn + n) config.maxTurns.toNat :=
      hturn
    refine ⟨hturn, ?_⟩
    rw [hn.phase_eq, hturn]
    split
    · simp only [reduceCtorEq, false_iff]
      omega
    · simp only [true_iff]
      omega
  · intro n teams
    have hcourse : Course (load ground config₀) ((g.setConfig config).steps n) :=
      (h.tail (.setConfig config)).trans (course_steps _ n)
    rw [hcourse.begin_eq_load, config_steps, config_setConfig]

/-- For example a limit that is lowered after the first of many turns, with another seed. -/
theorem lower_limit_in_play :
    ∃ (ground : Ground) (g : Game), Course (load ground {}) g ∧ g.phase = .running ∧ g.turn = 1 ∧
      ∀ n,
        (g.setConfig { seed := 7, maxTurns := 3 }).steps n =
          { (g.setConfig { maxTurns := 3 }).steps n with
            config := { seed := 7, maxTurns := 3 } } ∧
        (((g.setConfig { seed := 7, maxTurns := 3 }).steps n).phase = .finished ↔ 3 ≤ 1 + n) := by
  let brain : Brain := ⟨"whirl", #[.turn .left ⟨0, by decide⟩], by decide, by decide⟩
  let ground := (Ground.walled ⟨3, by decide⟩ ⟨3, by decide⟩).modify ⟨1, 1⟩
    fun c => .fresh (.hill .red) c.food
  let g := ((load ground {}).begin ⟨brain, brain⟩).step.2
  have hcourse : Course (load ground {}) g := .tail (.single (.begin _)) .step
  have hrunning : g.phase = .running := by decide +kernel
  have hturn : g.turn = 1 := by decide +kernel
  obtain ⟨-, hbelow, -⟩ := setConfig_in_play hcourse hrunning { seed := 7, maxTurns := 3 }
  have hlt : g.turn < 3 := by omega
  obtain ⟨hsame, hend⟩ := hbelow hlt
  have hunasked : g.flags.stopped = false := by decide +kernel
  refine ⟨ground, g, hcourse, hrunning, hturn, fun n => ⟨?_, ?_⟩⟩
  · exact (hsame { maxTurns := 3 } ⟨rfl, rfl⟩ n).1
  · rw [← hturn]
    exact (hend hunasked n).2

/-- The rest after a step is not kept until the next beginning: changed in play, it holds for the
next step already. -/
theorem rest_changes_in_play :
    ∃ (ground : Ground) (g : Game) (config : Config),
      Course (load ground {}) g ∧ g.phase = .running ∧ g.turn < config.maxTurns.toNat ∧
      (g.setConfig config).step.2.ants ≠
        (g.setConfig { g.config with maxTurns := config.maxTurns }).step.2.ants := by
  let brain : Brain := ⟨"walk", #[.move ⟨0, by decide⟩ ⟨0, by decide⟩], by decide, by decide⟩
  let ground := (Ground.walled ⟨4, by decide⟩ ⟨3, by decide⟩).modify ⟨1, 1⟩
    fun c => .fresh (.hill .red) c.food
  let g := (load ground {}).begin ⟨brain, brain⟩
  exact ⟨ground, g, { restAfterMove := 0 }, .single (.begin _), by decide +kernel,
    by decide +kernel, by decide +kernel⟩

end Game

end AntContest

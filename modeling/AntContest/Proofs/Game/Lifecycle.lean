import AntContest.Proofs.Game.Course

/-! # From the beginning of a game to its end

A game in play is below its limit of turns.  The limit can be met in three places, when a game
begins, when a turn ends and when the parameters change, and in each of them the game is over at
once; a request to stop is a fourth way to the end.

* `WithinLimit` is what all operations keep (`withinLimit_of_course`).
* `StepLaws` says what comes of a step: when it plays a turn, and what is left of the game when it
  does not (`stepLaws_of_begun`).
* `Continuation` lists the operations that do not begin a game.  When a game is over, they change
  the parameters and the requests at most (`Continuation.many_of_finished`).
* `lifecycle_of_course`: all of this, whatever has been done with a game before. -/

namespace AntContest

namespace Game

/-! ### The limit of turns -/

/-- A game in play has turns left. -/
def WithinLimit (g : Game) : Prop := g.phase = .running → g.turn < g.config.maxTurns.toNat

namespace WithinLimit

variable {g : Game}

theorem begin (g : Game) (teams : Teams) : WithinLimit (g.begin teams) := by
  intro hrunning
  have hphase : (if g.config.maxTurns = 0 then Phase.finished else .running) = .running := hrunning
  have hlimit : g.config.maxTurns ≠ 0 := by
    intro hzero
    rw [if_pos hzero] at hphase
    cases hphase
  show 0 < g.config.maxTurns.toNat
  exact Nat.pos_of_ne_zero fun hzero => hlimit (UInt32.toNat_inj.mp hzero)

theorem step (h : WithinLimit g) : WithinLimit g.step.2 := by
  have hstep := stepResult_step g
  generalize g.step = result at hstep
  cases hstep with
  | refused e _ => exact h
  | stopped _ _ => exact fun hrunning => nomatch hrunning
  | @played teams _ _ _ =>
    have hframe := Frame.playTurn g teams
    -- At the limit the phase after the turn would not be `running`.
    intro hrunning
    rw [hframe.phase] at hrunning
    rw [hframe.turn, hframe.config]
    show g.turn + 1 < g.config.maxTurns.toNat
    rcases Nat.lt_or_ge (g.turn + 1) g.config.maxTurns.toNat with hlt | hlast
    · exact hlt
    · rw [if_pos hlast] at hrunning
      cases hrunning

theorem request (h : WithinLimit g) (r : Request) : WithinLimit (g.request r) := h

/-- Whatever the new parameters are, a game that is in play with them is below their limit. -/
theorem setConfig (g : Game) (config : Config) : WithinLimit (g.setConfig config) := by
  unfold Game.setConfig endAtLimit
  dsimp only
  split
  · split
    · exact fun hrunning => nomatch hrunning
    · next hlast => exact fun _ => Nat.lt_of_not_le hlast
  · next hphase => exact fun hrunning => (hphase hrunning).elim

theorem operation {g' : Game} (hop : Operation g g') (h : WithinLimit g) : WithinLimit g' :=
  hop.keeps begin (fun _ h => h.step) (fun g config _ => setConfig g config)
    (fun _ r h => h.request r) h

end WithinLimit

theorem withinLimit_of_course {ground : Ground} {config : Config} {g : Game}
    (h : Course (load ground config) g) : WithinLimit g := by
  induction h with
  | refl => exact fun hrunning => nomatch hrunning
  | tail _ hop ih => exact ih.operation hop

/-! ### Steps -/

/-- What comes of a step. -/
structure StepLaws (g : Game) : Prop where
  /-- A turn is played exactly if the game is in play and nobody has asked for its end. -/
  ok_iff : (∃ report, g.step.1 = .ok report) ↔ g.phase = .running ∧ g.flags.stopped = false
  /-- A turn counts itself, in the game and in its report, and at the limit it is the last one. -/
  of_ok : ∀ report, g.step.1 = .ok report →
    report.turn = g.turn + 1 ∧ g.step.2.turn = g.turn + 1 ∧
      g.step.2.phase = if g.config.maxTurns.toNat ≤ g.turn + 1 then .finished else .running
  /-- A step that is refused leaves the game as it is, unless somebody has asked for its end: then
  it is over, and nothing else changes. -/
  of_error : ∀ e, g.step.1 = .error e →
    e = (if g.phase = .notStarted then .notStarted else .finished) ∧
      (g.phase ≠ .running ∧ g.step.2 = g ∨
        g.phase = .running ∧ g.flags.stopped = true ∧
          g.step.2 = { g with phase := .finished })

theorem turn_report_playTurn (g : Game) (teams : Teams) :
    (g.playTurn teams).1.turn = (g.playTurn teams).2.turn := by
  unfold playTurn endAtLimit
  dsimp only
  split <;> rfl

theorem stepLaws_of_played {g : Game} {teams : Teams} (hphase : g.phase = .running)
    (hteams : g.teams? = some teams) (hstop : g.flags.stopped = false) : StepLaws g := by
  have hframe := Frame.playTurn g teams
  have hturn : (g.playTurn teams).2.turn = g.turn + 1 := hframe.turn
  have hlast := hframe.phase
  have hstep := step_of_running hphase hteams hstop
  dsimp only at hlast
  rw [hphase] at hlast
  refine ⟨?_, fun report hreport => ?_, fun e he => ?_⟩
  · rw [hstep]
    exact ⟨fun _ => ⟨hphase, hstop⟩, fun _ => ⟨_, rfl⟩⟩
  · rw [hstep] at hreport ⊢
    cases hreport
    exact ⟨(turn_report_playTurn g teams).trans hturn, hturn, hlast⟩
  · rw [hstep] at he
    cases he

theorem stepLaws_of_stopped {g : Game} {teams : Teams} (hphase : g.phase = .running)
    (hteams : g.teams? = some teams) (hstop : g.flags.stopped = true) : StepLaws g := by
  have hstep := step_of_stopped hphase hteams hstop
  refine ⟨?_, fun report hreport => ?_, fun e he => ?_⟩
  · rw [hstep]
    refine ⟨fun ⟨_, hreport⟩ => (nomatch hreport), fun ⟨_, hunasked⟩ => ?_⟩
    rw [hstop] at hunasked
    cases hunasked
  · rw [hstep] at hreport
    cases hreport
  · rw [hstep] at he ⊢
    cases he
    rw [if_neg (by rw [hphase]; decide)]
    exact ⟨rfl, .inr ⟨hphase, hstop, rfl⟩⟩

theorem stepLaws_of_not_running {g : Game} (hphase : g.phase ≠ .running) : StepLaws g := by
  have hstep : g.step =
      (.error (if g.phase = .notStarted then .notStarted else .finished), g) := by
    cases hcase : g.phase with
    | notStarted => exact step_of_unready (by simp [hcase]) (by simp [hcase])
    | running => exact (hphase hcase).elim
    | finished => exact step_of_finished hcase
  refine ⟨?_, fun report hreport => ?_, fun e he => ?_⟩
  · rw [hstep]
    exact ⟨fun ⟨_, hreport⟩ => (nomatch hreport), fun ⟨hrunning, _⟩ => (hphase hrunning).elim⟩
  · rw [hstep] at hreport
    cases hreport
  · rw [hstep] at he ⊢
    cases he
    exact ⟨rfl, .inl ⟨hphase, rfl⟩⟩

/-- The laws hold of every game that has brains when it is in play. -/
theorem stepLaws_of_begun {g : Game} (hbegun : g.phase = .running → g.teams?.isSome) :
    StepLaws g := by
  by_cases hphase : g.phase = .running
  · obtain ⟨teams, hteams⟩ := Option.isSome_iff_exists.mp (hbegun hphase)
    cases hstop : g.flags.stopped with
    | false => exact stepLaws_of_played hphase hteams hstop
    | true => exact stepLaws_of_stopped hphase hteams hstop
  · exact stepLaws_of_not_running hphase

/-! ### After the end -/

/-- An operation that does not begin a game. -/
inductive Continuation (g : Game) : Game → Prop
  | step : Continuation g g.step.2
  | run {Notes : Type} {observer : Observer Notes} {notes notes' : Notes} {g' : Game} :
      g.run observer notes = .ok (notes', g') → Continuation g g'
  | setConfig (config : Config) : Continuation g (g.setConfig config)
  | request (r : Request) : Continuation g (g.request r)

/-- A game begins again, with new brains or with the old ones exchanged. -/
inductive Beginning (g : Game) : Game → Prop
  | begin (teams : Teams) : Beginning g (g.begin teams)
  | swap {g' : Game} : g.swap = .ok g' → Beginning g g'

theorem Operation.beginning_or_continuation {g g' : Game} (h : Operation g g') :
    Beginning g g' ∨ Continuation g g' := by
  cases h with
  | begin teams => exact .inl (.begin teams)
  | step => exact .inr .step
  | run hrun => exact .inr (.run hrun)
  | swap hswap => exact .inl (.swap hswap)
  | setConfig config => exact .inr (.setConfig config)
  | request r => exact .inr (.request r)

theorem Continuation.of_notStarted {g g' : Game} (hphase : g.phase = .notStarted)
    (h : Continuation g g') : g'.phase = .notStarted := by
  have hrunning : g.phase ≠ .running := by rw [hphase]; decide
  cases h with
  | step =>
    rw [step_of_unready (by rw [hphase]; decide) fun h => (hrunning h).elim]
    exact hphase
  | run hrun =>
    unfold Game.run at hrun
    rw [if_pos hphase] at hrun
    cases hrun
  | setConfig config =>
    unfold Game.setConfig
    dsimp only
    rw [if_neg hrunning]
    exact hphase
  | request r => exact hphase

/-- The second game differs from the first in its parameters and in the requests at most. -/
def SameButSettings (g g' : Game) : Prop :=
  g' = { g with config := g'.config, flags := g'.flags }

theorem SameButSettings.trans {g₁ g₂ g₃ : Game} (h : SameButSettings g₁ g₂)
    (h' : SameButSettings g₂ g₃) : SameButSettings g₁ g₃ := by
  unfold SameButSettings at *
  rw [h] at h'
  exact h'

/-- When a game is over, an operation that does not begin it again changes the parameters and the
requests at most. -/
theorem Continuation.of_finished {g g' : Game} (hfinished : g.phase = .finished)
    (h : Continuation g g') : SameButSettings g g' := by
  have hphase : g.phase ≠ .running := by rw [hfinished]; decide
  cases h with
  | step =>
    rw [step_of_finished hfinished]
    rfl
  | run hrun =>
    -- The phase is looked at before the first turn, so the observer is not asked at all.
    unfold Game.run turnsLeft runTurns at hrun
    rw [if_neg (by rw [hfinished]; decide), if_pos hphase] at hrun
    cases hrun
    rfl
  | setConfig config =>
    unfold Game.setConfig
    dsimp only
    rw [if_neg hphase]
    rfl
  | request r => rfl

theorem Continuation.many_of_finished {g g' : Game} (hfinished : g.phase = .finished)
    (h : Relation.ReflTransGen Continuation g g') : SameButSettings g g' := by
  induction h with
  | refl => rfl
  | tail _ hop ih =>
    have hphase := congrArg Game.phase ih
    exact ih.trans (hop.of_finished (hphase.trans hfinished))

/-- Whatever has been done with a game, it has turns left if it is in play, and a step does what
`StepLaws` says.  When it is over, no operations but a new beginning change more of it than its
parameters and the requests, so that only a beginning can bring it into play again. -/
theorem lifecycle_of_course {ground : Ground} {config : Config} {g : Game}
    (h : Course (load ground config) g) :
    (g.phase = .running → g.turn < g.config.maxTurns.toNat) ∧
    StepLaws g ∧
    (g.phase = .finished →
      (∀ g', Relation.ReflTransGen Continuation g g' → SameButSettings g g') ∧
      ∀ g', Operation g g' → g'.phase ≠ .finished → Beginning g g') := by
  refine ⟨withinLimit_of_course h, stepLaws_of_begun (begun_of_running h), fun hfinished =>
    ⟨fun g' => Continuation.many_of_finished hfinished, fun g' hop hother => ?_⟩⟩
  rcases hop.beginning_or_continuation with hbeginning | hcontinuation
  · exact hbeginning
  · have hphase := congrArg Game.phase (hcontinuation.of_finished hfinished)
    exact (hother (hphase.trans hfinished)).elim

/-- For example a game of one turn, which is put on hold and then asked to end: its turn is not
played.  A later limit does not bring it into play again. -/
theorem lifecycle_past_raised_limit :
    ∃ (ground : Ground) (asked ended : Game), Course (load ground { maxTurns := 1 }) asked ∧
      asked.flags = ⟨true, true⟩ ∧ asked.phase = .running ∧
      asked.turn < asked.config.maxTurns.toNat ∧
      asked.step = (.error .finished, { asked with phase := .finished }) ∧
      Relation.ReflTransGen Continuation asked.step.2 ended ∧ ended.config.maxTurns = 9 ∧
      SameButSettings asked.step.2 ended ∧ ended.phase = .finished ∧
      ∀ g', Operation ended g' → g'.phase ≠ .finished → Beginning ended g' := by
  let brain : Brain := ⟨"whirl", #[.turn .left ⟨0, by decide⟩], by decide, by decide⟩
  let ground := (Ground.walled ⟨3, by decide⟩ ⟨3, by decide⟩).modify ⟨1, 1⟩
    fun c => .fresh (.hill .red) c.food
  let asked := (((load ground { maxTurns := 1 }).begin ⟨brain, brain⟩).request .pause).request .stop
  let ended := (asked.step.2.setConfig { maxTurns := 9 }).step.2
  have hasked : Course (load ground { maxTurns := 1 }) asked :=
    ((Relation.ReflTransGen.single (.begin _)).tail (.request .pause)).tail (.request .stop)
  have hrunning : asked.phase = .running := by decide +kernel
  have hended : Course (load ground { maxTurns := 1 }) ended :=
    ((hasked.tail .step).tail (.setConfig _)).tail .step
  have hafter : Relation.ReflTransGen Continuation asked.step.2 ended :=
    (Relation.ReflTransGen.single (.setConfig _)).tail .step
  obtain ⟨hlimit, -, -⟩ := lifecycle_of_course hasked
  obtain ⟨-, -, hstopped⟩ := lifecycle_of_course (hasked.tail .step)
  obtain ⟨-, -, hstays⟩ := lifecycle_of_course hended
  have hfinished : ended.phase = .finished := by decide +kernel
  exact ⟨ground, asked, ended, hasked, rfl, hrunning, hlimit hrunning,
    step_of_stopped hrunning rfl rfl, hafter, by decide +kernel,
    (hstopped (by decide +kernel)).1 ended hafter, hfinished, (hstays hfinished).2⟩

end Game

end AntContest

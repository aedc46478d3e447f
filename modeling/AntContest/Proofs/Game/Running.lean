import AntContest.Proofs.Game.Observed
import AntContest.Proofs.Game.Restart

/-! # Runs and steps

A run plays turn after turn until the game is over, and after each turn the observer may ask for a
pause, for the pause to end, and for the end of the game.  If it never leaves the game on hold, the
run comes to its end, and what it has done is what plain steps do to a game of which nobody asks
anything.

* `NeverHeld`: the observer does not leave the game on hold at any point of the run;
  `neverHeld_of_requests` is a way to see that.
* `exists_runTurns`: then the game is over when the run comes back, and not just out of turns.
* `Ledger` is what every round keeps of the logbook and the game, and `RunLaws` is what is left of
  it at the end of a run.
* `run_refines_steps`: hence the laws of every run, and the result of a run from the beginning of a
  game is that of the game as it is played without an observer. -/

namespace AntContest

/-- Somebody has asked for a pause and nobody for the end. -/
def Flags.Hold (f : Flags) : Prop := f.paused = true ∧ f.stopped = false

instance (f : Flags) : Decidable f.Hold := inferInstanceAs (Decidable (_ ∧ _))

namespace Game

/-- The game as if nobody had asked for anything. -/
def unasked (g : Game) : Game := { g with flags := {} }

/-- A round of a run: a turn is played, and the observer is heard. -/
inductive Round {Notes : Type} (observer : Observer Notes) : Notes × Game → Notes × Game → Prop
  | played {notes : Notes} {g next : Game} {report : TurnReport} : g.step = (.ok report, next) →
      Round observer (notes, g)
        ((observer notes next report).1, (observer notes next report).2.foldl request next)

/-- At no point of a run is the game in play and on hold. -/
def NeverHeld {Notes : Type} (observer : Observer Notes) (notes : Notes) (g : Game) : Prop :=
  ∀ notes' g', Relation.ReflTransGen (Round observer) (notes, g) (notes', g') →
    g'.phase = .running → ¬ g'.flags.Hold

section NeverHeld

variable {Notes : Type} {observer : Observer Notes} {notes : Notes} {g : Game}

/-- For that it is enough that its requests never lead from a game that goes on to one on hold. -/
theorem neverHeld_of_requests
    (h : ∀ notes g report, ¬ g.flags.Hold →
      ¬ ((observer notes g report).2.foldl request g).flags.Hold)
    (hg : ¬ g.flags.Hold) : NeverHeld observer notes g := by
  intro notes' g' hrounds _
  have hkeeps : ∀ p : Notes × Game, Relation.ReflTransGen (Round observer) (notes, g) p →
      ¬ p.2.flags.Hold := by
    intro p hrounds
    induction hrounds with
    | refl => exact hg
    | tail _ hround ih =>
      cases hround with
      | @played notes g next report hstep =>
        obtain ⟨-, -, hflags⟩ := settings_step g
        rw [hstep] at hflags
        exact h notes next report (by rw [hflags]; exact ih)
  exact hkeeps _ hrounds

theorem NeverHeld.played (h : NeverHeld observer notes g) {report : TurnReport} {next : Game}
    (hstep : g.step = (.ok report, next)) :
    NeverHeld observer (observer notes next report).1
      ((observer notes next report).2.foldl request next) :=
  fun notes' g' hrounds => h notes' g' (.head (.played hstep) hrounds)

end NeverHeld

/-! ### The end of a run -/

/-- A game that has begun, with fewer than `n` turns left if it is in play. -/
structure Ready (n : Nat) (g : Game) : Prop where
  started : g.phase ≠ .notStarted
  begun : g.phase = .running → g.teams?.isSome
  within : WithinLimit g
  lt_turns : g.phase = .running → g.config.maxTurns.toNat < g.turn + n

namespace Ready

variable {n : Nat} {g : Game}

theorem finished (h : Ready n g) (hphase : g.phase ≠ .running) : g.phase = .finished := by
  have hstarted := h.started
  cases hcase : g.phase with
  | notStarted => exact (hstarted hcase).elim
  | running => exact (hphase hcase).elim
  | finished => rfl

theorem finished_of_zero (h : Ready 0 g) : g.phase = .finished := by
  refine h.finished fun hrunning => ?_
  have := h.within hrunning
  have := h.lt_turns hrunning
  omega

/-- A turn leaves one turn less, whatever is asked for after it. -/
theorem played (h : Ready (n + 1) g) {teams : Teams} (hphase : g.phase = .running)
    (hteams : g.teams? = some teams) (requests : List Request) :
    Ready n (requests.foldl request (g.playTurn teams).2) := by
  have hframe := Frame.playTurn g teams
  have hturn : (g.playTurn teams).2.turn = g.turn + 1 := hframe.turn
  have hconfig : (g.playTurn teams).2.config = g.config := hframe.config
  have hnext : (g.playTurn teams).2.phase =
      if g.config.maxTurns.toNat ≤ g.turn + 1 then .finished else .running :=
    hphase ▸ hframe.phase
  have hturns := h.lt_turns hphase
  rw [foldl_request]
  refine ⟨?_, fun _ => ?_, fun hrunning => ?_, fun _ => ?_⟩
  · dsimp only
    rw [hnext]
    split <;> simp
  · dsimp only
    rw [hframe.teams, hteams]
    rfl
  · dsimp only at hrunning ⊢
    rw [hnext] at hrunning
    rw [hturn, hconfig]
    split at hrunning
    · cases hrunning
    · omega
  · dsimp only
    rw [hturn, hconfig]
    omega

end Ready

/-- A run with enough turns left comes to the end of the game. -/
theorem exists_runTurns {Notes : Type} {observer : Observer Notes} {n : Nat} {notes : Notes}
    {g : Game} (h : Ready n g) (hheld : NeverHeld observer notes g) :
    ∃ notes' g', runTurns observer n notes g = .ok (notes', g') ∧ g'.phase = .finished := by
  induction n generalizing notes g with
  | zero => exact ⟨notes, g, rfl, h.finished_of_zero⟩
  | succ n ih =>
    by_cases hphase : g.phase = .running
    · have hfree : ¬ (g.flags.paused && !g.flags.stopped) = true := by
        rw [Bool.and_eq_true, Bool.not_eq_true']
        exact hheld notes g .refl hphase
      unfold runTurns
      rw [if_neg (not_not_intro hphase), if_neg hfree]
      generalize hresult : g.step = result
      have hstep := stepResult_step g
      rw [hresult] at hstep
      cases hstep with
      | refused e hunready =>
        have hteams := h.begun hphase
        rw [hunready hphase] at hteams
        cases hteams
      | stopped _ _ => exact ⟨notes, _, rfl, rfl⟩
      | played _ hteams _ => exact ih (h.played hphase hteams _) (hheld.played hresult)
    · refine ⟨notes, g, ?_, h.finished hphase⟩
      unfold runTurns
      rw [if_pos hphase]

/-! ### The logbook of a run -/

theorem stopped_foldl_apply (requests : List Request) (f : Flags) :
    (requests.foldl Request.apply f).stopped = true ↔ f.stopped = true ∨ .stop ∈ requests := by
  induction requests generalizing f with
  | nil => simp
  | cons r requests ih =>
    rw [List.foldl_cons, ih, List.mem_cons]
    cases r <;> simp [Request.apply]

/-- The observer's call after `k` turns is about the next turn of the game of which nobody asks
anything. -/
structure Shown (start : Game) (k : Nat) (call : Call) : Prop where
  turn_eq : call.report.turn = call.game.turn
  step_eq : (start.unasked.steps k).step.1 = .ok call.report
  game_eq : call.game = { start.unasked.steps (k + 1) with flags := call.game.flags }

/-- What a run keeps of its logbook and the game. -/
structure Ledger (start : Game) (calls : List Call) (g : Game) : Prop where
  config_eq : g.config = start.config
  turn_eq : g.turn = start.turn + calls.length
  same : SamePlay (start.unasked.steps calls.length) g
  /-- Only a request for the end sets the phases apart. -/
  phase_eq : g.phase = (start.unasked.steps calls.length).phase ∨
    g.phase = .finished ∧ g.flags.stopped = true
  turns : (calls.map fun call => call.report.turn) = List.range' (start.turn + 1) calls.length
  shown : ∀ (k : Nat) (call : Call), calls[k]? = some call → Shown start k call
  /-- Once the end is asked for, there is no further turn. -/
  stopped : start.flags.stopped = true → calls = [] ∧ g.flags.stopped = true
  asked : ∀ call ∈ calls, .stop ∈ call.requests →
    g.flags.stopped = true ∧ g.turn = call.report.turn
  unasked : start.flags.stopped = false → (∀ call ∈ calls, .stop ∉ call.requests) →
    g.flags.stopped = false

namespace Ledger

variable {start g : Game} {calls : List Call}

theorem blank (g : Game) : Ledger g [] g where
  config_eq := rfl
  turn_eq := rfl
  same := rfl
  phase_eq := .inl rfl
  turns := rfl
  shown _ _ h := nomatch h
  stopped h := ⟨rfl, h⟩
  asked _ h := nomatch h
  unasked h _ := h

theorem refused (h : Ledger start calls g) {e : PlayError} (he : g.step.1 = .error e) :
    Ledger start calls g.step.2 := by
  obtain ⟨hconfig, -, hflags⟩ := settings_step g
  have hsame := samePlay_of_error he
  refine ⟨hconfig.trans h.config_eq, hsame.turn.trans h.turn_eq, h.same.trans hsame, ?_, h.turns,
    h.shown, ?_, ?_, ?_⟩
  · have hstep := stepResult_step g
    generalize g.step = result at hstep he
    cases hstep with
    | refused _ _ => exact h.phase_eq
    | stopped _ hstopped => exact .inr ⟨rfl, hstopped⟩
    | played _ _ _ => cases he
  · rw [hflags]
    exact h.stopped
  · rw [hflags, hsame.turn]
    exact h.asked
  · rw [hflags]
    exact h.unasked

/-- The game of which nobody asks anything goes along with a turn. -/
theorem unasked_step (h : Ledger start calls g) {report : TurnReport}
    (hok : g.step.1 = .ok report) :
    (start.unasked.steps calls.length).step.1 = .ok report ∧
      g.step.2 = { (start.unasked.steps calls.length).step.2 with flags := g.flags } := by
  obtain ⟨teams, hphase, hteams, -, rfl, hnext⟩ := played_of_ok hok
  have hsame := h.same
  have hphases : g.phase = (start.unasked.steps calls.length).phase := by
    rcases h.phase_eq with heq | ⟨hover, -⟩
    · exact heq
    · rw [hphase] at hover
      cases hover
  obtain ⟨hconfig, -, hflags⟩ := settings_steps start.unasked calls.length
  have hconfigs : (start.unasked.steps calls.length).config = g.config :=
    hconfig.trans h.config_eq.symm
  generalize start.unasked.steps calls.length = plain at *
  obtain ⟨hreport, hnextSame⟩ := hsame.playTurn (congrArg Config.restAfterMove hconfigs) teams
  have hstep := step_of_running (hphases.symm.trans hphase) (hsame.teams.symm.trans hteams)
    (congrArg Flags.stopped hflags)
  have hframe := Frame.playTurn g teams
  have hplain := Frame.playTurn plain teams
  rw [hstep, hnext]
  refine ⟨congrArg Except.ok hreport.symm, Eq.trans hnextSame ?_⟩
  rw [hframe.flags, hframe.config.trans (hconfigs.symm.trans hplain.config.symm),
    show (g.playTurn teams).2.phase = (plain.playTurn teams).2.phase by
      rw [hframe.phase, hplain.phase]
      dsimp only
      rw [hconfigs, hphases, hsame.turn]]

theorem played (h : Ledger start calls g) {report : TurnReport} (hok : g.step.1 = .ok report)
    (requests : List Request) :
    Ledger start (calls ++ [⟨g.step.2, report, requests⟩]) (requests.foldl request g.step.2) := by
  obtain ⟨hplain, hgame⟩ := h.unasked_step hok
  obtain ⟨teams, -, -, hunstopped, hreport, hnext⟩ := played_of_ok hok
  have hturn : g.step.2.turn = g.turn + 1 := by rw [hnext]; exact (Frame.playTurn g teams).turn
  have hreportTurn : report.turn = g.step.2.turn := by
    rw [hreport, hnext]
    exact turn_report_playTurn g teams
  obtain ⟨hconfig, -, hflags⟩ := settings_step g
  have hstart : start.flags.stopped = false := by
    cases hcase : start.flags.stopped with
    | false => rfl
    | true =>
      rw [(h.stopped hcase).2] at hunstopped
      cases hunstopped
  have hsteps : (start.unasked.steps calls.length).step.2 =
      start.unasked.steps (calls.length + 1) := (steps_succ _ _).symm
  rw [hsteps] at hgame
  have hlength (call : Call) : (calls ++ [call]).length = calls.length + 1 := List.length_append
  rw [foldl_request]
  constructor
  case config_eq => exact hconfig.trans h.config_eq
  case turn_eq =>
    have := h.turn_eq
    rw [hlength]
    dsimp only
    omega
  case same =>
    rw [hlength, hgame]
    rfl
  case phase_eq =>
    rw [hlength, hgame]
    exact .inl rfl
  case turns =>
    have := h.turn_eq
    rw [hlength, List.range'_1_concat, List.map_append, h.turns]
    refine congrArg (List.range' (start.turn + 1) calls.length ++ [·]) ?_
    dsimp only
    omega
  case shown =>
    intro k call hcall
    rcases Nat.lt_or_ge k calls.length with hlt | hge
    · rw [List.getElem?_append_left hlt] at hcall
      exact h.shown k call hcall
    · have hbound := (List.getElem?_eq_some_iff.mp hcall).1
      rw [hlength] at hbound
      obtain rfl : k = calls.length := by omega
      rw [List.getElem?_concat_length] at hcall
      cases hcall
      refine ⟨hreportTurn, hplain, hgame.trans ?_⟩
      dsimp only
      rw [hflags]
  case stopped =>
    intro hstopped
    rw [hstart] at hstopped
    cases hstopped
  case asked =>
    intro call hcall hstop
    rcases List.mem_append.mp hcall with hold | hnew
    · rw [(h.asked call hold hstop).1] at hunstopped
      cases hunstopped
    · obtain rfl := List.mem_singleton.mp hnew
      exact ⟨(stopped_foldl_apply _ _).mpr (.inr hstop), hreportTurn.symm⟩
  case unasked =>
    intro _ hnone
    have hnew := hnone _ (List.mem_append_right calls (List.mem_singleton.mpr rfl))
    dsimp only
    rw [← Bool.not_eq_true, stopped_foldl_apply, hflags, hunstopped]
    simpa using hnew

end Ledger

/-! ### Whole runs -/

/-- What a run with this logbook makes of a game. -/
structure RunLaws (g : Game) (calls : List Call) (g' : Game) : Prop where
  finished : g'.phase = .finished
  /-- The observer is called once for every turn, in order and without gaps. -/
  turns : (calls.map fun call => call.report.turn) = List.range' (g.turn + 1) calls.length
  turn_eq : g'.turn = g.turn + calls.length
  /-- It is shown what plain steps lead to and report. -/
  shown : ∀ (k : Nat) (call : Call), calls[k]? = some call → Shown g k call
  /-- As many plain steps lead to the same game, but for the requests and the end. -/
  steps_eq : g' = { g.unasked.steps calls.length with phase := .finished, flags := g'.flags }
  /-- A request for the end makes its turn the last one. -/
  last : ∀ call ∈ calls, .stop ∈ call.requests → g'.turn = call.report.turn
  /-- If the end was asked for before the run, no turn is played. -/
  unplayed : g.flags.stopped = true → calls = []
  /-- If nobody asks for the end, it comes with the limit of turns. -/
  limit : g.phase = .running → g.flags.stopped = false →
    (∀ call ∈ calls, .stop ∉ call.requests) → g'.turn = g.config.maxTurns.toNat

/-- As long as nobody asks for anything, a game in play is underway to its limit. -/
theorem underway_unasked {g : Game} (hphase : g.phase = .running) (hbegun : g.teams?.isSome)
    (hwithin : WithinLimit g) : Underway g.config.maxTurns.toNat g.unasked where
  begun := hbegun
  limit_eq := rfl
  unasked := rfl
  turn_le := Nat.le_of_lt (hwithin hphase)
  phase_eq := hphase.trans (if_pos (hwithin hphase)).symm

theorem Ledger.runLaws {g g' : Game} {calls : List Call} (h : Ledger g calls g')
    (hbegun : g.phase = .running → g.teams?.isSome) (hwithin : WithinLimit g)
    (hfinished : g'.phase = .finished) : RunLaws g calls g' where
  finished := hfinished
  turns := h.turns
  turn_eq := h.turn_eq
  shown := h.shown
  steps_eq := by
    have hsame := h.same
    unfold SamePlay at hsame
    rw [h.config_eq, hfinished, ← show (g.unasked.steps calls.length).config = g.config from
      config_steps g.unasked calls.length] at hsame
    exact hsame
  last call hcall hstop := (h.asked call hcall hstop).2
  unplayed hstopped := (h.stopped hstopped).1
  limit hrunning hstopped hnone := by
    have hunderway := underway_unasked hrunning (hbegun hrunning) hwithin
    obtain ⟨hlast, -⟩ := hunderway.steps calls.length
    have hphase : g'.phase = (g.unasked.steps calls.length).phase := by
      rcases h.phase_eq with heq | ⟨-, hasked⟩
      · exact heq
      · rw [h.unasked hstopped hnone] at hasked
        cases hasked
    have hle := hlast.turn_le
    rw [hfinished, hlast.phase_eq] at hphase
    rw [h.same.turn]
    split at hphase
    · cases hphase
    · omega

theorem RunLaws.result_eq {g₀ g' : Game} {teams : Teams} {calls : List Call}
    (h : RunLaws (g₀.begin teams) calls g') (hnone : ∀ call ∈ calls, .stop ∉ call.requests) :
    GameResult.ofGame g' = GameResult.ofGame (g₀.begin teams).play := by
  have hunderway := underway_begin g₀ teams
  have hlimit : (g₀.begin teams).steps calls.length = (g₀.begin teams).play := by
    rw [hunderway.play_eq_steps, hunderway.steps_min]
    rcases Nat.lt_or_eq_of_le hunderway.turn_le with hlt | heq
    · have hlast := h.limit (hunderway.phase_eq.trans (if_pos hlt)) rfl hnone
      have hturn := h.turn_eq
      have hmax := hunderway.limit_eq
      rw [Nat.min_eq_right (by omega)]
    · rw [heq, Nat.sub_self, Nat.min_zero]
  rw [← hlimit, h.steps_eq]
  rfl

/-- A run of a game that has begun, under an observer who never leaves it on hold, comes to the end
of the game and does what its laws say.  From the beginning of a game, and if nobody asks for the
end, it has the result of the game as it is played without an observer. -/
theorem run_refines_steps {ground : Ground} {config₀ : Config} {g : Game} {Notes : Type}
    {observer : Observer Notes} {notes : Notes} (h : Course (load ground config₀) g)
    (hbegun : g.phase ≠ .notStarted) (hheld : NeverHeld observer notes g) :
    ∃ notes' calls g', g.run observer notes = .ok (notes', g') ∧
      g.run observer.logged (notes, []) = .ok ((notes', calls), g') ∧ RunLaws g calls g' ∧
      ∀ g₀ teams, Course (load ground config₀) g₀ → g = g₀.begin teams →
        (∀ call ∈ calls, .stop ∉ call.requests) →
        GameResult.ofGame g' = playGame ground teams g₀.config := by
  have hteams := begun_of_running h
  have hwithin := withinLimit_of_course h
  have hready : Ready g.turnsLeft g := by
    refine ⟨hbegun, hteams, hwithin, fun hrunning => ?_⟩
    have := hwithin hrunning
    unfold turnsLeft
    omega
  obtain ⟨notes', g', hrun, hfinished⟩ := exists_runTurns hready hheld
  have hrun : g.run observer notes = .ok (notes', g') := by
    rw [run, if_neg hbegun]
    exact hrun
  obtain ⟨calls, hlogged⟩ := exists_run_logged hrun
  have hledger : Ledger g calls g' := by
    rw [run, if_neg hbegun] at hlogged
    exact runTurns_keeps_notes (I := fun (p : Notes × List Call) g' => Ledger g p.2 g')
      (fun _ _ _ hok hg => hg.played hok _) (fun _ _ _ he hg => hg.refused he) hlogged (.blank g)
  have hlaws := hledger.runLaws hteams hwithin hfinished
  refine ⟨notes', calls, g', hrun, hlogged, hlaws, fun g₀ teams h₀ hbegin hnone => ?_⟩
  subst hbegin
  exact (hlaws.result_eq hnone).trans (result_of_play h₀ teams)

/-- For example under an observer who asks for a pause after every turn, takes that back after the
first, and asks for the end after the second. -/
theorem run_ended_by_observer :
    ∃ (ground : Ground) (observer : Observer Nat) (g g' : Game) (calls : List Call),
      Course (load ground { maxTurns := 5 }) g ∧ g.phase = .running ∧ NeverHeld observer 0 g ∧
      g.run observer 0 = .ok (2, g') ∧ calls.length = 2 ∧ RunLaws g calls g' ∧ g'.turn = 2 ∧
      g'.flags.paused = true := by
  let brain : Brain := ⟨"whirl", #[.turn .left ⟨0, by decide⟩], by decide, by decide⟩
  let ground := (Ground.walled ⟨3, by decide⟩ ⟨3, by decide⟩).modify ⟨1, 1⟩
    fun c => .fresh (.hill .red) c.food
  let observer : Observer Nat := fun seen _ report =>
    (seen + 1, if report.turn = 2 then [.pause, .stop] else [.pause, .resume])
  let g := (load ground { maxTurns := 5 }).begin ⟨brain, brain⟩
  have hcourse : Course (load ground { maxTurns := 5 }) g := .single (.begin _)
  have hheld : NeverHeld observer 0 g := by
    refine neverHeld_of_requests (fun seen g report _ hhold => ?_) (by decide +kernel)
    dsimp only [observer] at hhold
    split at hhold
    · exact nomatch hhold.2
    · exact nomatch hhold.1
  obtain ⟨seen, calls, g', hrun, hlogged, hlaws, -⟩ :=
    run_refines_steps hcourse (by decide +kernel) hheld
  have heval : (g.run observer.logged (0, [])).map
      (fun p : (Nat × List Call) × Game => (p.1.1, p.1.2.length, p.2.flags.paused)) =
      .ok (2, 2, true) := by decide +kernel
  rw [hlogged] at heval
  simp only [Except.map, Except.ok.injEq, Prod.mk.injEq] at heval
  obtain ⟨rfl, hlength, hpaused⟩ := heval
  have hturn := hlaws.turn_eq
  rw [hlength] at hturn
  exact ⟨ground, observer, g, g', calls, hcourse, by decide +kernel, hheld, hrun, hlength, hlaws,
    hturn, hpaused⟩

end Game

end AntContest

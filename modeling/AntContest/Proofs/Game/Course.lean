import AntContest.Game.Play
import AntContest.Proofs.Game.Deed
import Mathlib.Logic.Relation

/-! # The courses of a game

A course is any finite sequence of operations: games are begun, stepped, run under an observer,
begun again with the brains exchanged, given other parameters, and asked to hold, to go on or to
end.  Operations that cannot be done leave the game as it is, so they need no mention, and a run
that is put on hold by its observer does not come back.  (Who lets such a run go on from outside
does what the observer could have asked for at the end of the same turn.)

What comes of a step depends on the phase, the brains and a request to stop (`step_of_running` and
its neighbours, `stepResult_step`).  Every operation is made of five kinds of event
(`event_of_operation`).  What holds of games and is kept by each event is kept by every course
(`Course.keeps`).  Most of what is so of games does not depend on their settings; of that it is
enough to know how games begin and what turns do (`Course.keeps_play`).  The loaded ground is kept
(`Course.home_eq`), so that beginning again is beginning on it (`Course.begin_eq_load`). -/

namespace AntContest

namespace Game

/-- An operation that is done on a game, and the game after it. -/
inductive Operation (g : Game) : Game → Prop
  | begin (teams : Teams) : Operation g (g.begin teams)
  | step : Operation g g.step.2
  | run {Notes : Type} {observer : Observer Notes} {notes notes' : Notes} {g' : Game} :
      g.run observer notes = .ok (notes', g') → Operation g g'
  | swap {g' : Game} : g.swap = .ok g' → Operation g g'
  | setConfig (config : Config) : Operation g (g.setConfig config)
  | request (r : Request) : Operation g (g.request r)

/-- Any number of operations, one after the other. -/
abbrev Course : Game → Game → Prop := Relation.ReflTransGen Operation

/-- What operations are made of. -/
inductive Event (g : Game) : Game → Prop
  | begin (teams : Teams) : Event g (g.begin teams)
  | turn {teams : Teams} : g.phase = .running → g.teams? = some teams →
      g.flags.stopped = false → Event g (g.playTurn teams).2
  | finish : g.phase = .running → Event g { g with phase := .finished }
  | configure (config : Config) : Event g { g with config }
  | flag (flags : Flags) : Event g { g with flags }

/-- What can come of a step. -/
inductive StepResult (g : Game) : Except PlayError TurnReport × Game → Prop
  | refused (e : PlayError) : (g.phase = .running → g.teams? = none) → StepResult g (.error e, g)
  | stopped : g.phase = .running → g.flags.stopped = true →
      StepResult g (.error .finished, { g with phase := .finished })
  | played {teams : Teams} : g.phase = .running → g.teams? = some teams →
      g.flags.stopped = false →
      StepResult g (.ok (g.playTurn teams).1, (g.playTurn teams).2)

section Step

variable {g : Game} {teams : Teams}

theorem step_of_finished (h : g.phase = .finished) : g.step = (.error .finished, g) := by
  unfold step
  rw [h]

theorem step_of_unready (hphase : g.phase ≠ .finished)
    (hteams : g.phase = .running → g.teams? = none) : g.step = (.error .notStarted, g) := by
  unfold step
  split
  · next h => exact (hphase h).elim
  · next teams h hsome => exact nomatch (hteams h).symm.trans hsome
  · rfl

theorem step_of_stopped (hphase : g.phase = .running) (hteams : g.teams? = some teams)
    (hstop : g.flags.stopped = true) :
    g.step = (.error .finished, { g with phase := .finished }) := by
  simp only [step, hphase, hteams, if_pos hstop]

theorem step_of_running (hphase : g.phase = .running) (hteams : g.teams? = some teams)
    (hstop : g.flags.stopped = false) :
    g.step = (.ok (g.playTurn teams).1, (g.playTurn teams).2) := by
  simp only [step, hphase, hteams, hstop, Bool.false_eq_true, if_false]

end Step

/-- A step comes out in one of these ways. -/
theorem stepResult_step (g : Game) : StepResult g g.step := by
  cases hphase : g.phase with
  | finished =>
    rw [step_of_finished hphase]
    exact .refused _ fun h => by rw [hphase] at h; cases h
  | notStarted =>
    rw [step_of_unready (by simp [hphase]) (by simp [hphase])]
    exact .refused _ fun h => by rw [hphase] at h; cases h
  | running =>
    cases hteams : g.teams? with
    | none =>
      rw [step_of_unready (by simp [hphase]) fun _ => hteams]
      exact .refused _ fun _ => hteams
    | some teams =>
      cases hstop : g.flags.stopped with
      | true =>
        rw [step_of_stopped hphase hteams hstop]
        exact .stopped hphase hstop
      | false =>
        rw [step_of_running hphase hteams hstop]
        exact .played hphase hteams hstop

theorem played_of_ok {g : Game} {report : TurnReport} (h : g.step.1 = .ok report) :
    ∃ teams, g.phase = .running ∧ g.teams? = some teams ∧ g.flags.stopped = false ∧
      report = (g.playTurn teams).1 ∧ g.step.2 = (g.playTurn teams).2 := by
  have hstep := stepResult_step g
  generalize g.step = result at h hstep ⊢
  cases hstep with
  | refused _ _ => cases h
  | stopped _ _ => cases h
  | @played teams hphase hteams hstop =>
    cases h
    exact ⟨teams, hphase, hteams, hstop, rfl, rfl⟩

theorem step_of_not_running {g : Game} (h : g.phase ≠ .running) :
    ∃ e, g.step = (.error e, g) := by
  have hstep := stepResult_step g
  generalize g.step = result at hstep
  cases hstep with
  | refused e _ => exact ⟨e, rfl⟩
  | stopped hrunning _ => exact (h hrunning).elim
  | played hrunning _ _ => exact (h hrunning).elim

theorem event_of_step (g : Game) : Relation.ReflTransGen Event g g.step.2 := by
  generalize hresult : g.step = result
  have h := stepResult_step g
  rw [hresult] at h
  cases h with
  | refused e _ => exact .refl
  | stopped hphase _ => exact .single (.finish hphase)
  | played hphase hteams hstop => exact .single (.turn hphase hteams hstop)

/-- What played turns, with what the observer then notes down and asks for, and refused steps keep,
a run keeps. -/
theorem runTurns_keeps_notes {Notes : Type} {observer : Observer Notes} {I : Notes → Game → Prop}
    (hplayed : ∀ notes g report, g.step.1 = .ok report → I notes g →
      I (observer notes g.step.2 report).1
        ((observer notes g.step.2 report).2.foldl request g.step.2))
    (hrefused : ∀ notes g e, g.step.1 = .error e → I notes g → I notes g.step.2)
    {n : Nat} {notes notes' : Notes} {g g' : Game}
    (h : runTurns observer n notes g = .ok (notes', g')) (hg : I notes g) : I notes' g' := by
  induction n generalizing notes g with
  | zero =>
    cases h
    exact hg
  | succ n ih =>
    unfold runTurns at h
    split at h
    · cases h
      exact hg
    · split at h
      · cases h
      · split at h
        · next e after heq =>
          have hafter := hrefused notes g e (congrArg Prod.fst heq) hg
          rw [heq] at hafter
          cases h
          exact hafter
        · next report after heq =>
          have hafter := hplayed notes g report (congrArg Prod.fst heq) hg
          rw [heq] at hafter
          exact ih h hafter

/-- What steps and requests keep, a run keeps. -/
theorem runTurns_keeps {I : Game → Prop} (hstep : ∀ g, I g → I g.step.2)
    (hrequest : ∀ g r, I g → I (g.request r)) {Notes : Type} {observer : Observer Notes} {n : Nat}
    {notes notes' : Notes} {g g' : Game} (h : runTurns observer n notes g = .ok (notes', g'))
    (hg : I g) : I g' := by
  have hrequests (requests : List Request) {g : Game} (hg : I g) :
      I (requests.foldl request g) := by
    induction requests generalizing g with
    | nil => exact hg
    | cons r requests ih => exact ih (hrequest g r hg)
  exact runTurns_keeps_notes (I := fun _ g => I g) (fun _ g _ _ hg => hrequests _ (hstep g hg))
    (fun _ g _ _ hg => hstep g hg) h hg

theorem run_keeps {I : Game → Prop} (hstep : ∀ g, I g → I g.step.2)
    (hrequest : ∀ g r, I g → I (g.request r)) {Notes : Type} {observer : Observer Notes}
    {notes notes' : Notes} {g g' : Game} (h : g.run observer notes = .ok (notes', g'))
    (hg : I g) : I g' := by
  unfold run at h
  split at h
  · cases h
  · exact runTurns_keeps hstep hrequest h hg

/-- What holds when a game begins, and what steps, requests and new parameters keep, every operation
keeps. -/
theorem Operation.keeps {I : Game → Prop} (hbegin : ∀ (g : Game) teams, I (g.begin teams))
    (hstep : ∀ g, I g → I g.step.2) (hconfig : ∀ g config, I g → I (g.setConfig config))
    (hrequest : ∀ g r, I g → I (g.request r)) {g g' : Game} (hop : Operation g g') (hg : I g) :
    I g' := by
  cases hop with
  | begin teams => exact hbegin g teams
  | step => exact hstep g hg
  | run hrun => exact run_keeps hstep hrequest hrun hg
  | swap hswap =>
    unfold Game.swap at hswap
    split at hswap <;> cases hswap
    exact hbegin g _
  | setConfig config => exact hconfig g config hg
  | request r => exact hrequest g r hg

theorem event_of_operation {g g' : Game} (h : Operation g g') :
    Relation.ReflTransGen Event g g' := by
  cases h with
  | begin teams => exact .single (.begin teams)
  | step => exact event_of_step g
  | run hrun =>
    exact run_keeps (I := Relation.ReflTransGen Event g)
      (fun g' hg' => hg'.trans (event_of_step g')) (fun _ _ hg' => hg'.tail (.flag _)) hrun .refl
  | swap h =>
    unfold swap at h
    split at h <;> cases h
    exact .single (.begin _)
  | setConfig config =>
    refine .head (.configure config) ?_
    unfold Game.setConfig
    dsimp only
    split
    · next hphase =>
      unfold endAtLimit
      split
      · exact .single (.finish hphase)
      · exact .refl
    · exact .refl
  | request r => exact .single (.flag _)

/-- What every event keeps, every course keeps. -/
theorem Course.keeps {I : Game → Prop} (hevent : ∀ g g', Event g g' → I g → I g')
    {g g' : Game} (h : Course g g') (hg : I g) : I g' := by
  have hevents : ∀ {g g'}, Relation.ReflTransGen Event g g' → I g → I g' := by
    intro g g' h hg
    induction h with
    | refl => exact hg
    | tail _ h ih => exact hevent _ _ h ih
  induction h with
  | refl => exact hg
  | tail _ h ih => exact hevents (event_of_operation h) ih

/-- What is so whenever a game begins on the ground that was loaded, and is kept by turns whatever
the settings are, every course keeps. -/
theorem Course.keeps_play {I : Game → Prop} {start g : Game} (h : Course start g) (hstart : I start)
    (hbegin : ∀ (g : Game) (teams : Teams), g.home = start.home → I (g.begin teams))
    (hturn : ∀ (g : Game) (teams : Teams), g.teams? = some teams → I g → I (g.playTurn teams).2)
    (hsettings : ∀ (g : Game) (config : Config) (phase : Phase) (flags : Flags),
      I g → I { g with config, phase, flags }) : I g := by
  refine (h.keeps (I := fun g => I g ∧ g.home = start.home) ?_ ⟨hstart, rfl⟩).1
  rintro g₁ g₂ hevent ⟨hg, hhome⟩
  cases hevent with
  | begin teams => exact ⟨hbegin g₁ teams hhome, hhome⟩
  | @turn teams _ hteams _ =>
    exact ⟨hturn g₁ teams hteams hg, (Frame.playTurn g₁ teams).home.trans hhome⟩
  | finish _ => exact ⟨hsettings g₁ g₁.config .finished g₁.flags hg, hhome⟩
  | configure config => exact ⟨hsettings g₁ config g₁.phase g₁.flags hg, hhome⟩
  | flag flags => exact ⟨hsettings g₁ g₁.config g₁.phase flags hg, hhome⟩

theorem Course.home_eq {g g' : Game} (h : Course g g') : g'.home = g.home :=
  h.keeps_play (I := fun g' => g'.home = g.home) rfl (fun _ _ hhome => hhome)
    (fun g₁ teams _ hhome => (Frame.playTurn g₁ teams).home.trans hhome) fun _ _ _ _ hhome => hhome

theorem size_ants_begin (g : Game) (teams : Teams) :
    (g.begin teams).ants.size = g.home.hills.length := by
  show (newborns g.home).size = _
  simp [newborns]

/-- There is one ant at most for each hill of the loaded ground. -/
theorem size_ants_le_of_course {ground : Ground} {config : Config} {g : Game}
    (h : Course (load ground config) g) : g.ants.size ≤ ground.hills.length := by
  refine h.keeps_play (I := fun g => g.ants.size ≤ ground.hills.length) (Nat.zero_le _) ?_ ?_
    fun _ _ _ _ hg => hg
  · intro g teams hhome
    rw [size_ants_begin, hhome]
    exact Nat.le_refl _
  · intro g teams _ hg
    rw [(Frame.playTurn g teams).size]
    exact hg

theorem begun_of_running {ground : Ground} {config : Config} {g : Game}
    (h : Course (load ground config) g) (hrunning : g.phase = .running) : g.teams?.isSome := by
  refine Course.keeps (I := fun g => g.phase = .running → g.teams?.isSome) ?_ h ?_ hrunning
  · intro g₁ g₂ hevent hg
    cases hevent with
    | begin teams => exact fun _ => rfl
    | @turn teams _ hteams _ =>
      rw [(Frame.playTurn g₁ teams).teams, hteams]
      exact fun _ => rfl
    | finish _ => exact fun h => nomatch h
    | configure config => exact hg
    | flag flags => exact hg
  · exact fun h => nomatch h

/-- A game begins from the loaded ground and the parameters, whatever has been played before. -/
theorem begin_eq {g g' : Game} (hhome : g.home = g'.home) (hconfig : g.config = g'.config)
    (teams : Teams) : g.begin teams = g'.begin teams := by
  unfold begin
  rw [hhome, hconfig]

theorem Course.begin_eq_load {ground : Ground} {config : Config} {g : Game}
    (h : Course (load ground config) g) (teams : Teams) :
    g.begin teams = (load ground g.config).begin teams := by
  have hhome : g.home = (load ground g.config).home := h.home_eq
  exact begin_eq hhome rfl teams

end Game

end AntContest

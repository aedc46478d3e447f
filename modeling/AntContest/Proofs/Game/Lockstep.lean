import AntContest.Proofs.Game.Stepping

/-! # Games in lockstep

A `Recast` gives to every game another one, in which the ants may be of other colonies and the
teams others, but every ant has its brain still.  What it has to go along with is asked for in two
parts.

* `Tracks`: with all that a turn is made of, up to the look at the limit of turns.  This is
  following an instruction, changes of an ant and removals, the scores and the choice of victims.
  Every slot of the recast game is then that of the game, recast (`Tracks.slot`), and so is all that
  is played out in a turn (`Tracks.playOut`).
* `Faithful`: with the course of a game too, that is with its phase, the requests and the limit.
  Then the two games go on in lockstep: every turn and every step of the recast game is that of the
  game, recast (`Faithful.playTurn`, `Faithful.step`), and so is every number of steps
  (`Faithful.steps`).

What this asks of the parameters and the brains of a game is the condition `P`; steps do not change
these. -/

namespace AntContest

namespace Game

/-- Another game for every game, with other colonies and other teams. -/
structure Recast where
  game : Game → Game
  colony : Colony → Colony
  teams : Teams → Teams

namespace Recast

def ant (r : Recast) (a : Ant) : Ant := { a with colony := r.colony a.colony }

def kill (r : Recast) (k : Kill) : Kill := { k with colony := r.colony k.colony }

def report (r : Recast) (report : TurnReport) : TurnReport :=
  { report with kills := report.kills.map r.kill }

/-- What is played out in a turn comes to the same before the recast and after it. -/
structure Tracks (r : Recast) (P : Config → Teams → Prop) : Prop where
  ants : ∀ g, (r.game g).ants = g.ants.map r.ant
  brain : ∀ teams c, (r.teams teams).brain (r.colony c) = teams.brain c
  turn : ∀ g, (r.game g).turn = g.turn
  encircled : ∀ g, (r.game g).encircled = g.encircled
  faulted : ∀ g, (r.game g).faulted = g.faulted
  withTurn : ∀ g turn, r.game { g with turn } = { r.game g with turn }
  withEncircled : ∀ g encircled, r.game { g with encircled } = { r.game g with encircled }
  withFaulted : ∀ g faulted, r.game { g with faulted } = { r.game g with faulted }
  modifyAnt : ∀ g i f, (∀ a, r.ant (f a) = f (r.ant a)) →
    r.game (g.modifyAnt i f) = (r.game g).modifyAnt i f
  removeAnt : ∀ g i bonus, r.game (g.removeAnt i bonus) = (r.game g).removeAnt i bonus
  recount : ∀ g, r.game g.recount = (r.game g).recount
  victims : ∀ g, (r.game g).victims = g.victims.map r.kill
  perform : ∀ g teams i a instruction, P g.config teams →
    (teams.brain a.colony).state? a.state.val = some instruction →
    (r.game g).perform i (r.ant a) instruction =
      ((g.perform i a instruction).1, r.game (g.perform i a instruction).2)

/-- The course of a game, too, is the same before the recast and after it. -/
structure Faithful (r : Recast) (P : Config → Teams → Prop) : Prop extends Tracks r P where
  teams : ∀ g, (r.game g).teams? = g.teams?.map r.teams
  phase : ∀ g, (r.game g).phase = g.phase
  flags : ∀ g, (r.game g).flags = g.flags
  withPhase : ∀ g phase, r.game { g with phase } = { r.game g with phase }
  limit : ∀ g teams, P g.config teams → (r.game g).config.maxTurns = g.config.maxTurns

section

variable {r : Recast} {P : Config → Teams → Prop} {g : Game} {teams : Teams}

namespace Tracks

theorem mono {Q : Config → Teams → Prop} (h : r.Tracks P)
    (himp : ∀ config teams, Q config teams → P config teams) : r.Tracks Q :=
  { h with
    perform := fun g teams i a instruction hQ =>
      h.perform g teams i a instruction (himp _ _ hQ) }

theorem getElem?_ants (h : r.Tracks P) (g : Game) (i : Nat) :
    (r.game g).ants[i]? = g.ants[i]?.map r.ant := by
  rw [h.ants, Array.getElem?_map]

/-! ### The slots of a turn -/

theorem slot (h : r.Tracks P) (hP : P g.config teams) (i : Nat) :
    (r.game g).slot (r.teams teams) i = (r.game (g.slot teams i).1, (g.slot teams i).2) := by
  cases hant : g.ants[i]? with
  | none =>
    have hant' : (r.game g).ants[i]? = none := by rw [h.getElem?_ants, hant]; rfl
    rw [slot_of_absent hant, slot_of_absent hant']
  | some ant =>
    have hant' : (r.game g).ants[i]? = some (r.ant ant) := by rw [h.getElem?_ants, hant]; rfl
    have hbrain : (r.teams teams).brain (r.ant ant).colony = teams.brain ant.colony :=
      h.brain teams ant.colony
    cases halive : ant.alive with
    | false => rw [slot_of_dead hant halive, slot_of_dead hant' halive]
    | true =>
      rcases Nat.eq_zero_or_pos ant.resting with hrest | hrest
      · cases hstate : (teams.brain ant.colony).state? ant.state.val with
        | none =>
          have hstate' : ((r.teams teams).brain (r.ant ant).colony).state? (r.ant ant).state.val =
              none := by rw [hbrain]; exact hstate
          rw [slot_of_fault hant halive hrest hstate, slot_of_fault hant' halive hrest hstate',
            hbrain, ← h.removeAnt, h.faulted]
          exact congrArg (·, _) (h.withFaulted (g.removeAnt i 0) _).symm
        | some instruction =>
          have hstate' : ((r.teams teams).brain (r.ant ant).colony).state? (r.ant ant).state.val =
              some instruction := by rw [hbrain]; exact hstate
          rw [slot_of_instruction hant halive hrest hstate,
            slot_of_instruction hant' halive hrest hstate',
            h.perform g teams i ant instruction hP hstate]
          refine congrArg (·, none) (Eq.symm ?_)
          exact h.modifyAnt _ i _ fun _ => rfl
      · rw [slot_of_resting hant halive hrest, slot_of_resting hant' halive hrest]
        refine congrArg (·, none) (Eq.symm ?_)
        exact h.modifyAnt g i _ fun _ => rfl

theorem slots (h : r.Tracks P) (hP : P g.config teams) (is : List Nat) :
    Game.slots (r.teams teams) is (r.game g) =
      (r.game (Game.slots teams is g).1, (Game.slots teams is g).2) := by
  induction is generalizing g with
  | nil => rfl
  | cons i is ih =>
    have hnext : P (g.slot teams i).1.config teams := by
      rw [(Frame.slot g teams i).config]
      exact hP
    rw [slots_cons, slots_cons, h.slot hP]
    dsimp only
    rw [ih hnext]

/-! ### The end of a turn -/

theorem bury (h : r.Tracks P) (g : Game) (kills : List Kill) :
    r.game (g.bury kills) = (r.game g).bury (kills.map r.kill) := by
  induction kills generalizing g with
  | nil => rfl
  | cons k kills ih =>
    have hrest := ih (g.removeAnt k.ant encirclementBonus)
    rw [h.removeAnt] at hrest
    exact hrest

theorem kill (h : r.Tracks P) (g : Game) (kills : List Kill) :
    r.game (g.kill kills) = (r.game g).kill (kills.map r.kill) := by
  unfold Game.kill
  rw [List.isEmpty_map]
  split
  · rfl
  · dsimp only
    rw [h.recount, h.withEncircled, List.length_map, ← h.bury, h.encircled]

/-- What is played out in a turn of the recast game is what is played out in the game, recast. -/
theorem playOut (h : r.Tracks P) (hP : P g.config teams) :
    (r.game g).playOut (r.teams teams) =
      (r.report (g.playOut teams).1, r.game (g.playOut teams).2) := by
  have hsize : (r.game g).ants.size = g.ants.size := by rw [h.ants, Array.size_map]
  generalize hdone : (Game.slots teams (List.range g.ants.size) g).1.recount = done
  unfold Game.playOut
  rw [hsize, h.slots hP]
  dsimp only
  rw [← h.recount, hdone, h.victims, ← h.kill, h.turn]
  exact congrArg (_, ·) (h.withTurn (done.kill done.victims) _).symm

end Tracks

namespace Faithful

theorem endAtLimit (h : r.Faithful P) (hP : P g.config teams) :
    r.game g.endAtLimit = (r.game g).endAtLimit := by
  unfold Game.endAtLimit
  by_cases hlast : g.config.maxTurns.toNat ≤ g.turn
  · have hlast' : (r.game g).config.maxTurns.toNat ≤ (r.game g).turn := by
      rw [h.limit g teams hP, h.turn]
      exact hlast
    rw [if_pos hlast, if_pos hlast', h.withPhase]
  · have hlast' : ¬ (r.game g).config.maxTurns.toNat ≤ (r.game g).turn := by
      rw [h.limit g teams hP, h.turn]
      exact hlast
    rw [if_neg hlast, if_neg hlast']

theorem playTurn (h : r.Faithful P) (hP : P g.config teams) :
    (r.game g).playTurn (r.teams teams) =
      (r.report (g.playTurn teams).1, r.game (g.playTurn teams).2) := by
  have hconfig : (g.playOut teams).2.config = g.config := (Frame.playOut g teams).config
  have hout : P (g.playOut teams).2.config teams := hconfig ▸ hP
  rw [playTurn_eq_playOut, playTurn_eq_playOut, h.playOut hP, h.endAtLimit hout]

/-! ### Steps -/

/-- A step of the recast game is the step of the game, recast. -/
theorem step (h : r.Faithful P) (hP : ∀ teams, g.teams? = some teams → P g.config teams) :
    (r.game g).step = (g.step.1.map r.report, r.game g.step.2) := by
  cases hphase : g.phase with
  | finished =>
    rw [step_of_finished hphase, step_of_finished ((h.phase g).trans hphase)]
    rfl
  | notStarted =>
    have hphase' : (r.game g).phase = .notStarted := (h.phase g).trans hphase
    rw [step_of_unready (g := g) (by simp [hphase]) (by simp [hphase]),
      step_of_unready (g := r.game g) (by simp [hphase']) (by simp [hphase'])]
    rfl
  | running =>
    have hphase' : (r.game g).phase = .running := (h.phase g).trans hphase
    cases hteams : g.teams? with
    | none =>
      have hteams' : (r.game g).teams? = none := by rw [h.teams, hteams]; rfl
      rw [step_of_unready (g := g) (by simp [hphase]) fun _ => hteams,
        step_of_unready (g := r.game g) (by simp [hphase']) fun _ => hteams']
      rfl
    | some teams =>
      have hteams' : (r.game g).teams? = some (r.teams teams) := by rw [h.teams, hteams]; rfl
      cases hstop : g.flags.stopped with
      | true =>
        have hstop' : (r.game g).flags.stopped = true := by rw [h.flags, hstop]
        rw [step_of_stopped hphase hteams hstop, step_of_stopped hphase' hteams' hstop',
          ← h.withPhase]
        rfl
      | false =>
        have hstop' : (r.game g).flags.stopped = false := by rw [h.flags, hstop]
        rw [step_of_running hphase hteams hstop, step_of_running hphase' hteams' hstop',
          h.playTurn (hP teams hteams)]
        rfl

theorem steps (h : r.Faithful P) (hP : ∀ teams, g.teams? = some teams → P g.config teams)
    (n : Nat) : (r.game g).steps n = r.game (g.steps n) := by
  induction n with
  | zero => rfl
  | succ n ih =>
    obtain ⟨hconfig, hteams, -⟩ := settings_steps g n
    rw [steps_succ, steps_succ, ih, h.step (by rw [hconfig, hteams]; exact hP)]

end Faithful

end

end Recast

end Game

end AntContest

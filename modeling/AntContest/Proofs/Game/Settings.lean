import AntContest.Cup.Result
import AntContest.Proofs.Game.Effect
import AntContest.Proofs.Game.Lockstep

/-! # The same play under other settings

The settings of a game are its parameters, its phase and the requests to hold or to end it; the rest
of it is the play itself.  Two games can be the same but for their settings (`SamePlay`).

Of the settings a turn reads the rest after a step while it is played out, and the limit of turns at
its end.  So games of the same play and the same rest have the same turn, with the same report, and
go on with the same play (`SamePlay.playTurn`); what sets them apart is when they are over.  The
random source is not read either, as long as no brain flips.

* `rebasing`: other settings and another random source as another game for every game, and what is
  played out in a turn goes along with it (`tracks_rebasing`).
* `resettling`: other settings alone (`tracks_resettling`, `playOut_resettle`).
* `samePlay_setConfig` and its neighbours: the operations that play no turn keep the play. -/

namespace AntContest

/-- A program without flips. -/
def Brain.Flipless (b : Brain) : Prop := ∀ i ∈ b.states, i.isFlip = false

instance (b : Brain) : Decidable b.Flipless :=
  inferInstanceAs (Decidable (∀ i ∈ b.states, i.isFlip = false))

/-- Two programs without flips. -/
def Teams.Flipless (t : Teams) : Prop := ∀ c, (t.brain c).Flipless

theorem Teams.flipless_mk {red black : Brain} (hred : red.Flipless) (hblack : black.Flipless) :
    (Teams.mk red black).Flipless
  | .red => hred
  | .black => hblack

namespace Game

/-! ### Other settings, and another random source -/

section Rebase

variable (config : Config → Config) (phase : Phase → Phase) (flags : Flags → Flags)
  (random : Random → Random)

/-- The game with other settings and another random source. -/
def rebase (g : Game) : Game :=
  { g with
    config := config g.config, phase := phase g.phase, flags := flags g.flags
    random := random g.random }

/-- Of the settings an instruction reads the rest after a step, and the random source only if it
is a flip. -/
theorem perform_rebase {g : Game}
    (hrest : (config g.config).restAfterMove = g.config.restAfterMove) (i : Nat) (ant : Ant)
    {instruction : Instruction} (hflip : random = id ∨ instruction.isFlip = false) :
    (g.rebase config phase flags random).perform i ant instruction =
      ((g.perform i ant instruction).1,
        (g.perform i ant instruction).2.rebase config phase flags random) := by
  cases instruction with
  | sense view onTrue onFalse condition => rfl
  | mark m next => rfl
  | unmark m next => rfl
  | pickUp onSuccess onFailure =>
    unfold perform
    dsimp only
    rw [show (g.rebase config phase flags random).ground = g.ground from rfl]
    generalize (if ant.carrying then none
      else (g.ground.cell? ant.position).bind Cell.take?) = taken
    cases taken <;> rfl
  | drop next =>
    unfold perform
    dsimp only
    rw [show (g.rebase config phase flags random).ground = g.ground from rfl]
    split <;> rfl
  | turn side next => rfl
  | move onSuccess onFailure =>
    unfold perform
    dsimp only
    rw [show (g.rebase config phase flags random).stepTarget? ant = g.stepTarget? ant from rfl,
      show (g.rebase config phase flags random).config = config g.config from rfl, hrest]
    cases g.stepTarget? ant <;> rfl
  | flip die onZero onOther =>
    obtain rfl : random = id := hflip.resolve_right nofun
    unfold perform
    dsimp only
    rw [show (g.rebase config phase flags id).random = g.random from rfl]
    generalize (if (g.random.draw die.val).1 = 0 then onZero else onOther) = next
    rfl

theorem removeAnt_rebase (g : Game) (i : Nat) (bonus : UInt32) :
    (g.rebase config phase flags random).removeAnt i bonus =
      (g.removeAnt i bonus).rebase config phase flags random := by
  unfold removeAnt
  rw [show (g.rebase config phase flags random).ants = g.ants from rfl]
  cases g.ants[i]? <;> rfl

/-- Other settings and another random source as another game for every game. -/
def rebasing : Recast := ⟨rebase config phase flags random, id, id⟩

/-- What is played out in a turn goes along with other settings of the same rest, and without flips
with another random source too. -/
theorem tracks_rebasing :
    (rebasing config phase flags random).Tracks fun c teams =>
      (config c).restAfterMove = c.restAfterMove ∧ (random = id ∨ teams.Flipless) where
  ants g := (Array.map_id g.ants).symm
  brain _ _ := rfl
  turn _ := rfl
  encircled _ := rfl
  faulted _ := rfl
  withTurn _ _ := rfl
  withEncircled _ _ := rfl
  withFaulted _ _ := rfl
  modifyAnt _ _ _ _ := rfl
  removeAnt g i bonus := (removeAnt_rebase config phase flags random g i bonus).symm
  recount _ := rfl
  victims g := (List.map_id g.victims).symm
  perform _ _ i ant _ h hstate :=
    perform_rebase config phase flags random h.1 i ant
      (h.2.imp_right fun hteams => hteams ant.colony _ (Array.mem_of_getElem? hstate))

theorem report_rebasing (report : TurnReport) :
    (rebasing config phase flags random).report report = report :=
  congrArg (fun kills => { report with kills }) (List.map_id report.kills)

theorem map_report_rebasing (outcome : Except PlayError TurnReport) :
    outcome.map (rebasing config phase flags random).report = outcome := by
  cases outcome with
  | error e => rfl
  | ok report => exact congrArg Except.ok (report_rebasing config phase flags random report)

end Rebase

/-! ### Other settings -/

def resettle (config : Config) (phase : Phase → Phase) (flags : Flags → Flags) (g : Game) : Game :=
  { g with config, phase := phase g.phase, flags := flags g.flags }

/-- Other settings as another game for every game. -/
def resettling (config : Config) (phase : Phase → Phase) (flags : Flags → Flags) : Recast :=
  ⟨resettle config phase flags, id, id⟩

section

variable (config : Config) (phase : Phase → Phase) (flags : Flags → Flags)

theorem tracks_resettling :
    (resettling config phase flags).Tracks fun c _ => c.restAfterMove = config.restAfterMove :=
  (tracks_rebasing (fun _ => config) phase flags id).mono fun _ _ h => ⟨h.symm, .inl rfl⟩

theorem report_resettling (report : TurnReport) :
    (resettling config phase flags).report report = report :=
  report_rebasing (fun _ => config) phase flags id report

theorem playOut_resettle {g : Game} (h : g.config.restAfterMove = config.restAfterMove)
    (teams : Teams) :
    (g.resettle config phase flags).playOut teams =
      ((g.playOut teams).1, (g.playOut teams).2.resettle config phase flags) := by
  show ((resettling config phase flags).game g).playOut
    ((resettling config phase flags).teams teams) = _
  rw [(tracks_resettling config phase flags).playOut h, report_resettling]
  rfl

end

/-! ### Games of the same play -/

/-- The second game differs from the first in its settings at most. -/
def SamePlay (g g' : Game) : Prop :=
  g' = { g with config := g'.config, phase := g'.phase, flags := g'.flags }

namespace SamePlay

variable {g g' g₁ g₂ g₃ : Game}

theorem trans (h : SamePlay g₁ g₂) (h' : SamePlay g₂ g₃) : SamePlay g₁ g₃ := by
  unfold SamePlay at *
  rw [h] at h'
  exact h'

theorem symm (h : SamePlay g g') : SamePlay g' g := by
  unfold SamePlay at *
  rw [h]

theorem ants (h : SamePlay g g') : g'.ants = g.ants := by rw [h]

theorem encircled (h : SamePlay g g') : g'.encircled = g.encircled := by rw [h]

theorem faulted (h : SamePlay g g') : g'.faulted = g.faulted := by rw [h]

theorem turn (h : SamePlay g g') : g'.turn = g.turn := by rw [h]

theorem teams (h : SamePlay g g') : g'.teams? = g.teams? := by rw [h]

theorem endAtLimit (g : Game) : SamePlay g g.endAtLimit := by
  unfold Game.endAtLimit
  split <;> rfl

theorem playTurn (h : SamePlay g g')
    (hrest : g.config.restAfterMove = g'.config.restAfterMove) (teams : Teams) :
    (g'.playTurn teams).1 = (g.playTurn teams).1 ∧
      SamePlay (g.playTurn teams).2 (g'.playTurn teams).2 := by
  have hg' : g.resettle g'.config (fun _ => g'.phase) (fun _ => g'.flags) = g' := Eq.symm h
  have hout := playOut_resettle g'.config (fun _ => g'.phase) (fun _ => g'.flags) hrest teams
  rw [hg'] at hout
  have hsame : SamePlay (g.playOut teams).2 (g'.playOut teams).2 := by
    rw [hout]
    rfl
  have hreport : (g'.playOut teams).1 = (g.playOut teams).1 := by rw [hout]
  exact ⟨hreport, (endAtLimit _).symm.trans (hsame.trans (endAtLimit _))⟩

end SamePlay

/-! ### Operations that keep the play -/

theorem samePlay_setConfig (g : Game) (config : Config) : SamePlay g (g.setConfig config) := by
  have hchanged : SamePlay g { g with config } := rfl
  unfold setConfig
  dsimp only
  split
  · exact hchanged.trans (.endAtLimit _)
  · exact hchanged

theorem samePlay_request (g : Game) (r : Request) : SamePlay g (g.request r) := rfl

theorem foldl_request (g : Game) (requests : List Request) :
    requests.foldl request g = { g with flags := requests.foldl Request.apply g.flags } := by
  induction requests generalizing g with
  | nil => rfl
  | cons r requests ih => exact ih (g.request r)

theorem samePlay_requests (g : Game) (requests : List Request) :
    SamePlay g (requests.foldl request g) := by
  rw [foldl_request]
  rfl

theorem samePlay_of_error {g : Game} {e : PlayError} (h : g.step.1 = .error e) :
    SamePlay g g.step.2 := by
  have hstep := stepResult_step g
  generalize g.step = result at h hstep
  cases hstep with
  | refused e _ => rfl
  | stopped _ _ => rfl
  | played _ _ _ => cases h

end Game

/-- The result of a game depends on its settings by the seed only. -/
theorem GameResult.ofGame_of_samePlay {g g' : Game} (h : Game.SamePlay g g') :
    ofGame g' = { ofGame g with seed := g'.config.seed } := by
  rw [h]
  rfl

end AntContest

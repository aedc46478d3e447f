import AntContest.Game.Act
import AntContest.Game.Encirclement

/-!
# Turns

In a turn every ant has one slot, in the order of the numbers: a dead ant does nothing, a resting
ant rests one turn less, and any other ant acts; an ant that faults is taken out of play.  Then
the scores are taken, the encircled ants die, and the turn is counted.  `Game.step` plays a turn
if the game is in play and nobody asked for its end.
-/

namespace AntContest

/-- What happened in a turn: the turns played with it, the ants killed, and the faults. -/
structure TurnReport where
  turn : Nat
  kills : List Kill
  faults : List Fault
deriving DecidableEq, Repr

/-- Why no turn can be played. -/
inductive PlayError where
  | notStarted
  | finished
deriving DecidableEq, Repr

def PlayError.message : PlayError → String
  | notStarted => "game has not been started"
  | finished => "game is already finished"

namespace Game

/-- The slot of ant `i`, with the fault that happened in it. -/
@[inline] def slot (g : Game) (teams : Teams) (i : Nat) : Game × Option Fault :=
  match g.ants[i]? with
  | none => (g, none)
  | some ant =>
    if !ant.alive then (g, none)
    else if 0 < ant.resting then
      (g.modifyAnt i fun a => { a with resting := a.resting - 1 }, none)
    else
      match g.act teams i ant with
      | (g, none) => (g, none)
      | (g, some fault) =>
        let g := g.removeAnt i 0
        ({ g with faulted := g.faulted + 1 }, some fault)

/-- The slots of the given ants, one after the other, with their faults. -/
def slots (teams : Teams) : List Nat → Game → Game × List Fault
  | [], g => (g, [])
  | i :: is, g =>
    match g.slot teams i with
    | (g, none) => slots teams is g
    | (g, some fault) =>
      let (g, faults) := slots teams is g
      (g, fault :: faults)

/-- The game, over if its last turn has been played. -/
def endAtLimit (g : Game) : Game :=
  if g.config.maxTurns.toNat ≤ g.turn then { g with phase := .finished } else g

/-- Plays a turn. -/
def playTurn (g : Game) (teams : Teams) : TurnReport × Game :=
  let (g, faults) := slots teams (List.range g.ants.size) g
  let g := g.recount
  let kills := g.victims
  let g := g.kill kills
  let g := { g with turn := g.turn + 1 }
  (⟨g.turn, kills, faults⟩, g.endAtLimit)

/-- Plays a turn, if the game is in play.  A request to stop ends it instead. -/
def step (g : Game) : Except PlayError TurnReport × Game :=
  match g.phase, g.teams? with
  | .finished, _ => (.error .finished, g)
  | .running, some teams =>
    if g.flags.stopped then (.error .finished, { g with phase := .finished })
    else
      let (report, g) := g.playTurn teams
      (.ok report, g)
  | _, _ => (.error .notStarted, g)

end Game

end AntContest

import AntContest.Game.Turn

/-!
# Playing games

* `begin` starts a game afresh on the ground as it was loaded: an ant on every hill cell, row by
  row, and the random source seeded anew.  `swap` starts again with the brains exchanged.
* `setConfig` changes the parameters.  A lower limit of turns holds at once; the seed and the
  rest after a step matter where they are next read.
* `run` plays turn after turn until the game is over, with an observer who may ask to hold or to
  end it.  `play` does so without an observer.
-/

namespace AntContest

namespace Game

/-! ### Starting -/

/-- One ant for each hill cell of the loaded ground, numbered in its order. -/
def newborns (ground : Ground) : Array Ant :=
  (ground.hills.zipIdx.map fun ((p, c), i) => Ant.newborn c p i).toArray

/-- The ground with ants set on their cells. -/
def seat : List Ant → Ground → Ground
  | [], ground => ground
  | ant :: ants, ground => seat ants (ground.modify ant.position (·.withOccupant (some ant.id)))

/-- Starts a game of the given brains on the ground as it was loaded.  With a limit of no turns
it is over at once. -/
def begin (g : Game) (teams : Teams) : Game :=
  let ants := newborns g.home
  let ground := seat ants.toList g.home
  let fresh : Game :=
    { home := g.home
      config := g.config
      teams? := some teams
      phase := if g.config.maxTurns = 0 then .finished else .running
      flags := {}
      ground := ground
      ants := ants
      random := .ofSeed g.config.seed
      turn := 0
      redScore := 0
      blackScore := 0
      initialFood := ground.totalFood
      encircled := 0
      faulted := 0 }
  fresh.recount

/-- Starts again with the brains exchanged, if there are any. -/
def swap (g : Game) : Except PlayError Game :=
  match g.teams? with
  | none => .error .notStarted
  | some teams => .ok (g.begin teams.swap)

/-! ### Changing the course of a game -/

/-- Changes the parameters; a game whose limit is reached by that is over. -/
def setConfig (g : Game) (config : Config) : Game :=
  let g := { g with config }
  if g.phase = .running then g.endAtLimit else g

/-- What an observer can ask for. -/
inductive Request where
  | pause
  | resume
  | stop
deriving DecidableEq, Repr

/-- The flags after a request. -/
def Request.apply (f : Flags) : Request → Flags
  | pause => { f with paused := true }
  | resume => { f with paused := false }
  | stop => { f with stopped := true }

def request (g : Game) (r : Request) : Game :=
  { g with flags := r.apply g.flags }

/-! ### Running -/

/-- One who is shown the game and the report after each turn, keeps notes, and may ask for
something. -/
abbrev Observer (Notes : Type) := Notes → Game → TurnReport → Notes × List Request

/-- Why a game cannot be run to its end: it has not begun, or it is on hold and nobody is there
who could let it go on. -/
inductive RunError where
  | notStarted
  | onHold
deriving DecidableEq, Repr

/-- Plays until the game is over, for at most the given number of turns. -/
def runTurns {Notes : Type} (observer : Observer Notes) :
    Nat → Notes → Game → Except RunError (Notes × Game)
  | 0, notes, g => .ok (notes, g)
  | n + 1, notes, g =>
    if g.phase ≠ .running then .ok (notes, g)
    else if g.flags.paused && !g.flags.stopped then .error .onHold
    else
      match g.step with
      | (.error _, g) => .ok (notes, g)
      | (.ok report, g) =>
        let (notes, requests) := observer notes g report
        runTurns observer n notes (requests.foldl request g)

/-- The turns that are left, and one more slot for a request to stop. -/
def turnsLeft (g : Game) : Nat :=
  g.config.maxTurns.toNat - g.turn + 1

/-- Plays until the game is over, with an observer. -/
def run {Notes : Type} (g : Game) (observer : Observer Notes) (notes : Notes) :
    Except RunError (Notes × Game) :=
  if g.phase = .notStarted then .error .notStarted
  else runTurns observer g.turnsLeft notes g

/-- Plays at most `n` turns. -/
def stepMany : Nat → Game → Game
  | 0, g => g
  | n + 1, g =>
    match g.step with
    | (.error _, g) => g
    | (.ok _, g) => stepMany n g

/-- Plays until the game is over; nobody asks for a pause. -/
def play (g : Game) : Game :=
  stepMany g.turnsLeft g

/-! ### Snapshots -/

/-- What can be seen of a game between two turns. -/
structure Snapshot where
  ground : Ground
  ants : Array Ant
  turn : Nat
  redScore : UInt32
  blackScore : UInt32
  phase : Phase
deriving DecidableEq

def Snapshot.score (s : Snapshot) : Colony → UInt32
  | .red => s.redScore
  | .black => s.blackScore

def snapshot (g : Game) : Snapshot :=
  ⟨g.ground, g.ants, g.turn, g.score .red, g.score .black, g.phase⟩

end Game

end AntContest

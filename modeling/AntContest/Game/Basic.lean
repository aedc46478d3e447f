import AntContest.Random
import AntContest.Ground.Basic
import AntContest.Brain.Basic

/-!
# The state of a game

A game is played on a ground by the ants of two colonies.  The ground as it was loaded is kept,
so that a game can be started again; everything that play changes stands beside it.

* `Config` holds the parameters of a game, `Phase` its place in its life.
* An ant carries its number, by which cells and reports name it.
* The scores are kept beside the ground and are taken anew by `Game.recount`.
* Turns, rests and deaths are counted by natural numbers, which stay below `2 ^ 32`
  (`Game.fitsWords_of_course`).
-/

namespace AntContest

/-- The parameters of a game: the seed of its random source, the number of turns after which it
ends, the turns that an ant rests after a step, and a pause between turns in milliseconds, which
never changes what happens. -/
structure Config where
  seed : Int64 := 12345
  maxTurns : UInt32 := 300000
  restAfterMove : UInt32 := 14
  pacing : UInt64 := 0
deriving DecidableEq, Repr

/-- Not yet begun, in play, or over. -/
inductive Phase where
  | notStarted
  | running
  | finished
deriving DecidableEq, Repr

/-- The brains of the two colonies. -/
structure Teams where
  red : Brain
  black : Brain
deriving DecidableEq

namespace Teams

def brain (t : Teams) : Colony → Brain
  | .red => t.red
  | .black => t.black

/-- The teams with the brains exchanged. -/
def swap (t : Teams) : Teams :=
  ⟨t.black, t.red⟩

end Teams

/-- An ant with its number; a dead ant keeps the position where it died. -/
structure Ant where
  id : Nat
  colony : Colony
  position : Position
  state : StateIndex
  facing : Direction
  carrying : Bool
  resting : Nat
  alive : Bool
deriving DecidableEq, Repr

/-- A new ant: in the first state, facing east, with nothing to carry. -/
def Ant.newborn (colony : Colony) (position : Position) (id : Nat := 0) : Ant :=
  ⟨id, colony, position, ⟨0, by decide⟩, .east, false, 0, true⟩

/-- Requests to hold or to end a game, honoured between turns. -/
structure Flags where
  paused : Bool := false
  stopped : Bool := false
deriving DecidableEq, Repr

/-- A game at a moment between or within its turns. -/
structure Game where
  /-- The ground as it was loaded. -/
  home : Ground
  config : Config
  teams? : Option Teams
  phase : Phase
  flags : Flags
  /-- The ground as it is now. -/
  ground : Ground
  ants : Array Ant
  random : Random
  /-- Turns played. -/
  turn : Nat
  /-- Food on the hills of red when the scores were last taken. -/
  redScore : UInt32
  /-- Food on the hills of black when the scores were last taken. -/
  blackScore : UInt32
  /-- Food that lay on the ground when the game began. -/
  initialFood : Nat
  /-- Ants killed by encirclement in this game. -/
  encircled : Nat
  /-- Ants lost to faults of their brains in this game. -/
  faulted : Nat
deriving DecidableEq

namespace Game

/-- A game that has not begun. -/
def load (ground : Ground) (config : Config) : Game where
  home := ground
  config := config
  teams? := none
  phase := .notStarted
  flags := {}
  ground := ground
  ants := #[]
  random := .ofSeed config.seed
  turn := 0
  redScore := 0
  blackScore := 0
  initialFood := ground.totalFood
  encircled := 0
  faulted := 0

/-- The score of a colony; there is none before play has begun. -/
def score (g : Game) : Colony → UInt32
  | .red => g.redScore
  | .black => g.blackScore

/-- Takes the scores anew: the food on the hills of each colony. -/
def recount (g : Game) : Game :=
  { g with redScore := g.ground.hillFood .red, blackScore := g.ground.hillFood .black }

def aliveCount (g : Game) (c : Colony) : Nat :=
  g.ants.countP fun a => a.alive && a.colony == c

/-- The living ants of a colony that carry food. -/
def carryingCount (g : Game) (c : Colony) : Nat :=
  g.ants.countP fun a => a.alive && a.colony == c && a.carrying

/-- Food held by living ants. -/
def carriedFood (g : Game) : Nat :=
  g.ants.countP fun a => a.alive && a.carrying

def teamName? (g : Game) (c : Colony) : Option String :=
  g.teams?.map fun t => (t.brain c).name

/-- The ant on a cell. -/
@[inline] def antOn? (g : Game) (cell : Cell) : Option Ant :=
  cell.occupant.bind (g.ants[·]?)

/-- The ant on a cell, with its number. -/
def occupant? (g : Game) (cell : Cell) : Option (Nat × Ant) :=
  cell.occupant.bind fun i => g.ants[i]?.map fun a => (i, a)

@[inline] def modifyAnt (g : Game) (i : Nat) (f : Ant → Ant) : Game :=
  { g with ants := g.ants.modify i f }

@[inline] def modifyCell (g : Game) (p : Position) (f : Cell → Cell) : Game :=
  { g with ground := g.ground.modify p f }

end Game

end AntContest

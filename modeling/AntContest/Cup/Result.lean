import AntContest.Game.Play

/-!
# Results of games, matches and cups

A game is won by the colony with more food on its hills.  A match is a series of games between two
brains, and a cup a series of rounds of matches from which the losers drop out.
-/

namespace AntContest

structure GameResult where
  red : String
  black : String
  redScore : UInt32
  blackScore : UInt32
  redAlive : Nat
  blackAlive : Nat
  encircled : Nat
  faulted : Nat
  turnsPlayed : Nat
  seed : Int64
deriving DecidableEq, Repr

namespace GameResult

/-- The result of a game as it stands; a colony without a brain has no name. -/
def ofGame (g : Game) : GameResult where
  red := (g.teamName? .red).getD ""
  black := (g.teamName? .black).getD ""
  redScore := g.score .red
  blackScore := g.score .black
  redAlive := g.aliveCount .red
  blackAlive := g.aliveCount .black
  encircled := g.encircled
  faulted := g.faulted
  turnsPlayed := g.turn
  seed := g.config.seed

def score (r : GameResult) : Colony → UInt32
  | .red => r.redScore
  | .black => r.blackScore

def name (r : GameResult) : Colony → String
  | .red => r.red
  | .black => r.black

/-- The colony with the higher score. -/
def winner? (r : GameResult) : Option Colony :=
  if r.blackScore < r.redScore then some .red
  else if r.redScore < r.blackScore then some .black
  else none

def winnerName? (r : GameResult) : Option String :=
  r.winner?.map r.name

end GameResult

/-- What decided a match. -/
inductive Decision where
  /-- One brain won more games. -/
  | points
  /-- The games were level, and one brain collected more food. -/
  | food
  /-- All was level; the name that comes first goes on. -/
  | name
deriving DecidableEq, Repr

structure MatchResult where
  first : String
  second : String
  games : List GameResult
  firstPoints : Nat
  secondPoints : Nat
  firstFood : Nat
  secondFood : Nat
  winner : String
  decidedBy : Decision
deriving DecidableEq, Repr

/-- A round of a cup, with the entrant that went on without a match. -/
structure CupRound where
  results : List MatchResult
  bye? : Option String
deriving DecidableEq, Repr

/-- The result of a cup; the bracket lists the entrants in the order of the draw. -/
structure CupResult where
  bracket : List String
  rounds : List CupRound
  champion : String
deriving DecidableEq, Repr

end AntContest

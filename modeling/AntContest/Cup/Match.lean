import AntContest.Cup.Result

/-!
# Games and matches

`playGame` plays one game to its end.  A match goes over rounds of two games, in which the brains
exchange their colours; the seed grows by one from round to round.  A game won is a point, and the
match ends with the first round after which the points differ, or with the last one allowed.
-/

namespace AntContest

/-- The parameters of a match: those of its games, and the most rounds. -/
structure CupConfig where
  game : Config := {}
  maxRounds : UInt32 := 5
deriving DecidableEq, Repr

/-- Plays one game on a ground. -/
def playGame (ground : Ground) (teams : Teams) (config : Config) : GameResult :=
  .ofGame (((Game.load ground config).begin teams).play)

/-- The games of a match so far, the last one first, with what the two brains got out of them. -/
structure Tally where
  games : List GameResult := []
  firstPoints : Nat := 0
  secondPoints : Nat := 0
  firstFood : Nat := 0
  secondFood : Nat := 0
deriving DecidableEq, Repr

namespace Tally

/-- Counts a game in which the first brain played one of the colonies. -/
def add (t : Tally) (firstColony : Colony) (r : GameResult) : Tally :=
  let own := r.score firstColony
  let other := r.score firstColony.foe
  { games := r :: t.games
    firstPoints := t.firstPoints + (decide (other < own)).toNat
    secondPoints := t.secondPoints + (decide (own < other)).toNat
    firstFood := t.firstFood + own.toNat
    secondFood := t.secondFood + other.toNat }

/-- Whether the first brain has won, and what decided that. -/
def outcome (t : Tally) (first second : String) : Bool × Decision :=
  if t.firstPoints ≠ t.secondPoints then (t.secondPoints < t.firstPoints, .points)
  else if t.firstFood ≠ t.secondFood then (t.secondFood < t.firstFood, .food)
  else (!(second < first), .name)

end Tally

/-- The parameters of the games of a round. -/
def roundConfig (config : Config) (round : Nat) : Config :=
  { config with seed := config.seed + Int64.ofNat round }

/-- Plays the two games of a round. -/
def playRound (ground : Ground) (first second : Brain) (config : Config) (t : Tally) : Tally :=
  (t.add .red (playGame ground ⟨first, second⟩ config)).add .black
    (playGame ground ⟨second, first⟩ config)

/-- Plays at most `left` rounds, from number `round` on, until the points differ. -/
def playRounds (ground : Ground) (first second : Brain) (config : Config) :
    Nat → Nat → Tally → Tally
  | 0, _, t => t
  | left + 1, round, t =>
    let t := playRound ground first second (roundConfig config round) t
    if t.firstPoints ≠ t.secondPoints then t
    else playRounds ground first second config left (round + 1) t

/-- The rounds that a match may have; there is always one. -/
def CupConfig.rounds (config : CupConfig) : Nat :=
  max 1 config.maxRounds.toNat

def playMatch (ground : Ground) (first second : Brain) (config : CupConfig) : MatchResult :=
  let t := playRounds ground first second config.game config.rounds 0 {}
  let (firstWins, decidedBy) := t.outcome first.name second.name
  { first := first.name
    second := second.name
    games := t.games.reverse
    firstPoints := t.firstPoints
    secondPoints := t.secondPoints
    firstFood := t.firstFood
    secondFood := t.secondFood
    winner := if firstWins then first.name else second.name
    decidedBy := decidedBy }

end AntContest

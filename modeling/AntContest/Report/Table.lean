import AntContest.Cup.Result

/-!
# Cups as comma-separated tables

One line for each game of a cup, in the order of rounds, matches and games, under a line of column
names.  Rounds, matches and games are counted from one.  Names are written as they are.
-/

namespace AntContest

/-- A game of a cup with the places of its round, match and game, from zero. -/
structure PlacedGame where
  round : Nat
  pairing : Nat
  game : Nat
  result : GameResult
deriving DecidableEq, Repr

/-- All games of a cup in their order. -/
def CupResult.placedGames (r : CupResult) : List PlacedGame :=
  r.rounds.zipIdx.flatMap fun (round, i) =>
    round.results.zipIdx.flatMap fun (m, j) =>
      m.games.zipIdx.map fun (g, k) => ⟨i, j, k, g⟩

/-- The fields of a game. -/
def PlacedGame.columns (p : PlacedGame) : List String :=
  let r := p.result
  [toString (p.round + 1), toString (p.pairing + 1), toString (p.game + 1), toString r.seed.toInt,
    r.red, r.black, toString r.redScore.toNat, toString r.blackScore.toNat,
    r.winnerName?.getD "draw", toString r.turnsPlayed]

/-- The names of the columns. -/
def tableHeader : List String :=
  ["round", "match", "game", "seed", "red", "black", "red_score", "black_score", "winner",
    "turns"]

def tableLine (columns : List String) : String :=
  ",".intercalate columns ++ "\n"

def CupResult.table (r : CupResult) : String :=
  tableLine tableHeader ++ String.join (r.placedGames.map fun p => tableLine p.columns)

end AntContest

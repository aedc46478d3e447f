import AntContest.Json.Writer
import AntContest.Report.Standing

/-!
# Results as JSON documents
-/

namespace AntContest

def GameResult.toJson (r : GameResult) : Json :=
  .object [("red", .text r.red), ("black", .text r.black), ("red_score", .nat r.redScore.toNat),
    ("black_score", .nat r.blackScore.toNat), ("red_alive", .nat r.redAlive),
    ("black_alive", .nat r.blackAlive), ("encircled", .nat r.encircled),
    ("faulted", .nat r.faulted), ("turns_played", .nat r.turnsPlayed),
    ("seed", .int r.seed.toInt)]

def Decision.word : Decision → String
  | points => "points"
  | food => "food"
  | name => "name"

def MatchResult.toJson (r : MatchResult) : Json :=
  .object [("first", .text r.first), ("second", .text r.second),
    ("games", .arr (r.games.map (·.toJson))), ("first_points", .nat r.firstPoints),
    ("second_points", .nat r.secondPoints), ("first_food", .nat r.firstFood),
    ("second_food", .nat r.secondFood), ("winner", .text r.winner),
    ("decided_by", .text r.decidedBy.word)]

def CupRound.toJson (r : CupRound) : Json :=
  .object [("matches", .arr (r.results.map (·.toJson))), ("bye", .orNull .text r.bye?)]

/-- An entrant's totals as an object. -/
def Standing.toJson (s : Standing) : Json :=
  .object [("matches", .nat s.matchesPlayed), ("match_wins", .nat s.matchWins),
    ("games", .nat s.games), ("game_wins", .nat s.gameWins), ("food", .nat s.food)]

/-- A cup result with its standings as an object. -/
def CupResult.toJson (r : CupResult) : Json :=
  .object [("bracket", .arr (r.bracket.map .text)), ("rounds", .arr (r.rounds.map (·.toJson))),
    ("champion", .text r.champion),
    ("stats", .object ((Standings.ofCup r).map fun (name, s) => (name, s.toJson)))]

end AntContest

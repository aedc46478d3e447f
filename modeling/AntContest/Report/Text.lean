import AntContest.Report.Average
import AntContest.Report.Standing

/-!
# Results as text
-/

namespace AntContest

/-- A game result for reading. -/
def GameResult.text (r : GameResult) : String :=
  s!"Game Result (seed: {r.seed.toInt})\n" ++
    "  Winner: " ++ r.winnerName?.getD "Draw" ++ "\n" ++
    s!"  Turns: {r.turnsPlayed}\n\n" ++
    s!"  red   {r.red}: {r.redScore.toNat} food, {r.redAlive} ants alive\n" ++
    s!"  black {r.black}: {r.blackScore.toNat} food, {r.blackAlive} ants alive\n" ++
    if r.encircled = 0 ∧ r.faulted = 0 then ""
    else s!"  Encircled: {r.encircled}  Faulted: {r.faulted}\n"

/-- How a match was decided, for reading. -/
def Decision.text : Decision → String
  | points => "on points"
  | food => "on total food"
  | name => "by name order"

namespace MatchResult

/-- The line of a game of a match, given its number from zero. -/
def gameLine (i : Nat) (g : GameResult) : String :=
  s!"  Game {i + 1} (seed {g.seed.toInt}): red {g.red} {g.redScore.toNat} - " ++
    s!"{g.blackScore.toNat} {g.black} black\n"

/-- A match result for reading. -/
def text (r : MatchResult) : String :=
  s!"Match: {r.first} vs {r.second}\n" ++
    String.join (r.games.zipIdx.map fun (g, i) => gameLine i g) ++
    s!"  Points: {r.first} {r.firstPoints} - {r.secondPoints} {r.second}\n" ++
    s!"  Winner: {r.winner} ({r.decidedBy.text})\n"

/-- The line of a match in a cup. -/
def cupLine (r : MatchResult) : String :=
  s!"  {r.first} vs {r.second}: {r.winner} wins " ++
    s!"{max r.firstPoints r.secondPoints}-{min r.firstPoints r.secondPoints}\n"

end MatchResult

/-- The lines of a round, given its number from zero. -/
def CupRound.text (i : Nat) (r : CupRound) : String :=
  s!"Round {i + 1}:\n" ++ String.join (r.results.map (·.cupLine)) ++
    (match r.bye? with
      | none => ""
      | some name => s!"  {name}: bye\n") ++
    "\n"

/-- The line of an entrant's totals. -/
def Standing.line (name : String) (s : Standing) : String :=
  s!"  {name}: {s.matchWins}/{s.matchesPlayed} matches, {s.gameWins}/{s.games} games, " ++
    s!"{averageText s.food s.games} food/game\n"

/-- A cup result for reading. -/
def CupResult.text (r : CupResult) : String :=
  s!"Tournament Results ({r.bracket.length} entrants)\n" ++
    "========================================\n\n" ++
    String.join (r.rounds.zipIdx.map fun (round, i) => round.text i) ++
    "Totals:\n" ++
    String.join ((Standings.ofCup r).map fun (name, s) => s.line name) ++
    s!"\nChampion: {r.champion}\n"

end AntContest

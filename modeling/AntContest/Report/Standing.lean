import AntContest.Cup.Result

/-!
# Standings of a cup

The totals of every entrant over all matches of a cup, listed by name.  The list is in the order
of the names and has each name once.
-/

namespace AntContest

/-- The totals of an entrant. -/
structure Standing where
  matchesPlayed : Nat := 0
  matchWins : Nat := 0
  games : Nat := 0
  gameWins : Nat := 0
  food : Nat := 0
deriving DecidableEq, Repr

/-- Standings in the order of the names. -/
abbrev Standings := List (String × Standing)

namespace Standings

/-- Changes the standing of a name; a name that is not yet listed starts with nothing. -/
def update (name : String) (f : Standing → Standing) : Standings → Standings
  | [] => [(name, f {})]
  | (other, s) :: rest =>
    if other = name then (other, f s) :: rest
    else if name < other then (name, f {}) :: (other, s) :: rest
    else (other, s) :: update name f rest

def get? (s : Standings) (name : String) : Option Standing :=
  s.lookup name

/-- Counts a match for one of its entrants. -/
def countMatch (r : MatchResult) (s : Standings) (name : String) : Standings :=
  s.update name fun t =>
    { t with
      matchesPlayed := t.matchesPlayed + 1
      matchWins := t.matchWins + (name == r.winner).toNat }

/-- Counts a game for the brain of a colony. -/
def countGame (r : GameResult) (s : Standings) (c : Colony) : Standings :=
  s.update (r.name c) fun t =>
    { t with
      games := t.games + 1
      food := t.food + (r.score c).toNat
      gameWins := t.gameWins + (r.winnerName? == some (r.name c)).toNat }

/-- Counts a match with its games. -/
def addMatch (s : Standings) (r : MatchResult) : Standings :=
  let s := [r.first, r.second].foldl (countMatch r) s
  r.games.foldl (fun s game => Colony.both.foldl (countGame game) s) s

/-- The standings after a cup. -/
def ofCup (r : CupResult) : Standings :=
  let entrants : Standings := r.bracket.foldl (fun s name => s.update name id) []
  (r.rounds.flatMap (·.results)).foldl addMatch entrants

end Standings

end AntContest

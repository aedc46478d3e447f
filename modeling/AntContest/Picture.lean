import AntContest.Game.Play

/-!
# Coloured pictures of a game

A picture has a line with the turn and the scores, the map with one character per cell in the
colours of a terminal, and the numbers of living ants.
-/

namespace AntContest

/-- The control sequences of a terminal. -/
inductive Paint where
  | plain
  | bold
  | grey
  | yellow
  | colony (c : Colony)
deriving DecidableEq, Repr

namespace Paint

/-- The sequence that ends any paint. -/
def reset : String := "\x1b[0m"

/-- The sequence that begins a paint. -/
def start : Paint → String
  | plain => ""
  | bold => "\x1b[1m"
  | grey => "\x1b[90m"
  | yellow => "\x1b[33m"
  | colony .red => "\x1b[31m"
  | colony .black => "\x1b[34m"

/-- A painted text; plain text needs no sequences. -/
def apply (p : Paint) (text : String) : String :=
  if p = plain then text else p.start ++ text ++ reset

end Paint

/-- The character of an ant: upper case if it carries food. -/
def Ant.glyph (a : Ant) : Char :=
  match a.colony, a.carrying with
  | .red, false => 'r'
  | .red, true => 'R'
  | .black, false => 'b'
  | .black, true => 'B'

namespace Cell

/-- The character of a cell with the ant on it: the ant if there is one, then rock, then food as a
digit of at most nine, then the hills. -/
def glyph (c : Cell) (ant : Option Ant) : Char :=
  match ant with
  | some a => a.glyph
  | none =>
    match c.terrain with
    | .rock => '#'
    | terrain =>
      if c.food ≠ 0 then Nat.digitChar (min c.food.toNat 9)
      else
        match terrain with
        | .hill .red => '+'
        | .hill .black => '-'
        | _ => '.'

/-- The paint of a cell with the ant on it. -/
def paint (c : Cell) (ant : Option Ant) : Paint :=
  match ant with
  | some a => .colony a.colony
  | none =>
    match c.terrain with
    | .rock => .grey
    | .hill owner => .colony owner
    | .clear => if c.food ≠ 0 then .yellow else .plain

end Cell

namespace Game.Snapshot

def aliveCount (s : Snapshot) (c : Colony) : Nat :=
  s.ants.countP fun a => a.alive && a.colony == c

/-- The ant on a cell. -/
def occupant? (s : Snapshot) (c : Cell) : Option Ant :=
  c.occupant.bind fun i => s.ants[i]?

/-- A cell of the picture with the space after it. -/
def cellText (s : Snapshot) (c : Cell) : String :=
  let ant := s.occupant? c
  (c.paint ant).apply (String.singleton (c.glyph ant)) ++ " "

def rowText (s : Snapshot) (y : Nat) : String :=
  let cells := (List.range s.ground.width.val).filterMap fun x =>
    (s.ground.cell? ⟨x, y⟩).map s.cellText
  (if y % 2 = 1 then " " else "") ++ String.join cells ++ "\n"

def mapRows (s : Snapshot) : String :=
  String.join ((List.range s.ground.height.val).map s.rowText)

/-- The width that the turn takes up in the first line. -/
def turnWidth : Nat := 40

/-- The part of the first line about the turn. -/
def turnText (s : Snapshot) (maxTurns : Nat) : String :=
  let text := s!"Turn {s.turn}/{maxTurns}"
  Paint.bold.apply text ++ String.ofList (List.replicate (turnWidth - text.length) ' ')

def scoreText (s : Snapshot) (c : Colony) (name : String) : String :=
  (Paint.colony c).apply s!"[{c} {name}: {(s.score c).toNat}]" ++ " "

def legend : String :=
  "\nLegend: r/b=ant  R/B=ant with food  +/-=anthill  1-9=food  #=rock\n"

/-- The part of the last line about a colony. -/
def aliveText (s : Snapshot) (c : Colony) : String :=
  s!"{c}: {s.aliveCount c} ants alive   "

/-- The picture, with the names of the red and the black brain. -/
def render (s : Snapshot) (maxTurns : Nat) (red black : String) : String :=
  s.turnText maxTurns ++ s.scoreText .red red ++ s.scoreText .black black ++ "\n" ++
    s.mapRows ++ legend ++ s.aliveText .red ++ s.aliveText .black ++ "\n"

end Game.Snapshot

/-- The picture of a game; a colony without a brain is called `?`. -/
def Game.render (g : Game) : String :=
  g.snapshot.render g.config.maxTurns.toNat ((g.teamName? .red).getD "?")
    ((g.teamName? .black).getD "?")

end AntContest

import AntContest.Game.Basic

/-!
# Encirclement

After the slots of a turn, every ant with at least `encirclementThreshold` enemies around it dies.
All victims are found before any is removed, so that a death neither saves nor dooms another ant
in the same turn.  A victim leaves `encirclementBonus` food on its cell, and what it carried.
-/

namespace AntContest

/-- Enemies around an ant that kill it. -/
def encirclementThreshold : Nat := 5

/-- Food that an encircled ant leaves, besides what it carried. -/
def encirclementBonus : UInt32 := 3

/-- An ant killed by encirclement, as it was when it died. -/
structure Kill where
  ant : Nat
  colony : Colony
  position : Position
  carrying : Bool
deriving DecidableEq, Repr

namespace Game

/-- The cells around a position that hold an ant of the other colony. -/
def enemyNeighbours (g : Game) (p : Position) (c : Colony) : Nat :=
  Direction.all.countP fun d =>
    (((p.step d).bind g.ground.cell?).bind g.antOn?).any (·.colony != c)

/-- Takes ant `i` out of play.  Its cell gains the bonus and what the ant carried. -/
def removeAnt (g : Game) (i : Nat) (bonus : UInt32) : Game :=
  match g.ants[i]? with
  | none => g
  | some ant =>
    let left := if ant.carrying then bonus + 1 else bonus
    (g.modifyCell ant.position fun c => (c.withOccupant none).gain left).modifyAnt i
      ({ · with alive := false, carrying := false, resting := 0 })

/-- The kill of an ant, if it is encircled. -/
def victim? (g : Game) (ant : Ant) : Option Kill :=
  if ant.alive && encirclementThreshold ≤ g.enemyNeighbours ant.position ant.colony then
    some ⟨ant.id, ant.colony, ant.position, ant.carrying⟩
  else none

/-- The encircled ants in the order of their numbers. -/
def victims (g : Game) : List Kill :=
  g.ants.toList.filterMap g.victim?

/-- Takes the victims out of play, one after the other. -/
def bury (g : Game) (kills : List Kill) : Game :=
  kills.foldl (fun g k => g.removeAnt k.ant encirclementBonus) g

/-- The game without the victims.  What they left can lie on a hill, so the scores are taken anew
if there are any. -/
def kill (g : Game) (kills : List Kill) : Game :=
  if kills.isEmpty then g
  else
    let g := g.bury kills
    { g with encircled := g.encircled + kills.length }.recount

end Game

end AntContest

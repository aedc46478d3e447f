import AntContest.Game.Basic
import AntContest.Ground.Scatter

/-!
# Commands and their options
-/

namespace AntContest

/-- The forms of a result of one game or match. -/
inductive ResultFormat where
  | text
  | json
deriving DecidableEq, Repr

/-- The forms of a result of a cup. -/
inductive CupFormat where
  | text
  | json
  | csv
deriving DecidableEq, Repr

/-- The ways to show a recording: on an interactive screen or as text. -/
inductive ReplayFormat where
  | screen
  | text
deriving DecidableEq, Repr

/-- Where a game is played, and the parameters that replace the default ones.  Without a map file
a map is generated from the seed. -/
structure Setting where
  map? : Option String := none
  seed? : Option Int64 := none
  turns? : Option UInt32 := none
deriving DecidableEq, Repr

/-- The parameters of a setting. -/
def Setting.config (s : Setting) : Config :=
  let default : Config := {}
  { default with
    seed := s.seed?.getD default.seed
    maxTurns := s.turns?.getD default.maxTurns }

/-- A command with its options; paths are as they were given. -/
inductive Command where
  /-- Plays a game; it can be recorded and dumped. -/
  | run (red black : String) (setting : Setting) (format : ResultFormat)
      (save? dump? : Option String) (quiet : Bool)
  /-- Plays a match. -/
  | contest (first second : String) (setting : Setting) (rounds? : Option UInt32)
      (format : ResultFormat)
  /-- Plays a cup. -/
  | cup (entrants : List String) (setting : Setting) (rounds? : Option UInt32)
      (format : CupFormat)
  /-- Shows a game on an interactive screen. -/
  | watch (red black : String) (setting : Setting)
  /-- Shows a recording. -/
  | replay (recording : String) (format : ReplayFormat) (turn? : Option UInt32) (every : UInt32)
  /-- Checks brain and map files. -/
  | validate (brains : List String) (map? : Option String)
  /-- Generates a map. -/
  | generate (seed : Int64) (plan : MapPlan) (output? : Option String)
deriving DecidableEq, Repr

end AntContest

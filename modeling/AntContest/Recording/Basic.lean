import AntContest.Brain.Reader
import AntContest.Brain.Source
import AntContest.Game.Play
import AntContest.Ground.MapReader

/-!
# Recordings

A game is settled by its map, its two brains and its parameters, so that is all a recording
holds, the map and the brains as text.
-/

namespace AntContest

/-- A brain by its name and text. -/
structure BrainText where
  name : String
  source : String
deriving DecidableEq, Repr

structure Recording where
  map : String
  red : BrainText
  black : BrainText
  config : Config
deriving DecidableEq, Repr

namespace BrainText

/-- The canonical text of a brain. -/
def ofBrain (b : Brain) : BrainText :=
  ⟨b.name, b.source⟩

def read (t : BrainText) : Except BrainError Brain :=
  Brain.read t.name t.source

end BrainText

/-- Records a game that is about to be played on a ground. -/
def Recording.ofGame (ground : Ground) (teams : Teams) (config : Config) : Recording :=
  ⟨ground.mapText, .ofBrain teams.red, .ofBrain teams.black, config⟩

end AntContest

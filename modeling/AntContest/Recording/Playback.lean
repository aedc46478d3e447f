import AntContest.Recording.Basic

/-!
# Playing recordings back

A recording is played forward turn by turn.  To go back, the game is played again from its
beginning: nothing but the present state is kept.

* `forward`, `seek` and `backward` are the three calls; each answers whether it could be done, and
  leaves a playback in either case.
* `stepForward`, `goTo` and `stepBackward` give the playback after a call that could be done.
-/

namespace AntContest

/-- Why a recording cannot be played, or a turn cannot be reached. -/
inductive PlaybackError where
  | badMap (cause : MapError)
  | badBrain (colony : Colony) (cause : BrainError)
  | outOfBounds (requested limit : Nat)
  | gameOver
deriving DecidableEq, Repr

def PlaybackError.message : PlaybackError → String
  | badMap cause => s!"world in recording: {cause.message}"
  | badBrain colony cause => s!"{colony} brain in recording: {cause.message}"
  | outOfBounds requested limit => s!"Turn {requested} out of bounds (max: {limit})"
  | gameOver => "Game is already over"

/-- A recording that is being played. -/
structure Playback where
  recording : Recording
  ground : Ground
  teams : Teams
  game : Game
deriving DecidableEq

namespace Playback

/-- The game of a recording at its beginning. -/
def start (ground : Ground) (teams : Teams) (config : Config) : Game :=
  (Game.load ground config).begin teams

def turn (p : Playback) : Nat :=
  p.game.turn

/-- The number of the last turn. -/
def limit (p : Playback) : Nat :=
  p.recording.config.maxTurns.toNat

def isOver (p : Playback) : Bool :=
  p.game.phase == .finished

/-- Plays on to a turn that lies ahead, or to the end of the game if that comes first. -/
def advanceTo (target : Nat) (g : Game) : Game :=
  Game.stepMany (target - g.turn) g

/-- Reads a recording and plays it up to a turn. -/
def openAt (r : Recording) (target : Nat) : Except PlaybackError Playback := do
  let ground ← (Ground.readMap r.map).mapError .badMap
  let red ← r.red.read.mapError (.badBrain .red)
  let black ← r.black.read.mapError (.badBrain .black)
  return ⟨r, ground, ⟨red, black⟩, advanceTo target (start ground ⟨red, black⟩ r.config)⟩

/-- Plays one more turn. -/
def forward : Playback → Except PlaybackError Unit × Playback
  | ⟨recording, ground, teams, game⟩ =>
    match game.step with
    | (.ok _, game) => (.ok (), ⟨recording, ground, teams, game⟩)
    | (.error _, game) => (.error .gameOver, ⟨recording, ground, teams, game⟩)

/-- Goes to a turn, forward from the present one or from the beginning. -/
def seek (p : Playback) (target : Nat) : Except PlaybackError Unit × Playback :=
  if p.limit < target then (.error (.outOfBounds target p.limit), p)
  else
    match p with
    | ⟨recording, ground, teams, game⟩ =>
      let game := if target < game.turn then start ground teams recording.config else game
      (.ok (), ⟨recording, ground, teams, advanceTo target game⟩)

/-- Goes back by one turn. -/
def backward (p : Playback) : Except PlaybackError Unit × Playback :=
  match p.turn with
  | 0 => (.error (.outOfBounds 0 p.limit), p)
  | n + 1 => p.seek n

/-- The playback that a call leaves, if the call could be done. -/
def done : Except PlaybackError Unit × Playback → Except PlaybackError Playback
  | (.ok _, p) => .ok p
  | (.error e, _) => .error e

def stepForward (p : Playback) : Except PlaybackError Playback := done p.forward

def goTo (p : Playback) (target : Nat) : Except PlaybackError Playback := done (p.seek target)

def stepBackward (p : Playback) : Except PlaybackError Playback := done p.backward

end Playback

end AntContest

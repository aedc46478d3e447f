import AntContest.Recording.Playback

/-!
# The viewer

The state of an interactive view of a recording: the playback, whether it runs by itself, how fast
and in what strides, and which part of the map is shown.
-/

namespace AntContest

/-- The state of a viewer. -/
structure Viewer where
  playback : Playback
  paused : Bool
  /-- Milliseconds between two strides. -/
  delay : Nat
  /-- Turns in a stride. -/
  stride : Nat
  /-- The cell shown in the upper left corner. -/
  origin : Position
deriving DecidableEq

namespace Viewer

/-- A viewer at the beginning: on hold, turn by turn, at the corner of the map. -/
def start (playback : Playback) (delay : Nat) : Viewer :=
  ⟨playback, true, delay, 1, ⟨0, 0⟩⟩

/-- Plays a stride forward, or less if the game ends within it. -/
def stepForward (v : Viewer) : Viewer :=
  { v with playback := { v.playback with game := Game.stepMany v.stride v.playback.game } }

/-- Goes a stride back, or to the beginning. -/
def stepBackward (v : Viewer) : Viewer :=
  match v.playback.goTo (v.playback.turn - v.stride) with
  | .ok playback => { v with playback }
  | .error _ => v

/-- Starts or stops playing by itself. -/
def togglePause (v : Viewer) : Viewer :=
  { v with paused := !v.paused }

/-- Goes faster: first by shorter delays, then by longer strides. -/
def increaseSpeed (v : Viewer) : Viewer :=
  if 10 < v.delay then { v with delay := max (v.delay - 50) 10 }
  else { v with stride := min (v.stride * 10) 10000 }

/-- Goes slower: first by shorter strides, then by longer delays. -/
def decreaseSpeed (v : Viewer) : Viewer :=
  if 1 < v.stride then { v with stride := v.stride / 10 }
  else { v with delay := min (v.delay + 50) 2000 }

/-- A coordinate moved by a distance, within a side of the map. -/
def shift (side : Side) (n : Nat) (distance : Int) : Nat :=
  min ((n : Int) + distance).toNat (side.val - 1)

/-- Moves the part that is shown: by eight columns and four rows for one unit. -/
def scroll (v : Viewer) (dx dy : Int) : Viewer :=
  let ground := v.playback.game.ground
  { v with
    origin := ⟨shift ground.width v.origin.x (8 * dx), shift ground.height v.origin.y (4 * dy)⟩ }

end Viewer

end AntContest

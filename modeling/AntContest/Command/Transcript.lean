import AntContest.Picture
import AntContest.Recording.Playback

/-!
# Transcripts of recordings

A transcript shows a picture of every turn whose number is a multiple of `every`, and of the last
turn, and then says that the game is over.
-/

namespace AntContest

namespace Playback

/-- What a transcript says about a recording as a whole. -/
def transcriptHead (r : Recording) : String :=
  s!"Replay of {r.red.name} (red) vs {r.black.name} (black), seed {r.config.seed.toInt}\n" ++
    s!"Max turns: {r.config.maxTurns.toNat}\n\n"

/-- The picture of a turn. -/
def frame (g : Game) : String :=
  s!"=== Turn {g.turn} ===\n" ++ g.render ++ "\n"

/-- What a transcript says at the end. -/
def transcriptEnd : String :=
  "=== GAME OVER ===\n"

/-- Whether a transcript shows a game as it stands. -/
def isShown (every : Nat) (g : Game) : Bool :=
  g.turn % every == 0 || g.phase == .finished

/-- The pictures from now on, after what has been written; at most `n` turns are played. -/
def transcriptFrom (every : Nat) : Nat → Game → String → String
  | n, g, written =>
    let written := if isShown every g then written ++ frame g else written
    match n with
    | 0 => written ++ transcriptEnd
    | n + 1 =>
      match g.step with
      | (.ok _, g) => transcriptFrom every n g written
      | (.error _, _) => written ++ transcriptEnd

/-- The transcript of a recording from its present turn on. -/
def transcript (p : Playback) (every : Nat) : String :=
  transcriptFrom (max 1 every) p.game.turnsLeft p.game (transcriptHead p.recording)

end Playback

end AntContest

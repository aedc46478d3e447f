import AntContest.Cup.Match
import AntContest.Json.Decode
import AntContest.Json.Reader
import AntContest.Json.Writer
import AntContest.Recording.Basic

/-!
# Recordings and parameters as JSON documents

Parameters that are missing take their default values; everything else of a recording has to be
there.
-/

namespace AntContest

namespace Config

def toJson (c : Config) : Json :=
  .object [("seed", .int c.seed.toInt), ("max_turns", .nat c.maxTurns.toNat),
    ("rest_after_move", .nat c.restAfterMove.toNat), ("pacing_ms", .nat c.pacing.toNat)]

def ofJson? (v : Json) : Option Config := do
  let default : Config := {}
  match ← v.fields? ["seed", "max_turns", "rest_after_move", "pacing_ms"] with
  | [seed, maxTurns, restAfterMove, pacing] =>
    return {
      seed := ← Json.orDefault Json.int64? default.seed seed
      maxTurns := ← Json.orDefault Json.uint32? default.maxTurns maxTurns
      restAfterMove := ← Json.orDefault Json.uint32? default.restAfterMove restAfterMove
      pacing := ← Json.orDefault Json.uint64? default.pacing pacing }
  | _ => none

end Config

/-- Reads the parameters of a match. -/
def CupConfig.ofJson? (v : Json) : Option CupConfig := do
  let default : CupConfig := {}
  match ← v.fields? ["game", "max_match_rounds"] with
  | [game, maxRounds] =>
    return {
      game := ← Json.orDefault Config.ofJson? default.game game
      maxRounds := ← Json.orDefault Json.uint32? default.maxRounds maxRounds }
  | _ => none

namespace BrainText

def toJson (t : BrainText) : Json :=
  .object [("name", .text t.name), ("source", .text t.source)]

def ofJson? (v : Json) : Option BrainText := do
  match ← v.fields? ["name", "source"] with
  | [some name, some source] => return ⟨← name.text?, ← source.text?⟩
  | _ => none

end BrainText

namespace Recording

def toJson (r : Recording) : Json :=
  .object [("world", .text r.map), ("red", r.red.toJson), ("black", r.black.toJson),
    ("config", r.config.toJson)]

def ofJson? (v : Json) : Option Recording := do
  match ← v.fields? ["world", "red", "black", "config"] with
  | [some map, some red, some black, some config] =>
    return ⟨← map.text?, ← BrainText.ofJson? red, ← BrainText.ofJson? black,
      ← Config.ofJson? config⟩
  | _ => none

def text (r : Recording) : String :=
  r.toJson.pretty

def read? (text : String) : Option Recording :=
  (Json.read text).bind ofJson?

end Recording

end AntContest

import AntContest.Command.Help
import AntContest.Command.Options
import AntContest.Command.Switch

/-!
# Commands from command lines

Each command has its `Usage`, and a function that makes a `Command` of its arguments.
`Command.ofArguments` reads the name of the command and then the rest of the line.
-/

namespace AntContest

namespace Command

/-! ### Switches -/

/-- The switch for messages about the course of a command; it stands before or after the name of
the command. -/
def logLevel : Switch where
  long := "log-level"
  gloss := "Log filter used when `RUST_LOG` is unset (e.g. `info`, `antwar=debug`)"
  kind? := some .anyText
  default? := some "warn"

def mapSwitch (gloss : String) : Switch where
  long := "world"
  gloss := gloss
  short? := some 'w'
  kind? := some .path

/-- The switch for the map file of a game. -/
def arenaSwitch : Switch := mapSwitch "World file (default: generate one from the seed)"

def seedSwitch (gloss : String) : Switch where
  long := "seed"
  gloss := gloss
  short? := some 's'
  kind? := some .int64

def turnsSwitch (gloss : String) : Switch where
  long := "turns"
  gloss := gloss
  short? := some 't'
  kind? := some .uint32

def roundsSwitch (gloss : String) : Switch where
  long := "rounds"
  gloss := gloss
  short? := some 'r'
  kind? := some .uint32

/-- Output for people. -/
def textChoice : Term := ⟨"text", "Human-readable text output"⟩

/-- Output for programs. -/
def jsonChoice : Term := ⟨"json", "Machine-readable JSON output"⟩

/-- The switch for the form of the output; the first of the choices is the default one. -/
def formatSwitch (gloss : String) (choices : List Term) : Switch where
  long := "format"
  gloss := gloss
  short? := some 'f'
  kind? := some (.oneOf choices)
  default? := choices.head?.map (·.word)

def resultFormatSwitch : Switch :=
  formatSwitch "Output format: text or json" [textChoice, jsonChoice]

/-- A switch for a file to be written. -/
def fileSwitch (long gloss : String) : Switch where
  long := long
  gloss := gloss
  kind? := some .path

/-- A switch for a number with a default value. -/
def numberSwitch (long gloss : String) (kind : ValueKind) (default : Nat) : Switch where
  long := long
  gloss := gloss
  kind? := some kind
  default? := some (toString default)

/-! ### Making commands -/

/-- The setting of a game, with the name of the switch for its turns. -/
def settingOf (a : Arguments) (turns : String) : Setting where
  map? := a.value? "world"
  seed? := (a.value? "seed").bind ValueKind.int64?
  turns? := (a.value? turns).bind ValueKind.uint32?

/-- The form of a result. -/
def resultFormatOf (a : Arguments) : ResultFormat :=
  if a.value? "format" = some "json" then .json else .text

def uint32Of (a : Arguments) (long : String) : Option UInt32 :=
  (a.value? long).bind ValueKind.uint32?

/-- The number of a switch, or its default value. -/
def natOf (a : Arguments) (long : String) (default : Nat) : Nat :=
  ((a.value? long).bind ValueKind.uint64?).getD default

/-- A kind of command: what it takes, and how it is made. -/
structure Form where
  usage : Usage
  make : Arguments → Option Command

def runForm : Form where
  usage := {
    name := "run"
    purpose := "Run a single game between two brains"
    switches := [logLevel, arenaSwitch, seedSwitch "Random seed (default: 12345)",
      turnsSwitch "Maximum turns (default: 300000)", resultFormatSwitch,
      fileSwitch "save" "Save recording to file",
      fileSwitch "dump" "Write a full cell dump after every turn to this file",
      ⟨"quiet", "Suppress progress lines", some 'q', none, none⟩]
    operands := .each [⟨"RED", "Red colony brain file"⟩, ⟨"BLACK", "Black colony brain file"⟩] }
  make a :=
    match a.operands with
    | [red, black] =>
      some (.run red black (settingOf a "turns") (resultFormatOf a) (a.value? "save")
        (a.value? "dump") (a.has "quiet"))
    | _ => none

def contestForm : Form where
  usage := {
    name := "match"
    purpose := "Play a match (colours swapped each round) between two brains"
    switches := [logLevel, arenaSwitch, seedSwitch "Random seed",
      turnsSwitch "Maximum turns per game",
      roundsSwitch "Maximum rounds of two games (default: 5)", resultFormatSwitch]
    operands := .each [⟨"FIRST", "First brain file"⟩, ⟨"SECOND", "Second brain file"⟩] }
  make a :=
    match a.operands with
    | [first, second] =>
      some (.contest first second (settingOf a "turns") (uint32Of a "rounds")
        (resultFormatOf a))
    | _ => none

def cupForm : Form where
  usage := {
    name := "tournament"
    purpose := "Run a knockout tournament between brains"
    switches := [logLevel, arenaSwitch, seedSwitch "Random seed for the draw and every game",
      ⟨"max-turns", "Maximum turns per game", some 't', some .uint32, none⟩,
      roundsSwitch "Maximum rounds per match",
      ⟨"threads", "Parallel threads (default: CPU count)", some 'j', some .uint64, none⟩,
      formatSwitch "Output format: text, json, or csv"
        [textChoice, jsonChoice, ⟨"csv", "CSV format, one line per game"⟩],
      ⟨"progress", "Show progress bar", some 'p', none, none⟩]
    operands := .many ⟨"BRAINS", "Brain files (at least 2)"⟩ 2 }
  make a :=
    let format : CupFormat :=
      match a.value? "format" with
      | some "json" => .json
      | some "csv" => .csv
      | _ => .text
    some (.cup a.operands (settingOf a "max-turns") (uint32Of a "rounds") format)

def watchForm : Form where
  usage := {
    name := "watch"
    purpose := "Interactive TUI to watch a game in real-time"
    switches := [logLevel, arenaSwitch, seedSwitch "Random seed", turnsSwitch "Maximum turns",
      numberSwitch "speed" "Turn delay in milliseconds (default: 100)" .uint64 100]
    operands := .each [⟨"RED", "Red colony brain file"⟩, ⟨"BLACK", "Black colony brain file"⟩] }
  make a :=
    match a.operands with
    | [red, black] => some (.watch red black (settingOf a "turns"))
    | _ => none

def replayForm : Form where
  usage := {
    name := "replay"
    purpose := "Replay a recorded game"
    switches := [
      formatSwitch "Output format: tui or text"
        [⟨"tui", "Interactive TUI"⟩, ⟨"text", "Plain text output"⟩],
      logLevel, ⟨"turn", "Start at specific turn", some 't', some .uint32, none⟩,
      numberSwitch "every" "Text format only: print every Nth turn (default: 1)" .uint32 1]
    operands := .each [⟨"RECORDING", "Recording file (JSON)"⟩] }
  make a :=
    match a.operands with
    | [recording] =>
      some (.replay recording (if a.value? "format" = some "text" then .text else .screen)
        (uint32Of a "turn") ((uint32Of a "every").getD 1))
    | _ => none

def validateForm : Form where
  usage := {
    name := "validate"
    purpose := "Check brain and world files without playing"
    switches := [logLevel, mapSwitch "World file to check"]
    operands := .many ⟨"BRAINS", "Brain files to check"⟩ 0 }
  make a := some (.validate a.operands (a.value? "world"))

/-- The seed of a map for which none is given. -/
def defaultSeed : Int64 := ({} : Config).seed

/-- The measures of a map for which none are given. -/
def defaultPlan : MapPlan := {}

def generateForm : Form where
  usage := {
    name := "generate"
    purpose := "Generate a random contest world"
    switches := [logLevel,
      { seedSwitch "Random seed" with default? := some (toString defaultSeed.toInt) },
      numberSwitch "width" "Width in cells" .uint64 defaultPlan.width,
      numberSwitch "height" "Height in cells" .uint64 defaultPlan.height,
      numberSwitch "food-blobs" "Number of food blobs" .uint64 defaultPlan.blobs,
      numberSwitch "rocks" "Number of rock formations" .uint64 defaultPlan.rocks,
      { fileSwitch "output" "Output file (default: stdout)" with short? := some 'o' }] }
  make a :=
    let plan : MapPlan := {
      width := natOf a "width" defaultPlan.width
      height := natOf a "height" defaultPlan.height
      blobs := natOf a "food-blobs" defaultPlan.blobs
      rocks := natOf a "rocks" defaultPlan.rocks }
    let seed := ((a.value? "seed").bind ValueKind.int64?).getD defaultSeed
    some (.generate seed plan (a.value? "output"))

def forms : List Form :=
  [runForm, contestForm, cupForm, watchForm, replayForm, validateForm, generateForm]

/-! ### Help pages -/

/-- What the program is called on a command line. -/
def programName : String := "antwar"

def Form.page (f : Form) : HelpPage := f.usage.page programName

/-- What the command for help does. -/
def helpPurpose : String := "Print this message or the help of the given subcommand(s)"

def programPage : HelpPage where
  purpose := "A deterministic hex-grid ant colony contest driven by finite-state ant brains"
  synopsis := programName ++ " [OPTIONS] <COMMAND>"
  commands := (forms.map fun f => .ofTerm ⟨f.usage.name, f.usage.purpose⟩) ++
    [.ofTerm ⟨"help", helpPurpose⟩]
  switches := [logLevel.row]
  answersVersion := true

def helpPage : HelpPage where
  purpose := helpPurpose
  synopsis := programName ++ " help [COMMAND]..."
  operands := (Operands.many ⟨"COMMAND", "Print help for the subcommand(s)"⟩ 0).rows
  answersHelp := false

/-! ### Reading command lines -/

/-- What comes of a command line that gives no command. -/
inductive Aside where
  | refused
  | help (page : HelpPage) (full : Bool)
  | version
deriving DecidableEq, Repr

/-- What comes of arguments that are not read to their end; a question for help is a question for
the given page. -/
def Aside.ofEnding (page : HelpPage) : Ending → Aside
  | .refused => .refused
  | .help full => .help page full

/-- Makes a command of the arguments after its name. -/
def Form.read (f : Form) (arguments : List String) : Except Aside Command :=
  match readArguments f.usage arguments {} none with
  | .error ending => .error (.ofEnding f.page ending)
  | .ok a =>
    match f.make a with
    | some command => .ok command
    | none => .error .refused

/-- The page that the command for help shows. -/
def pageNamed? : List String → Option HelpPage
  | [] => some programPage
  | [name] =>
    if name = "help" then some helpPage else (forms.find? (·.usage.name == name)).map (·.page)
  | _ => none

/-- What may stand before the name of a command. -/
def programUsage : Usage where
  name := programName
  purpose := programPage.purpose
  switches := [logLevel]

/-- Reads the name of a command and then its arguments.  Before the name there may be the switch
for messages, or a question for help or for the version.  A value that stands as an argument of
its own is judged when the next switch comes, or else when the command has been read: a question
for help behind the name is answered whatever stands before it. -/
def readName : List String → Except Ending Arguments → Pending → Except Aside Command
  | [], _, _ => .error .refused
  | argument :: rest, before, some (s, kind) =>
    if isSwitch argument then .error .refused
    else readName rest (before.bind (·.addChecked s kind argument)) none
  | argument :: rest, before, none =>
    match argument.toList with
    | ['-', '-'] => .error .refused
    | '-' :: '-' :: text => do
      let a ← before.mapError (.ofEnding programPage)
      if text = "version".toList then throw .version
      let (a, pending) ← (readLong programUsage text a).mapError (.ofEnding programPage)
      readName rest (.ok a) pending
    | '-' :: c :: _ => do
      let _ ← before.mapError (.ofEnding programPage)
      throw (if c = 'h' then .help programPage false else if c = 'V' then .version else .refused)
    | _ =>
      if argument = "help" then
        match pageNamed? rest with
        | some page => .error (.help page true)
        | none => .error .refused
      else
        match forms.find? (·.usage.name == argument) with
        | some f => do
          let command ← f.read rest
          let _ ← before.mapError (.ofEnding programPage)
          return command
        | none => .error .refused

/-- The command of a command line. -/
def ofArguments (arguments : List String) : Except Aside Command :=
  readName arguments (.ok {}) none

end Command

end AntContest

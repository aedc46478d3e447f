import AntContest.Command.Files
import AntContest.Command.Options
import AntContest.Command.Transcript
import AntContest.Game.Dump
import AntContest.Report.Document
import AntContest.Report.Table
import AntContest.Report.Text

/-!
# Carrying commands out

`Command.execute` carries a command out on any host.  What was printed before an error stays
printed.
-/

namespace AntContest

/-- Why a command fails. -/
inductive CommandError where
  | brain (cause : BrainFileError)
  | load (cause : LoadError)
  | cup (cause : CupError)
  | playback (cause : PlaybackError)
  | save (cause : RecordingFileError)
  | replayFile (path : String) (cause : RecordingFileError)
  | dumpFile (path : String) (fault : FileFault)
  | mapFile (path : String) (fault : FileFault)
  | plan (cause : MapPlanError)
  | nothingToValidate
  | invalidFiles (count : Nat)
  | noScreen
deriving DecidableEq, Repr

def CommandError.message : CommandError → String
  | brain cause => s!"brain error: {BrainFileError.message cause}"
  | load cause => cause.message
  | cup cause => cause.message
  | playback cause => cause.message
  | save cause => RecordingFileError.message cause
  | replayFile path cause =>
    s!"Failed to load recording {path}: {RecordingFileError.message cause}"
  | dumpFile path fault => s!"Failed to create {path}: {fault.message}"
  | mapFile path fault => s!"Failed to write {path}: {fault.message}"
  | plan cause => cause.message
  | nothingToValidate => "Nothing to validate: give brain files and/or --world"
  | invalidFiles count => s!"{count} file(s) failed validation"
  | noScreen => "No such device or address (os error 6)"

namespace Command

section Execute

variable {m : Type → Type} [Monad m] [Host m]

def print (text : String) : ExceptT CommandError m Unit :=
  ExceptT.lift (Host.print text)

def printLine (line : String) : ExceptT CommandError m Unit :=
  print (line ++ "\n")

/-- Prints a result in one of two forms. -/
def printResult (format : ResultFormat) (text : String) (document : Json) :
    ExceptT CommandError m Unit :=
  match format with
  | .text => print text
  | .json => printLine document.pretty

/-- Plays a game to its end; with a file, every turn is dumped into it. -/
def playDumped (g : Game) : Option String → ExceptT CommandError m Game
  | none => return g.play
  | some path => do
    if let .error fault ← (Host.writeText path "" : m _) then throw (.dumpFile path fault)
    let observer : Game.Observer String := fun dumps g _ => (dumps ++ g.dump, [])
    let (dumps, g) := (g.run observer (g.dumpHeader ++ g.dump)).toOption.getD ("", g)
    if let .error fault ← (Host.writeText path dumps : m _) then throw (.dumpFile path fault)
    return g

def executeRun (red black : String) (setting : Setting) (format : ResultFormat)
    (save? dump? : Option String) (quiet : Bool) : ExceptT CommandError m Unit := do
  let red ← (loadBrain red).adapt .brain
  let black ← (loadBrain black).adapt .brain
  let config := setting.config
  let ground ← (loadArena setting.map? config.seed).adapt .load
  let verbose := !quiet && format == .text
  if verbose then
    printLine s!"Running game with seed {config.seed.toInt}..."
    printLine s!"Red: {red.name}  Black: {black.name}"
    printLine ""
  if let some path := save? then
    (saveRecording path (.ofGame ground ⟨red, black⟩ config)).adapt .save
    if verbose then
      printLine s!"Recording saved to: {path}"
      printLine ""
  let g ← playDumped ((Game.load ground config).begin ⟨red, black⟩) dump?
  let result := GameResult.ofGame g
  printResult format result.text result.toJson

/-- The parameters of a match or a cup. -/
def cupConfig (setting : Setting) (rounds? : Option UInt32) : CupConfig :=
  let default : CupConfig := {}
  { game := setting.config, maxRounds := rounds?.getD default.maxRounds }

def executeContest (first second : String) (setting : Setting) (rounds? : Option UInt32)
    (format : ResultFormat) : ExceptT CommandError m Unit := do
  let config := cupConfig setting rounds?
  let first ← (loadBrain first).adapt (.load <| .brain ·)
  let second ← (loadBrain second).adapt (.load <| .brain ·)
  let ground ← (loadArena setting.map? config.game.seed).adapt .load
  let result := playMatch ground first second config
  printResult format result.text result.toJson

def executeCup (entrants : List String) (setting : Setting) (rounds? : Option UInt32)
    (format : CupFormat) : ExceptT CommandError m Unit := do
  let config := cupConfig setting rounds?
  let brains ← (loadEntrants entrants).adapt .load
  let ground ← (loadArena setting.map? config.game.seed).adapt .load
  match Cup.play ground brains config with
  | .error cause => throw (.cup cause)
  | .ok result =>
    match format with
    | .text => print ("\n" ++ result.text ++ "\n")
    | .json => printLine result.toJson.pretty
    | .csv => print result.table

/-- Shows a game on an interactive screen; there is none. -/
def executeWatch (red black : String) (setting : Setting) : ExceptT CommandError m Unit := do
  let red ← (loadBrain red).adapt .brain
  let black ← (loadBrain black).adapt .brain
  let config := setting.config
  let ground ← (loadArena setting.map? config.seed).adapt .load
  match Playback.openAt (.ofGame ground ⟨red, black⟩ config) 0 with
  | .error cause => throw (.playback cause)
  | .ok _ => throw .noScreen

def executeReplay (path : String) (format : ReplayFormat) (turn? : Option UInt32) (every : UInt32) :
    ExceptT CommandError m Unit := do
  let recording ← (loadRecording path).adapt (.replayFile path)
  match Playback.openAt recording (turn?.getD 0).toNat with
  | .error cause => throw (.playback cause)
  | .ok playback =>
    match format with
    | .screen => throw .noScreen
    | .text => print (playback.transcript every.toNat)

/-- The line about something checked. -/
def checkLine (name : String) (ok : Bool) : String :=
  if ok then s!"  ✓ {name}: OK" else s!"  ✗ {name}: FAILED"

/-- The lines about what was found in a file that should be read into a value. -/
def checkLines {Error α : Type} (message : Error → String) (lines : α → List String) :
    Except Error α → List String
  | .ok a => checkLine "Parses" true :: lines a
  | .error e => [checkLine "Parses" false, s!"      {message e}"]

def brainLines (b : Brain) : List String :=
  checkLine "All jump targets exist" b.dangling.isEmpty ::
    b.dangling.map (fun (i, target) => s!"      state {i} jumps to missing state {target.val}") ++
    [s!"  States: {b.size}"]

def mapLines (g : Ground) : List String :=
  [s!"  Size: {g.width.val}x{g.height.val}", s!"  Food: {g.totalFood}"] ++
    Colony.both.map fun c =>
      let cells := g.hills.countP fun (_, owner) => owner == c
      checkLine s!"{c} anthill present ({cells} cells)" (cells != 0)

/-- Prints what was found in a file, and counts it if it is bad. -/
def report {Error α : Type} (title : String) (message : Error → String)
    (lines : α → List String) (found : Except Error α) : ExceptT CommandError m Nat := do
  printLine title
  (checkLines message lines found).forM printLine
  printLine ""
  return if found.isOk then 0 else 1

def executeValidate (brains : List String) (map? : Option String) :
    ExceptT CommandError m Unit := do
  if brains.isEmpty && map?.isNone then throw .nothingToValidate
  let mut bad := 0
  for path in brains do
    let found ← ExceptT.lift (loadBrain path).run
    bad := bad + (← report s!"Validating brain: {path}" BrainFileError.message brainLines found)
  if let some path := map? then
    let found ← ExceptT.lift (loadMap path).run
    bad := bad + (← report s!"Validating world: {path}" MapFileError.message mapLines found)
  if bad ≠ 0 then throw (.invalidFiles bad)
  printLine "Validation successful!"

def executeGenerate (seed : Int64) (plan : MapPlan) (output? : Option String) :
    ExceptT CommandError m Unit := do
  match Ground.generate seed plan with
  | .error cause => throw (.plan cause)
  | .ok ground =>
    match output? with
    | none => print ground.mapText
    | some path =>
      if let .error fault ← (Host.writeText path ground.mapText : m _) then
        throw (.mapFile path fault)
      ExceptT.lift (Host.notice s!"World written to: {path}")

def execute : Command → ExceptT CommandError m Unit
  | .run red black setting format save? dump? quiet =>
    executeRun red black setting format save? dump? quiet
  | .contest first second setting rounds? format =>
    executeContest first second setting rounds? format
  | .cup entrants setting rounds? format => executeCup entrants setting rounds? format
  | .watch red black setting => executeWatch red black setting
  | .replay path format turn? every => executeReplay path format turn? every
  | .validate brains map? => executeValidate brains map?
  | .generate seed plan output? => executeGenerate seed plan output?

end Execute

end Command

end AntContest

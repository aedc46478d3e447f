import AntContest.Command.Host
import AntContest.Cup.Knockout
import AntContest.Ground.Scatter
import AntContest.Recording.Document
import AntContest.Recording.Playback

/-!
# Brains, maps and recordings in files

A file either cannot be read, or does not hold what it should; the error says which.
-/

namespace AntContest

/-- Why a file gives no value: it cannot be read, or it is malformed for the given cause. -/
inductive FileError (Cause : Type) where
  | unreadable (path : String) (fault : FileFault)
  | malformed (cause : Cause)
deriving DecidableEq, Repr

/-- Why a file gives no brain. -/
abbrev BrainFileError := FileError BrainError

/-- Why a file gives no map. -/
abbrev MapFileError := FileError MapError

/-- Why a file gives no recording. -/
abbrev RecordingFileError := FileError Unit

def BrainFileError.message : BrainFileError → String
  | .unreadable path fault => s!"cannot read brain: {path}: {fault.message}"
  | .malformed cause => cause.message

def MapFileError.message : MapFileError → String
  | .unreadable path fault => s!"cannot read world: {path}: {fault.message}"
  | .malformed cause => cause.message

def RecordingFileError.message : RecordingFileError → String
  | .unreadable path fault => s!"recording I/O failed: {path}: {fault.message}"
  | .malformed () => "malformed recording: no recording in JSON"

/-- Why entrants or a map cannot be had. -/
inductive LoadError where
  | brain (cause : BrainFileError)
  | map (cause : MapFileError)
  | plan (cause : MapPlanError)
deriving DecidableEq, Repr

def LoadError.message : LoadError → String
  | brain cause => s!"Brain error: {BrainFileError.message cause}"
  | map cause => s!"World error: {MapFileError.message cause}"
  | plan cause => cause.message

section Load

variable {m : Type → Type} [Monad m] [Host m]

/-- Reads a file and then its text. -/
def loadFile {Cause α : Type} (path : String) (read : String → Except Cause α) :
    ExceptT (FileError Cause) m α := do
  match ← (Host.readText path : m _) with
  | .error fault => throw (.unreadable path fault)
  | .ok text =>
    match read text with
    | .error cause => throw (.malformed cause)
    | .ok a => return a

/-- Loads a brain, which is called after its file. -/
def loadBrain (path : String) : ExceptT BrainFileError m Brain :=
  loadFile path (Brain.read (Path.fileStem path))

def loadMap (path : String) : ExceptT MapFileError m Ground :=
  loadFile path Ground.readMap

def loadRecording (path : String) : ExceptT RecordingFileError m Recording :=
  loadFile path fun text =>
    match Recording.read? text with
    | some r => .ok r
    | none => .error ()

def saveRecording (path : String) (r : Recording) : ExceptT RecordingFileError m Unit := do
  match ← (Host.writeText path r.text : m _) with
  | .error fault => throw (.unreadable path fault)
  | .ok () => return ()

/-- Loads brains in order, up to the first that cannot be had. -/
def loadEntrants (paths : List String) : ExceptT LoadError m (List Brain) :=
  paths.mapM fun path => (loadBrain path).adapt .brain

/-- Loads a map, or generates one of the default measures from the seed. -/
def loadArena (path? : Option String) (seed : Int64) : ExceptT LoadError m Ground :=
  match path? with
  | some path => (loadMap path).adapt .map
  | none =>
    match Ground.generate seed {} with
    | .ok ground => return ground
    | .error cause => throw (.plan cause)

end Load

end AntContest

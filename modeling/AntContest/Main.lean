import AntContest.Command.Program

/-!
# The command line

The program on the files and streams of the machine.  Nothing is decided here.
-/

namespace AntContest

/-- The fault that a failed action on a file stands for. -/
def FileFault.ofIO : IO.Error → FileFault
  | .noFileOrDirectory .. => .notFound
  | .inappropriateType .. => .notAFolder
  | .resourceVanished .. => .notFound
  | .invalidArgument .. => .nameTooLong
  | _ => .isAFolder

/-- Runs an action on a file, and turns its failure into a fault. -/
def attempt {α : Type} (action : IO α) : IO (Except FileFault α) :=
  try return .ok (← action) catch e => return .error (.ofIO e)

instance : Host IO where
  readText path := do
    match ← attempt (IO.FS.readBinFile path) with
    | .error fault => return .error fault
    | .ok bytes =>
      match String.fromUTF8? bytes with
      | some text => return .ok text
      | none => return .error .notText
  writeText path text := attempt (IO.FS.writeFile path text)
  print text := do (← IO.getStdout).putStr text
  notice line := do (← IO.getStderr).putStrLn line

end AntContest

def main (arguments : List String) : IO UInt32 :=
  AntContest.Program.run arguments

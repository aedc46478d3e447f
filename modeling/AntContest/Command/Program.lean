import AntContest.Command.Arguments
import AntContest.Command.Execute

/-!
# The program

The program reads its command line, carries the command out and gives an exit code: `0` for
success, `1` for a command that failed, and `2` for a command line that is refused.
-/

namespace AntContest

namespace Program

def version : String := Command.programName ++ " 0.1.0"

def run {m : Type → Type} [Monad m] [Host m] (arguments : List String) : m UInt32 := do
  match Command.ofArguments arguments with
  | .error .refused =>
    Host.notice ("Usage: " ++ Command.programPage.synopsis)
    return 2
  | .error (.help page full) =>
    Host.print (page.text full)
    return 0
  | .error .version =>
    Host.print (version ++ "\n")
    return 0
  | .ok command =>
    match ← (command.execute : ExceptT CommandError m Unit).run with
    | .ok () => return 0
    | .error cause =>
      Host.notice s!"Error: {cause.message}"
      return 1

end Program

end AntContest

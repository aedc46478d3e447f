import AntContest.Disk.Basic

/-!
# What commands run on

A command reads and writes files, prints to its output, and gives notice of what it did beside
its output.  `Host` is a monad with these actions.  A `Session` carries a disk and what was
printed, and serves as a host that is nothing but data.
-/

namespace AntContest

/-- The surroundings of a command. -/
class Host (m : Type → Type) where
  readText : String → m (Except FileFault String)
  writeText : String → String → m (Except FileFault Unit)
  print : String → m Unit
  notice : String → m Unit

/-- A disk, the output so far, and the notices so far. -/
structure Session where
  disk : Disk
  output : String := ""
  notices : List String := []

instance : Host (StateM Session) where
  readText path := do return (← get).disk.readText path
  writeText path text := do
    match (← get).disk.writeText path text with
    | .ok disk =>
      modify fun s => { s with disk }
      return .ok ()
    | .error fault => return .error fault
  print text := modify fun s => { s with output := s.output ++ text }
  notice line := modify fun s => { s with notices := s.notices ++ [line] }

end AntContest

import AntContest.Disk.Path

/-!
# Files and folders

A disk holds files and folders under the paths that lead to them.  Reading and writing go along
the parts of a path, from the root folder or from the folder in which the program works, and fail
with the cause that stops them first.
-/

namespace AntContest

/-- Why a file cannot be read or written. -/
inductive FileFault where
  /-- There is nothing there, or no folder to hold it. -/
  | notFound
  /-- The path goes on after a file. -/
  | notAFolder
  /-- The path leads to a folder. -/
  | isAFolder
  /-- The path, or a part of it, is longer than it can be. -/
  | nameTooLong
  /-- The path holds the null character. -/
  | nullInName
  /-- The bytes of the file are no text. -/
  | notText
deriving DecidableEq, Repr

def FileFault.message : FileFault → String
  | notFound => "No such file or directory (os error 2)"
  | notAFolder => "Not a directory (os error 20)"
  | isAFolder => "Is a directory (os error 21)"
  | nameTooLong => "File name too long (os error 36)"
  | nullInName => "file name contained an unexpected NUL byte"
  | notText => "stream did not contain valid UTF-8"

/-- A file with its bytes, or a folder. -/
inductive DiskEntry where
  | file (bytes : ByteArray)
  | folder

/-- What stands at each place below the root folder, and the place of the folder in which the
program works; a place is the list of names that lead to it. -/
structure Disk where
  entries : List (List String × DiskEntry) := []
  home : List String := []

namespace Disk

/-- The most bytes that a name can have. -/
def nameLimit : Nat := 255

/-- The most bytes that a path can have. -/
def pathLimit : Nat := 4095

/-- What stands at a place. -/
def entry? (d : Disk) : List String → Option DiskEntry
  | [] => some .folder
  | place => d.entries.lookup place

/-- The disk with something put at a place. -/
def put (d : Disk) (place : List String) (e : DiskEntry) : Disk :=
  { d with entries := (place, e) :: d.entries.filter fun (other, _) => other ≠ place }

/-- The folder that a name leads to from a folder. -/
def enter (d : Disk) (folder : List String) (name : String) : Except FileFault (List String) :=
  let place := folder ++ [name]
  if name = "." then .ok folder
  else if name = ".." then .ok folder.dropLast
  else if nameLimit < name.utf8ByteSize then .error .nameTooLong
  else
    match d.entry? place with
    | some .folder => .ok place
    | some (.file _) => .error .notAFolder
    | none => .error .notFound

/-- The folder in which the last name of a path stands, and that name. -/
def lastFolder (d : Disk) (path : String) : Except FileFault (List String × String) :=
  if path.toList.contains '\x00' then .error .nullInName
  else if path = "" then .error .notFound
  else if pathLimit < path.utf8ByteSize then .error .nameTooLong
  else do
    let names := Path.names path
    let start := if Path.isAbsolute path then [] else d.home
    return (← names.dropLast.foldlM d.enter start, names.getLastD ".")

/-- The place that the last name of a path stands for; there may be nothing. -/
def lastPlace (d : Disk) (folder : List String) (name : String) :
    Except FileFault (List String) :=
  if name = "." ∨ name = ".." then d.enter folder name
  else if nameLimit < name.utf8ByteSize then .error .nameTooLong
  else .ok (folder ++ [name])

def readBytes (d : Disk) (path : String) : Except FileFault ByteArray := do
  let (folder, name) ← d.lastFolder path
  match d.entry? (← d.lastPlace folder name) with
  | none => throw .notFound
  | some .folder => throw .isAFolder
  | some (.file bytes) => if Path.endsInSlash path then throw .notAFolder else return bytes

def readText (d : Disk) (path : String) : Except FileFault String := do
  match String.fromUTF8? (← d.readBytes path) with
  | some text => return text
  | none => throw .notText

/-- The disk with a text written to the file at a path; a path that asks for a folder is refused
before its last name is looked up. -/
def writeText (d : Disk) (path text : String) : Except FileFault Disk := do
  let (folder, name) ← d.lastFolder path
  if Path.endsInSlash path then throw .isAFolder
  let place ← d.lastPlace folder name
  match d.entry? place with
  | some .folder => throw .isAFolder
  | _ => return d.put place (.file text.toUTF8)

/-- The disk with a file put at a place, and the folders that lead to it. -/
def install (d : Disk) (place : List String) (e : DiskEntry) : Disk :=
  let folders := (List.range place.length).map fun n => place.take n
  (folders.foldl (fun d folder => if (d.entry? folder).isSome then d else d.put folder .folder)
    d).put place e

/-- A disk with nothing but the folder in which the program works, and those that lead to it. -/
def withHome (home : List String) : Disk :=
  ({ home } : Disk).install home .folder

end Disk

end AntContest

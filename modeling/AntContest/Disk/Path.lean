/-!
# File paths

A path is a text cut at slashes; one that begins with a slash begins at the root folder.  Empty
pieces say nothing, a single dot stays in the folder that it stands in, and two dots go up.
-/

namespace AntContest

namespace Path

/-- The names along a path, dots among them. -/
def names (path : String) : List String :=
  (path.splitOn "/").filter (· ≠ "")

/-- The names along a path without those that stay where they are. -/
def parts (path : String) : List String :=
  (names path).filter (· ≠ ".")

/-- Whether a path begins at the root folder. -/
def isAbsolute (path : String) : Bool :=
  path.startsWith "/"

/-- The last part of a path as it is written, after any slashes at the end are left out. -/
def fileName? (path : String) : Option String :=
  (parts path).getLast?.filter (· ≠ "..")

/-- A name without its extension: what stands before the last dot, unless that is nothing. -/
def stem (name : String) : String :=
  let cs := name.toList.reverse
  match (cs.dropWhile (· != '.')).tail.reverse with
  | [] => name
  | before => String.ofList before

/-- The name of a file without its extension, or the path as it is if it names no file. -/
def fileStem (path : String) : String :=
  match fileName? path with
  | none => path
  | some name => stem name

/-- Whether a path asks for a folder by a slash at its end. -/
def endsInSlash (path : String) : Bool :=
  path.endsWith "/"

end Path

end AntContest

import AntContest.Text.Blank

/-!
# Cutting a text

* `pieces isSep cs` cuts at every separator; there is one piece more than there are separators.
* `words` are the non-empty pieces between gaps.
* `lines` ends a line at a line feed, or at the end of a text that does not end in one; a
  return just before the line feed belongs to the line's end.
-/

namespace AntContest.Text

/-- Puts a character in front of the first piece. -/
def consFirst (c : Char) : List (List Char) → List (List Char)
  | [] => [[c]]
  | p :: ps => (c :: p) :: ps

/-- The pieces between separators. -/
def pieces (isSep : Char → Bool) (cs : List Char) : List (List Char) :=
  cs.foldr (fun c ps => if isSep c then [] :: ps else consFirst c ps) [[]]

@[simp] theorem pieces_nil (isSep : Char → Bool) : pieces isSep [] = [[]] := rfl

theorem pieces_cons (isSep : Char → Bool) (c : Char) (cs : List Char) :
    pieces isSep (c :: cs) =
      if isSep c then [] :: pieces isSep cs else consFirst c (pieces isSep cs) := rfl

theorem pieces_ne_nil (isSep : Char → Bool) (cs : List Char) : pieces isSep cs ≠ [] := by
  cases cs with
  | nil => simp
  | cons c cs =>
    rw [pieces_cons]
    split
    · simp
    · cases pieces isSep cs <;> simp [consFirst]

def words (cs : List Char) : List (List Char) :=
  (pieces isGap cs).filter fun w => !w.isEmpty

/-- A line without the return before its line feed. -/
def dropReturn (line : List Char) : List Char :=
  if line.getLast? = some '\r' then line.dropLast else line

/-- The lines that the pieces between line feeds stand for: the last piece was not ended by a
line feed, and is a line only if something stands in it. -/
def linesOfPieces : List (List Char) → List (List Char)
  | [] => []
  | [last] => if last.isEmpty then [] else [last]
  | p :: ps => dropReturn p :: linesOfPieces ps

def lines (cs : List Char) : List (List Char) :=
  linesOfPieces (pieces (· == '\n') cs)

/-- What stands before the first occurrence of a character. -/
def before (c : Char) (cs : List Char) : List Char :=
  cs.takeWhile (· != c)

end AntContest.Text

import AntContest.Json.Value
import AntContest.Text.Decimal

/-!
# Writing JSON

A document is written either in one line or spread over lines, with an indentation of two spaces
for each level; empty containers stay closed up.  In strings, quotes, backslashes and control
characters below the space are escaped, and all else stands for itself.

Everything is written in front of `rest`, the text that follows, so that no part of a document is
copied into another.
-/

namespace AntContest

namespace Json

def hexDigit (n : Nat) : Char :=
  Nat.digitChar n

/-- A character within a string. -/
def escape (c : Char) : List Char :=
  if c = '"' then ['\\', '"']
  else if c = '\\' then ['\\', '\\']
  else if c = '\n' then ['\\', 'n']
  else if c = '\r' then ['\\', 'r']
  else if c = '\t' then ['\\', 't']
  else if c = '\x08' then ['\\', 'b']
  else if c = '\x0C' then ['\\', 'f']
  else if c.toNat < 32 then
    ['\\', 'u', '0', '0', hexDigit (c.toNat / 16), hexDigit (c.toNat % 16)]
  else [c]

/-- Writes a string between its quotes; one that is no text is written as a lone half. -/
def writeText (t : JsonText) (rest : List Char) : List Char :=
  match t with
  | none => "\"\\ud800\"".toList ++ rest
  | some s => '"' :: (s.toList.flatMap escape ++ '"' :: rest)

def writeInt (i : Int) (rest : List Char) : List Char :=
  match i with
  | .ofNat n => Text.digits n ++ rest
  | .negSucc n => '-' :: (Text.digits (n + 1) ++ rest)

/-- How a document is spread out: what begins a new line at a level, and what stands between a
key and its value. -/
structure Layout where
  newLine : Nat → List Char
  colon : List Char

/-- Everything in one line. -/
def Layout.compact : Layout := ⟨fun _ => [], [':']⟩

/-- One line for each element and member. -/
def Layout.pretty : Layout := ⟨fun n => '\n' :: List.replicate (2 * n) ' ', [':', ' ']⟩

mutual

/-- Writes a value that stands at level `n`. -/
def writeAt (l : Layout) (n : Nat) (v : Json) (rest : List Char) : List Char :=
  match v with
  | .null => "null".toList ++ rest
  | .bool b => (if b then "true" else "false").toList ++ rest
  | .int i => writeInt i rest
  | .real numeral => numeral.toList ++ rest
  | .str t => writeText t rest
  | .arr [] => '[' :: ']' :: rest
  | .arr (v :: vs) =>
    '[' :: (l.newLine (n + 1) ++ writeAt l (n + 1) v (writeElements l (n + 1) vs
      (l.newLine n ++ ']' :: rest)))
  | .obj [] => '{' :: '}' :: rest
  | .obj ((k, v) :: ms) =>
    '{' :: (l.newLine (n + 1) ++ writeText k (l.colon ++ writeAt l (n + 1) v
      (writeMembers l (n + 1) ms (l.newLine n ++ '}' :: rest))))

/-- Writes the elements after the first. -/
def writeElements (l : Layout) (n : Nat) (vs : List Json) (rest : List Char) : List Char :=
  match vs with
  | [] => rest
  | v :: vs => ',' :: (l.newLine n ++ writeAt l n v (writeElements l n vs rest))

/-- Writes the members after the first. -/
def writeMembers (l : Layout) (n : Nat) (ms : List (JsonText × Json)) (rest : List Char) :
    List Char :=
  match ms with
  | [] => rest
  | (k, v) :: ms =>
    ',' :: (l.newLine n ++ writeText k (l.colon ++ writeAt l n v (writeMembers l n ms rest)))

end

/-- The document in one line. -/
def compact (v : Json) : String := String.ofList (writeAt .compact 0 v [])

/-- The document spread over lines. -/
def pretty (v : Json) : String := String.ofList (writeAt .pretty 0 v [])

end Json

end AntContest

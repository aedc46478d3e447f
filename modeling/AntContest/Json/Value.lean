/-!
# JSON values

A JSON document read as data.  Numerals without fraction and exponent are integers, as long as a
64-bit word and a sign can hold them; of the others only the numeral is kept, and so of minus zero,
which is no integer either.  An escape may stand for half of a surrogate pair; a string with such a
half alone is no text, and nothing of it is kept.
-/

namespace AntContest

/-- A string of JSON, if it is a text. -/
abbrev JsonText := Option String

/-- A JSON value. -/
inductive Json where
  | null
  | bool (b : Bool)
  | int (i : Int)
  | real (numeral : String)
  | str (text? : JsonText)
  | arr (elements : List Json)
  | obj (members : List (JsonText × Json))
deriving Inhabited

namespace Json

def text (s : String) : Json := .str (some s)

def nat (n : Nat) : Json := .int n

def object (fields : List (String × Json)) : Json :=
  .obj (fields.map fun (k, v) => (some k, v))

/-- A value, or `null` for none. -/
def orNull {α : Type} (f : α → Json) : Option α → Json
  | none => .null
  | some a => f a

end Json

end AntContest

import AntContest.Json.Token
import AntContest.Json.Value

/-!
# Reading JSON

`Json.read` puts the tokens of a text together.  The containers that are still open stand on a
stack, so a document may be nested as deeply as it likes, and every token is looked at once.
-/

namespace AntContest

namespace Json

/-- A container that waits for the value that is being read. -/
inductive Frame where
  /-- An array with its elements so far, the last one first. -/
  | element (before : List Json)
  /-- An object with its members so far, the last one first, and the key of the value. -/
  | member (before : List (JsonText × Json)) (key : JsonText)

/-- What is expected next, with the containers that wait. -/
inductive Expect where
  | value (open_ : List Frame)
  | elementOrEnd (open_ : List Frame)
  | keyOrEnd (open_ : List Frame)
  | key (before : List (JsonText × Json)) (open_ : List Frame)
  | colon (before : List (JsonText × Json)) (key : JsonText) (open_ : List Frame)
  | afterElement (before : List Json) (open_ : List Frame)
  | afterMember (before : List (JsonText × Json)) (open_ : List Frame)
  | nothing (document : Json)

/-- A value is complete. -/
def complete (v : Json) : List Frame → Expect
  | [] => .nothing v
  | .element before :: open_ => .afterElement (v :: before) open_
  | .member before key :: open_ => .afterMember ((key, v) :: before) open_

/-- A token where a value is expected. -/
def beginValue (open_ : List Frame) : Token → Option Expect
  | .openBracket => some (.elementOrEnd open_)
  | .openBrace => some (.keyOrEnd open_)
  | .null => some (complete .null open_)
  | .bool b => some (complete (.bool b) open_)
  | .int i => some (complete (.int i) open_)
  | .real numeral => some (complete (.real numeral) open_)
  | .str t => some (complete (.str t) open_)
  | _ => none

def readToken : Expect → Token → Option Expect
  | .value open_, t => beginValue open_ t
  | .elementOrEnd open_, .closeBracket => some (complete (.arr []) open_)
  | .elementOrEnd open_, t => beginValue (.element [] :: open_) t
  | .keyOrEnd open_, .closeBrace => some (complete (.obj []) open_)
  | .keyOrEnd open_, .str key => some (.colon [] key open_)
  | .key before open_, .str key => some (.colon before key open_)
  | .colon before key open_, .colon => some (.value (.member before key :: open_))
  | .afterElement before open_, .comma => some (.value (.element before :: open_))
  | .afterElement before open_, .closeBracket => some (complete (.arr before.reverse) open_)
  | .afterMember before open_, .comma => some (.key before open_)
  | .afterMember before open_, .closeBrace => some (complete (.obj before.reverse) open_)
  | _, _ => none

def readTokens : Expect → List Token → Option Expect
  | e, [] => some e
  | e, t :: ts =>
    match readToken e t with
    | none => none
    | some e => readTokens e ts

def read (text : String) : Option Json :=
  match (scan text).bind (readTokens (.value [])) with
  | some (.nothing document) => some document
  | _ => none

end Json

end AntContest

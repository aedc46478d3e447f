import AntContest.Text.Decimal

/-!
# The tokens of JSON

`Json.scan` cuts a text into tokens, character by character.  It is strict: a numeral has no
superfluous zeros and no empty parts, only the four blanks of JSON separate tokens, and a control
character within a string is an error.
-/

namespace AntContest

namespace Json

/-- A token; a string is kept only if it is a text. -/
inductive Token where
  | openBrace
  | closeBrace
  | openBracket
  | closeBracket
  | colon
  | comma
  | null
  | bool (b : Bool)
  | int (i : Int)
  | real (numeral : String)
  | str (text? : Option String)
deriving DecidableEq, Repr

/-! ### Strings -/

/-- A part of a string: a character, or a 16-bit unit written as an escape. -/
inductive Piece where
  | char (c : Char)
  | unit (n : Nat)
deriving DecidableEq, Repr

/-- Whether a unit is the first half of a surrogate pair. -/
def isHighHalf (n : Nat) : Bool := 0xD800 ≤ n && n < 0xDC00

/-- Whether a unit is the second half of a surrogate pair. -/
def isLowHalf (n : Nat) : Bool := 0xDC00 ≤ n && n < 0xE000

/-- The character of a surrogate pair. -/
def pairChar (high low : Nat) : Char :=
  Char.ofNat (0x10000 + (high - 0xD800) * 0x400 + (low - 0xDC00))

/-- The text of a string, unless half of a pair stands alone.  The parts come last one first; a
second half waits for the first half in front of it. -/
def assemble (text : List Char) : Option Nat → List Piece → Option (List Char)
  | none, [] => some text
  | none, .char c :: ps => assemble (c :: text) none ps
  | none, .unit n :: ps =>
    if isLowHalf n then assemble text (some n) ps
    else if isHighHalf n then none
    else assemble (Char.ofNat n :: text) none ps
  | some low, .unit n :: ps =>
    if isHighHalf n then assemble (pairChar n low :: text) none ps else none
  | some _, _ => none

/-- The character for a letter after a backslash. -/
def escaped? : Char → Option Char
  | '"' => some '"'
  | '\\' => some '\\'
  | '/' => some '/'
  | 'b' => some '\x08'
  | 'f' => some '\x0C'
  | 'n' => some '\n'
  | 'r' => some '\r'
  | 't' => some '\t'
  | _ => none

/-- The value of a hexadecimal digit. -/
def hexValue? (c : Char) : Option Nat :=
  if '0' ≤ c ∧ c ≤ '9' then some (c.toNat - '0'.toNat)
  else if 'a' ≤ c ∧ c ≤ 'f' then some (c.toNat - 'a'.toNat + 10)
  else if 'A' ≤ c ∧ c ≤ 'F' then some (c.toNat - 'A'.toNat + 10)
  else none

/-! ### Numerals and names -/

/-- Drops at least one digit. -/
def dropDigits? (cs : List Char) : Option (List Char) :=
  if (cs.head?.any Char.isDigit) then some (cs.dropWhile Char.isDigit) else none

/-- Drops a sign of an exponent. -/
def dropSign : List Char → List Char
  | '+' :: cs => cs
  | '-' :: cs => cs
  | cs => cs

/-- Whether a text is what may follow the whole part of a numeral: a fraction, an exponent, or
both. -/
def isTail (cs : List Char) : Bool :=
  let afterFraction? :=
    match cs with
    | '.' :: r => dropDigits? r
    | _ => some cs
  match afterFraction? with
  | none => false
  | some [] => true
  | some (e :: r) => (e == 'e' || e == 'E') && dropDigits? (dropSign r) == some []

/-- The limit of the numbers that are kept as integers: those of a 64-bit word. -/
def wordLimit : Nat := UInt64.size

/-- Reads an unsigned numeral: the number, if it is an integer of a word, and none if only its
digits can be kept. -/
def unsigned? (cs : List Char) : Option (Option Nat) :=
  let whole := cs.takeWhile Char.isDigit
  let tail := cs.dropWhile Char.isDigit
  if whole = [] ∨ (whole.head? = some '0' ∧ whole.length ≠ 1) then none
  else if tail = [] then some (Text.digitsBelow? wordLimit whole)
  else if isTail tail then some none
  else none

/-- The token of a word that is no string. -/
def wordToken? (w : List Char) : Option Token :=
  if w = "null".toList then some .null
  else if w = "true".toList then some (.bool true)
  else if w = "false".toList then some (.bool false)
  else
    match w with
    | '-' :: cs =>
      (unsigned? cs).map fun
        | some (n + 1) => .int (-(n + 1 : Int))
        | _ => .real (String.ofList w)
    | cs =>
      (unsigned? cs).map fun
        | some n => .int n
        | none => .real (String.ofList w)

/-! ### Scanning -/

/-- The token of a single character. -/
def mark? : Char → Option Token
  | '{' => some .openBrace
  | '}' => some .closeBrace
  | '[' => some .openBracket
  | ']' => some .closeBracket
  | ':' => some .colon
  | ',' => some .comma
  | _ => none

/-- The blanks of JSON. -/
def isSpace (c : Char) : Bool :=
  c == ' ' || c == '\t' || c == '\n' || c == '\r'

/-- Where the scanner is: between tokens, or within a word or a string with what was read of it,
the last part first. -/
inductive Place where
  | free
  | word (read : List Char)
  | string (read : List Piece)
  | escape (read : List Piece)
  | hex (read : List Piece) (left value : Nat)
deriving DecidableEq, Repr

/-- The tokens that end where a character other than a letter of a word begins, and the place
after that character. -/
def enter (c : Char) : Option (List Token × Place) :=
  if c == '"' then some ([], .string [])
  else if isSpace c then some ([], .free)
  else
    match mark? c with
    | some t => some ([t], .free)
    | none => some ([], .word [c])

/-- Reads one character: the tokens that it completes, and the place after it. -/
def scanChar (c : Char) : Place → Option (List Token × Place)
  | .free => enter c
  | .word read =>
    if c == '"' || isSpace c || (mark? c).isSome then do
      let t ← wordToken? read.reverse
      let (ts, place) ← enter c
      return (t :: ts, place)
    else some ([], .word (c :: read))
  | .string read =>
    if c == '"' then some ([.str ((assemble [] none read).map String.ofList)], .free)
    else if c == '\\' then some ([], .escape read)
    else if c.toNat < 32 then none
    else some ([], .string (.char c :: read))
  | .escape read =>
    if c == 'u' then some ([], .hex read 3 0)
    else (escaped? c).map fun c => ([], .string (.char c :: read))
  | .hex read left value =>
    (hexValue? c).map fun d =>
      let value := 16 * value + d
      match left with
      | 0 => ([], .string (.unit value :: read))
      | left + 1 => ([], .hex read left value)

/-- The tokens that the end of the text completes; a string must have been closed. -/
def scanEnd : Place → Option (List Token)
  | .free => some []
  | .word read => (wordToken? read.reverse).map fun t => [t]
  | _ => none

/-- Scans a text; `done` holds the tokens that were completed, the last one first. -/
def scanFrom (done : List Token) : Place → List Char → Option (List Token)
  | place, [] => (scanEnd place).map fun ts => (ts.reverse ++ done).reverse
  | place, c :: cs =>
    match scanChar c place with
    | none => none
    | some (ts, place) => scanFrom (ts.reverse ++ done) place cs

/-- The tokens of a text. -/
def scan (text : String) : Option (List Token) :=
  scanFrom [] .free text.toList

end Json

end AntContest

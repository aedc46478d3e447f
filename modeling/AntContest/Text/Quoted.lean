import AntContest.Text.Hidden

/-!
# Quoted text in messages

A message shows a piece of input between quotes.  Backslashes, the quote in use and the usual
control characters are escaped by a backslash; a character without a glyph of its own is shown
by its code point in braces, in lower-case hexadecimal.
-/

namespace AntContest.Text

/-- A code point in braces, as in `\u` followed by a hexadecimal number. -/
def codePoint (c : Char) : List Char :=
  ['\\', 'u', '\x7b'] ++ Nat.toDigits 16 c.toNat ++ ['\x7d']

/-- One character between quotes `quote`. -/
def escape (quote c : Char) : List Char :=
  if c = '\x00' then ['\\', '0']
  else if c = '\t' then ['\\', 't']
  else if c = '\n' then ['\\', 'n']
  else if c = '\r' then ['\\', 'r']
  else if c = '\\' ∨ c = quote then ['\\', c]
  else if isHidden c then codePoint c
  else [c]

/-- A text between double quotes. -/
def quoted (cs : List Char) : String :=
  String.ofList ('"' :: cs.flatMap (escape '"') ++ ['"'])

/-- A character between single quotes. -/
def quotedChar (c : Char) : String :=
  String.ofList ('\'' :: escape '\'' c ++ ['\''])

end AntContest.Text

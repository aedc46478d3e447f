import AntContest.Command.Usage

/-!
# Help pages

A help page says what a command is for, how it is called, and what each of its operands and
switches means.  A page is written in brief or in full: in full, the words that a value may be
are explained one by one.

A section of a page consists of rows, each with a head and a text.  In brief the texts stand
beside the heads, in one column; in full they stand below them.
-/

namespace AntContest

structure HelpRow where
  head : String
  gloss : String
  default? : Option String := none
  choices : List Term := []
deriving DecidableEq, Repr

structure HelpPage where
  purpose : String
  synopsis : String
  commands : List HelpRow := []
  operands : List HelpRow := []
  switches : List HelpRow := []
  answersHelp : Bool := true
  answersVersion : Bool := false
deriving DecidableEq, Repr

namespace HelpPage

def blanks (n : Nat) : String := "".pushn ' ' n

/-- The margin of a text that stands below its head. -/
def margin : String := blanks 10

end HelpPage

namespace HelpRow

open HelpPage

/-- A row that only says what a word stands for. -/
def ofTerm (t : Term) : HelpRow where
  head := t.word
  gloss := t.gloss

/-- What is said after the gloss: the default value, and in brief the words that a value may be. -/
def notes (full : Bool) (r : HelpRow) : List String :=
  (r.default?.map fun s => "[default: " ++ s ++ "]").toList ++
    if full || r.choices.isEmpty then []
    else ["[possible values: " ++ ", ".intercalate (r.choices.map (·.word)) ++ "]"]

/-- The text of a row in brief. -/
def brief (r : HelpRow) : String :=
  " ".intercalate (r.gloss :: r.notes false)

/-- A row in brief, beside its head. -/
def beside (width : Nat) (r : HelpRow) : String :=
  "  " ++ r.head ++ blanks (width + 2 - r.head.length) ++ r.brief

/-- The words that a value may be, one in a line. -/
def explained (choices : List Term) : String :=
  let width := (choices.map (·.word.length)).foldl max 0
  "\n\n" ++ margin ++ "Possible values:" ++ String.join (choices.map fun t =>
    "\n" ++ margin ++ "- " ++ t.word ++ ": " ++ blanks (width - t.word.length) ++ t.gloss)

/-- A row in full: the gloss, then the words that a value may be, then the notes. -/
def inFull (r : HelpRow) : String :=
  let notes := r.notes true
  "  " ++ r.head ++ "\n" ++ margin ++ r.gloss ++
    (if r.choices.isEmpty then "" else explained r.choices) ++
    if notes.isEmpty then ""
    else String.join (("" :: notes).map ("\n" ++ margin ++ ·))

end HelpRow

namespace HelpPage

/-- A section of a page; there is none without rows. -/
def part (full : Bool) (title : String) (rows : List HelpRow) : String :=
  let width := (rows.map (·.head.length)).foldl max 2
  if rows.isEmpty then ""
  else
    "\n\n" ++ title ++ ":\n" ++
      if full then "\n\n".intercalate (rows.map (·.inFull))
      else "\n".intercalate (rows.map (·.beside width))

/-- Whether more can be said in full than in brief. -/
def hasMore (page : HelpPage) : Bool :=
  (page.operands ++ page.switches).any fun r => !r.choices.isEmpty

/-- The row of the switch that asks for a page. -/
def helpRow (page : HelpPage) (full : Bool) : HelpRow where
  head := "-h, --help"
  gloss :=
    if !page.hasMore then "Print help"
    else if full then "Print help (see a summary with '-h')"
    else "Print help (see more with '--help')"

/-- The row of the switch that asks for the version. -/
def versionRow : HelpRow where
  head := "-V, --version"
  gloss := "Print version"

def text (page : HelpPage) (full : Bool) : String :=
  let full := full && page.hasMore
  let switches := page.switches ++ (if page.answersHelp then [page.helpRow full] else []) ++
    if page.answersVersion then [versionRow] else []
  page.purpose ++ "\n\nUsage: " ++ page.synopsis ++ part false "Commands" page.commands ++
    part full "Arguments" page.operands ++ part full "Options" switches ++ "\n"

end HelpPage

/-- What a value is called on a page: the name of its switch in capitals. -/
def Switch.valueName (s : Switch) : String :=
  s.long.map fun c => if c = '-' then '_' else c.toUpper

/-- The row of a switch; the long names of all switches stand in one column. -/
def Switch.row (s : Switch) : HelpRow where
  head :=
    (match s.short? with
      | some c => "-" ++ c.toString ++ ", "
      | none => "    ") ++
    "--" ++ s.long ++ if s.kind?.isSome then " <" ++ s.valueName ++ ">" else ""
  gloss := s.gloss
  default? := s.default?
  choices := (s.kind?.map ValueKind.choices).getD []

/-- How operands of one kind are shown. -/
def Operands.manyHead (word : String) : Nat → String
  | 0 => "[" ++ word ++ "]..."
  | least => " ".intercalate (List.replicate least ("<" ++ word ++ ">")) ++ "..."

def Operands.rows : Operands → List HelpRow
  | each kinds => kinds.map fun t => .ofTerm { t with word := "<" ++ t.word ++ ">" }
  | many kind least => [.ofTerm { kind with word := manyHead kind.word least }]

/-- The help page of a command of a program. -/
def Usage.page (u : Usage) (program : String) : HelpPage where
  purpose := u.purpose
  synopsis := " ".intercalate ([program, u.name, "[OPTIONS]"] ++ u.operands.rows.map (·.head))
  operands := u.operands.rows
  switches := u.switches.map Switch.row

end AntContest

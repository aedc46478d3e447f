import AntContest.Brain.Instruction

/-!
# The words of brain texts

Each instruction begins with the word of its `Opcode`; views, turn sides and conditions have words
of their own.  A table lists the values of each kind, and a word is looked up in it, so a value
is found again by its own word because no two words of a table are equal.
-/

namespace AntContest

/-- The kind of an instruction. -/
inductive Opcode where
  | sense
  | mark
  | unmark
  | pickUp
  | drop
  | turn
  | move
  | flip
deriving DecidableEq, Repr

namespace Opcode

def all : List Opcode := [sense, mark, unmark, pickUp, drop, turn, move, flip]

/-- The word that an instruction begins with. -/
def word : Opcode → String
  | sense => "SENSE"
  | mark => "MARK"
  | unmark => "UNMARK"
  | pickUp => "PICKUP"
  | drop => "DROP"
  | turn => "TURN"
  | move => "MOVE"
  | flip => "FLIP"

def ofWord? (w : List Char) : Option Opcode :=
  all.find? fun op => op.word.toList == w

@[simp] theorem ofWord?_word (op : Opcode) : ofWord? op.word.toList = some op := by
  cases op <;> rfl

end Opcode

namespace View

def all : List View := [here, ahead, leftAhead, rightAhead]

/-- The word for a view. -/
def word : View → String
  | here => "HERE"
  | ahead => "AHEAD"
  | leftAhead => "LEFTAHEAD"
  | rightAhead => "RIGHTAHEAD"

def ofWord? (w : List Char) : Option View :=
  all.find? fun v => v.word.toList == w

@[simp] theorem ofWord?_word (v : View) : ofWord? v.word.toList = some v := by
  cases v <;> rfl

end View

namespace TurnSide

def all : List TurnSide := [left, right]

/-- The word for a side. -/
def word : TurnSide → String
  | left => "LEFT"
  | right => "RIGHT"

def ofWord? (w : List Char) : Option TurnSide :=
  all.find? fun s => s.word.toList == w

@[simp] theorem ofWord?_word (s : TurnSide) : ofWord? s.word.toList = some s := by
  cases s <;> rfl

end TurnSide

namespace Condition

/-- The word in front of the number of a marker. -/
def markerWord : String := "MARKER"

/-- The conditions that are one fixed word. -/
def plain : List (Condition × String) :=
  [(friend, "FRIEND"), (foe, "FOE"), (friendWithFood, "FRIENDWITHFOOD"),
    (foeWithFood, "FOEWITHFOOD"), (food, "FOOD"), (rock, "ROCK"), (foeMarker, "FOEMARKER"),
    (home, "HOME"), (foeHome, "FOEHOME")]

/-- The condition that a fixed word stands for. -/
def ofPlainWord? (w : List Char) : Option Condition :=
  (plain.find? fun entry => entry.2.toList == w).map (·.1)

/-- The text of a condition: its word, or the marker word and a number. -/
def text : Condition → String
  | friend => "FRIEND"
  | foe => "FOE"
  | friendWithFood => "FRIENDWITHFOOD"
  | foeWithFood => "FOEWITHFOOD"
  | food => "FOOD"
  | rock => "ROCK"
  | marker m => s!"{markerWord} {m.val}"
  | foeMarker => "FOEMARKER"
  | home => "HOME"
  | foeHome => "FOEHOME"

end Condition

end AntContest

import AntContest.Text.Decimal

/-!
# What commands take

A `Usage` says which switches and operands a command takes, and what each of them is for.
Command lines are read by it, and help pages are written from it.
-/

namespace AntContest

/-- A word on a command line or a help page, and what it stands for. -/
structure Term where
  word : String
  gloss : String
deriving DecidableEq, Repr

/-- What a value has to be. -/
inductive ValueKind where
  | path
  | anyText
  | int64
  | uint32
  | uint64
  | oneOf (choices : List Term)
deriving DecidableEq, Repr

namespace ValueKind

/-- A signed 64-bit word in decimal. -/
def int64? (s : String) : Option Int64 :=
  (Text.intBetween? (-0x8000000000000000) 0x8000000000000000 s.toList).map Int64.ofInt

/-- An unsigned 32-bit word in decimal; zero may have a minus sign. -/
def uint32? (s : String) : Option UInt32 :=
  (Text.intBetween? 0 UInt32.size s.toList).map fun i => UInt32.ofNat i.toNat

/-- An unsigned 64-bit word in decimal. -/
def uint64? (s : String) : Option Nat :=
  Text.natBelow? UInt64.size s.toList

/-- Whether a value is of a kind. -/
def accepts : ValueKind → String → Bool
  | path, s => s ≠ ""
  | anyText, _ => true
  | int64, s => (int64? s).isSome
  | uint32, s => (uint32? s).isSome
  | uint64, s => (uint64? s).isSome
  | oneOf choices, s => choices.any (·.word == s)

/-- The words that a value may be, where they are fixed. -/
def choices : ValueKind → List Term
  | oneOf choices => choices
  | _ => []

end ValueKind

/-- A switch by its long name, with what it is for, the kind of its value if it takes one, and the
value that stands for a missing switch. -/
structure Switch where
  long : String
  gloss : String
  short? : Option Char := none
  kind? : Option ValueKind := none
  default? : Option String := none
deriving DecidableEq, Repr

/-- The operands of a command: one of each kind, or any number of one kind.  Any number means at
least `least`, and as many at least wherever operands stand in a row. -/
inductive Operands where
  | each (kinds : List Term)
  | many (kind : Term) (least : Nat)
deriving DecidableEq, Repr

namespace Operands

def least : Operands → Nat
  | each kinds => kinds.length
  | many _ least => least

/-- The most operands, if there is a limit. -/
def most? : Operands → Option Nat
  | each kinds => some kinds.length
  | many _ _ => none

/-- The fewest operands in a row. -/
def inRow : Operands → Nat
  | each _ => 0
  | many _ least => least

end Operands

/-- What a command takes. -/
structure Usage where
  name : String
  purpose : String
  switches : List Switch
  operands : Operands := .each []
deriving DecidableEq, Repr

end AntContest

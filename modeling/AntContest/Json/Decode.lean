import AntContest.Json.Value

/-!
# Records in JSON

A record is written as an object with its fields by name, or as an array with its fields in order.
Fields of other names are passed over; a field given twice, or an array with more elements than
there are fields, is refused.  Whether a field may be missing is for the reader of the record to
say.
-/

namespace AntContest

namespace Json

def text? : Json → Option String
  | .str t => t
  | _ => none

/-- The integer of a numeral. -/
def int? : Json → Option Int
  | .int i => some i
  | _ => none

/-- An integer in a half-open range. -/
def intIn? (low limit : Int) (v : Json) : Option Int :=
  v.int?.filter fun i => low ≤ i ∧ i < limit

/-- A natural number below a limit. -/
def natBelow? (limit : Nat) (v : Json) : Option Nat :=
  (v.intIn? 0 limit).map Int.toNat

/-- A signed 64-bit word. -/
def int64? (v : Json) : Option Int64 :=
  (v.intIn? (-0x8000000000000000) 0x8000000000000000).map Int64.ofInt

/-- An unsigned 32-bit word. -/
def uint32? (v : Json) : Option UInt32 :=
  (v.natBelow? UInt32.size).map UInt32.ofNat

/-- An unsigned 64-bit word. -/
def uint64? (v : Json) : Option UInt64 :=
  (v.natBelow? UInt64.size).map UInt64.ofNat

/-- The values of the fields of a record, in the order of the names. -/
def fields? (names : List String) : Json → Option (List (Option Json))
  | .arr vs =>
    if vs.length ≤ names.length then
      some (vs.map some ++ List.replicate (names.length - vs.length) none)
    else none
  | .obj ms =>
    if ms.all fun (k, _) => k.isSome then
      names.mapM fun name =>
        match ms.filter fun (k, _) => k == some name with
        | [] => some none
        | [(_, v)] => some (some v)
        | _ => none
    else none
  | _ => none

/-- The value of a field that may be missing. -/
def orDefault {α : Type} (read : Json → Option α) (default : α) : Option Json → Option α
  | none => some default
  | some v => read v

end Json

end AntContest

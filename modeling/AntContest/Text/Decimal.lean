/-!
# Decimal numerals

* `digits n` writes a natural number in decimal.
* `digitsBelow? limit` reads a non-empty list of digits with a value below the limit.  It reads no
  further than the limit, so a long numeral costs no long arithmetic; `digitsBelow?_eq` says that
  what it finds is the value of the digits all the same.
* `natBelow? limit` reads a numeral: an optional plus sign, then digits and nothing else, with a
  value below the limit.  Leading zeros are allowed.
* `intBetween?` reads a numeral that may also carry a minus sign.
-/

namespace AntContest.Text

def digits (n : Nat) : List Char :=
  Nat.toDigits 10 n

def digitValue (c : Char) : Nat :=
  c.toNat - '0'.toNat

/-- The value of the digits of `n` with further digits behind them. -/
def valueFrom (n : Nat) (cs : List Char) : Nat :=
  cs.foldl (fun n c => 10 * n + digitValue c) n

def valueOf (cs : List Char) : Nat :=
  valueFrom 0 cs

/-- The digits of `n` with another digit behind them, as long as that is below the limit. -/
def appendDigit? (limit n : Nat) (c : Char) : Option Nat :=
  let next := 10 * n + digitValue c
  if c.isDigit ∧ next < limit then some next else none

/-- The number below `limit` that a non-empty list of digits stands for. -/
def digitsBelow? (limit : Nat) (cs : List Char) : Option Nat :=
  if cs = [] then none else cs.foldlM (appendDigit? limit) 0

/-- A numeral without its plus sign. -/
def dropPlus : List Char → List Char
  | '+' :: cs => cs
  | cs => cs

/-- Reads a numeral with a value below `limit`. -/
def natBelow? (limit : Nat) (cs : List Char) : Option Nat :=
  digitsBelow? limit (dropPlus cs)

/-- Reads a numeral that may be signed, with `low ≤ value < limit`, where `low` is not positive. -/
def intBetween? (low limit : Int) : List Char → Option Int
  | '-' :: cs => (digitsBelow? (1 - low).toNat cs).map fun n => -(n : Int)
  | cs => (digitsBelow? limit.toNat (dropPlus cs)).map Int.ofNat

/-! ### No value is lost -/

@[simp] theorem valueFrom_nil (n : Nat) : valueFrom n [] = n := rfl

@[simp] theorem valueFrom_cons (n : Nat) (c : Char) (cs : List Char) :
    valueFrom n (c :: cs) = valueFrom (10 * n + digitValue c) cs :=
  List.foldl_cons ..

theorem le_valueFrom (n : Nat) (cs : List Char) : n ≤ valueFrom n cs := by
  induction cs generalizing n with
  | nil => simp
  | cons c cs ih =>
    have := ih (10 * n + digitValue c)
    rw [valueFrom_cons]
    omega

theorem foldlM_appendDigit? {limit n : Nat} (hn : n < limit) (cs : List Char) :
    cs.foldlM (appendDigit? limit) n =
      if cs.all Char.isDigit ∧ valueFrom n cs < limit then some (valueFrom n cs) else none := by
  induction cs generalizing n with
  | nil => simp [hn]
  | cons c cs ih =>
    have hle := le_valueFrom (10 * n + digitValue c) cs
    by_cases hc : c.isDigit = true ∧ 10 * n + digitValue c < limit
    · simp [List.foldlM_cons, appendDigit?, hc, ih hc.2]
    · have : ¬((c :: cs).all Char.isDigit = true ∧ valueFrom n (c :: cs) < limit) := by
        simp only [List.all_cons, Bool.and_eq_true, valueFrom_cons]
        rintro ⟨⟨h, -⟩, hlt⟩
        exact hc ⟨h, by omega⟩
      rw [if_neg this]
      simp [List.foldlM_cons, appendDigit?, hc]

/-- What is read is the value of the digits, whenever that is below the limit. -/
theorem digitsBelow?_eq (limit : Nat) (cs : List Char) :
    digitsBelow? limit cs =
      if cs ≠ [] ∧ cs.all Char.isDigit ∧ valueOf cs < limit then some (valueOf cs) else none := by
  cases cs with
  | nil => rfl
  | cons c cs =>
    rcases Nat.eq_zero_or_pos limit with rfl | h
    · simp [digitsBelow?, List.foldlM_cons, appendDigit?]
    · simp [digitsBelow?, foldlM_appendDigit? h, valueOf]

end AntContest.Text

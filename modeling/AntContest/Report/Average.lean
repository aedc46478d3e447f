/-!
# Averages with one decimal place

An average is worked out in binary floating point: the sum is rounded to 53 significant bits, and
so is its quotient by the count.  The result is then written with one decimal place.  Every
rounding is to nearest, and a half goes to the even neighbour; all of it is exact arithmetic on
natural numbers.
-/

namespace AntContest

/-- A quotient rounded to the nearest natural number, a half to the even one. -/
def roundDiv (a b : Nat) : Nat :=
  let q := a / b
  let r := a % b
  if 2 * r < b then q
  else if b < 2 * r then q + 1
  else q + q % 2

structure Fraction where
  num : Nat
  den : Nat
deriving DecidableEq, Repr

namespace Fraction

/-- The fraction divided by a power of two. -/
def scaleDown (f : Fraction) : Int → Fraction
  | .ofNat k => ⟨f.num, f.den <<< k⟩
  | .negSucc k => ⟨f.num <<< (k + 1), f.den⟩

/-- The exponent of the last place when a positive fraction is written with 53 bits. -/
def lastPlace (f : Fraction) : Int :=
  let guess : Int := (f.num.log2 : Int) - f.den.log2 - 52
  let scaled := f.scaleDown guess
  if scaled.num < scaled.den <<< 52 then guess - 1 else guess

/-- The nearest number with 53 significant bits. -/
def round53 (f : Fraction) : Fraction :=
  if f.num = 0 then ⟨0, 1⟩
  else
    let e := f.lastPlace
    let scaled := f.scaleDown e
    (Fraction.mk (roundDiv scaled.num scaled.den) 1).scaleDown (-e)

/-- The fraction with one decimal place. -/
def oneDecimal (f : Fraction) : String :=
  let tenths := roundDiv (10 * f.num) f.den
  s!"{tenths / 10}.{tenths % 10}"

end Fraction

/-- The average of a sum over a count, with one decimal place; nothing counted averages zero. -/
def averageText (sum count : Nat) : String :=
  if count = 0 then "0.0"
  else
    let s := (Fraction.mk sum 1).round53
    (Fraction.mk s.num (s.den * count)).round53.oneDecimal

end AntContest

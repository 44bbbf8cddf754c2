import LoadTest.Binary64.Basic
/-!
# Decimal numerals

An unsigned decimal `digits × 10 ^ exponent`, the numerals that are read as one, and the number of
the binary64 format nearest to it.
-/

namespace LoadTest

/-- The unsigned decimal `digits × 10 ^ exponent`. -/
structure Decimal where
  digits : Nat
  exponent : Int
  deriving DecidableEq

namespace Decimal

/-! ## Value -/

/-- The value in units of the binary64 format, as a numerator and a denominator. -/
def ratio (d : Decimal) : Nat × Nat :=
  if 0 ≤ d.exponent then (d.digits * Nat.pow 10 d.exponent.toNat * Binary64.unitsPerOne, 1)
  else (d.digits * Binary64.unitsPerOne, Nat.pow 10 (-d.exponent).toNat)

/-- The nearest number of the format.

A decimal beyond `10 ^ 400` overflows and one below `10 ^ -400` vanishes whatever its digits are, so
neither is written out. -/
def round (negative : Bool) (d : Decimal) : Binary64 :=
  if d.digits = 0 then .zero negative
  else if 400 < d.exponent then .infinity negative
  else if d.exponent + d.digits.log2 + 401 < 0 then .zero negative
  else .ofRatio negative d.ratio.1 d.ratio.2

/-! ## Numerals -/

/-- The natural number that a non-empty run of digits names. -/
def natural? (cs : List Char) : Option Nat :=
  if cs ≠ [] ∧ cs.all Char.isDigit then some (Nat.ofDigitChars 10 cs 0) else none

/-- The integer that digits after at most one sign name. -/
def signed? : List Char → Option Int
  | '-' :: cs => (natural? cs).map fun n => -(n : Int)
  | '+' :: cs => (natural? cs).map Int.ofNat
  | cs => (natural? cs).map Int.ofNat

/-- The exponent at the end of a numeral: nothing, or a mark and an integer. -/
def exponent? : List Char → Option Int
  | [] => some 0
  | c :: cs => if c = 'e' ∨ c = 'E' then signed? cs else none

/-- The digits after a point, if there is one, and what follows them. -/
def fraction : List Char → List Char × List Char
  | '.' :: cs => (cs.takeWhile Char.isDigit, cs.dropWhile Char.isDigit)
  | cs => ([], cs)

/-- Reads a numeral: digits with at most one point among or around them, at least one digit, and an
optional exponent. -/
def read? (cs : List Char) : Option Decimal :=
  let whole := cs.takeWhile Char.isDigit
  let rest := fraction (cs.dropWhile Char.isDigit)
  if whole = [] ∧ rest.1 = [] then none
  else (exponent? rest.2).map fun e =>
    { digits := Nat.ofDigitChars 10 (whole ++ rest.1) 0, exponent := e - rest.1.length }

end Decimal

end LoadTest

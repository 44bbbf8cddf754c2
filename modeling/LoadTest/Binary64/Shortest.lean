import LoadTest.Decimal
/-!
# The shortest decimal that reads back

Of the decimals that round to a given positive magnitude, those with the fewest digits are wanted,
and of these the nearest.  On each decimal grid only the two neighbours of the magnitude have to be
looked at: if some point of a grid rounds to the magnitude, one of the neighbours does.
-/

namespace LoadTest

namespace Binary64

/-- The decimal rounds to the magnitude of that many units. -/
def readsBack (units : Nat) (d : Decimal) : Bool :=
  roundBits d.ratio.1 d.ratio.2 == units

/-- A power of ten does not exceed the magnitude. -/
def reachesPower (units : Nat) (exponent : Int) : Bool :=
  let power := ({ digits := 1, exponent := exponent } : Decimal).ratio
  power.1 ≤ units * power.2

/-- The exponent of the leading decimal digit of a positive magnitude.  The logarithm to base two
gives it up to one. -/
def leadingExponent (units : Nat) : Int :=
  let guess : Int := ((units.log2 : Int) - 1074) * 1233 / 4096
  if reachesPower units (guess + 1) then guess + 1
  else if reachesPower units guess then guess
  else guess - 1

/-- The neighbour on the grid of `10 ^ exponent` that reads back; of two, the nearer one, and of two
equally near the even one. -/
def neighbour? (units : Nat) (exponent : Int) : Option Decimal :=
  let grid := ({ digits := 1, exponent := exponent } : Decimal).ratio
  let scaled := units * grid.2
  let below : Decimal := { digits := scaled / grid.1, exponent := exponent }
  let above : Decimal := { digits := scaled / grid.1 + 1, exponent := exponent }
  match readsBack units below, readsBack units above with
  | true, true => some (if roundDiv scaled grid.1 = below.digits then below else above)
  | true, false => some below
  | false, true => some above
  | false, false => none

/-- The magnitude written out in full. -/
def exactDecimal (units : Nat) : Decimal :=
  { digits := units * Nat.pow 5 1074, exponent := -1074 }

/-- The decimal of fewest digits that reads back, the nearest of these.  Seventeen digits always
do. -/
def shortest (units : Nat) : Decimal :=
  let leading := leadingExponent units
  ((List.range 17).findSome? fun (more : Nat) => neighbour? units (leading - more)).getD
    (exactDecimal units)

end Binary64

end LoadTest

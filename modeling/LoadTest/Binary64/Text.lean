import LoadTest.Binary64.Shortest
import LoadTest.Text.Blank
/-!
# Numbers as text

How a number is written into rows, files and file names, and which texts name a number.
-/

namespace LoadTest

/-! ## Layout of digits -/

/-- How a run of significant digits is laid out around the decimal point. -/
structure Layout where
  /-- The point of a positional number stands to the right of this place. -/
  leftmost : Int
  /-- The point of a positional number stands at most this far right. -/
  rightmost : Int
  /-- The mark between the digits and an exponent. -/
  mark : Char

namespace Layout

/-- The digits of an exponent, always with a sign. -/
def exponentText (e : Int) : List Char :=
  (if e < 0 then '-' else '+') :: Nat.toDigits 10 e.natAbs

/-- Lays out the value `0.d₁d₂… × 10 ^ point`. -/
def text (l : Layout) (digits : List Char) (point : Int) : List Char :=
  if l.leftmost < point ∧ point ≤ l.rightmost then
    if point ≤ 0 then '0' :: '.' :: (List.replicate (-point).toNat '0' ++ digits)
    else if digits.length ≤ point.toNat then
      digits ++ List.replicate (point.toNat - digits.length) '0'
    else digits.take point.toNat ++ '.' :: digits.drop point.toNat
  else
    match digits with
    | [d] => d :: l.mark :: exponentText (point - 1)
    | d :: ds => d :: '.' :: (ds ++ l.mark :: exponentText (point - 1))
    | [] => []

end Layout

namespace Binary64

/-- Numbers are positional from a millionth up to, but without, `10 ^ 21`. -/
def layout : Layout := { leftmost := -6, rightmost := 21, mark := 'e' }

/-! ## Writing -/

/-- The digits of a decimal without the zeros at their end. -/
def significant (digits : List Char) : List Char :=
  (digits.reverse.dropWhile (· == '0')).reverse

/-- The text of a positive magnitude. -/
def magnitudeText (units : Nat) : List Char :=
  let d := shortest units
  let digits := Nat.toDigits 10 d.digits
  layout.text (significant digits) (digits.length + d.exponent)

/-- The digits of an integer, after a minus sign if it is below zero. -/
def integerText (z : Int) : List Char :=
  if z < 0 then '-' :: Nat.toDigits 10 z.natAbs else Nat.toDigits 10 z.natAbs

/-- The text of a number: the fewest digits that read back.  A safe integer is written with all its
digits, which are the shortest ones padded with zeros; both zeros are `0`. -/
def toText (x : Binary64) : List Char :=
  match x.toSafeInt? with
  | some z => integerText z
  | none =>
    match x with
    | nan => "NaN".toList
    | infinity negative => if negative then "-Infinity".toList else "Infinity".toList
    | finite negative units _ _ =>
      if negative then '-' :: magnitudeText units else magnitudeText units

instance : ToString Binary64 := ⟨fun x => String.ofList x.toText⟩

/-! ## Reading -/

/-- The value of a digit of a base up to sixteen. -/
def digitValue? (base : Nat) (c : Char) : Option Nat :=
  let n := c.toNat
  let value :=
    if 0x30 ≤ n ∧ n ≤ 0x39 then n - 0x30
    else if 0x41 ≤ n ∧ n ≤ 0x46 then n - 0x41 + 10
    else if 0x61 ≤ n ∧ n ≤ 0x66 then n - 0x61 + 10
    else base
  if value < base then some value else none

/-- The natural number that a non-empty run of digits of a base names. -/
def based? (base : Nat) : List Char → Option Nat
  | [] => none
  | cs => cs.foldlM (fun n c => (digitValue? base c).map (base * n + ·)) 0

/-- The base that a letter after a leading zero announces. -/
def baseOf? (c : Char) : Option Nat :=
  if c = 'x' ∨ c = 'X' then some 16
  else if c = 'o' ∨ c = 'O' then some 8
  else if c = 'b' ∨ c = 'B' then some 2
  else none

/-- The number that a text without a sign names. -/
def ofUnsigned (negative : Bool) (cs : List Char) : Binary64 :=
  if cs = "Infinity".toList then .infinity negative
  else
    match Decimal.read? cs with
    | some d => d.round negative
    | none => .nan

/-- The number that a trimmed text names. -/
def ofTrimmed : List Char → Binary64
  | [] => zero false
  | '-' :: cs => ofUnsigned true cs
  | '+' :: cs => ofUnsigned false cs
  | '0' :: c :: cs =>
    match baseOf? c with
    | some base =>
      match based? base cs with
      | some n => ofNat n
      | none => .nan
    | none => ofUnsigned false ('0' :: c :: cs)
  | cs => ofUnsigned false cs

/-- The number that a text names, blanks around it aside; `nan` if it names none.  The empty text
names zero. -/
def ofText (cs : List Char) : Binary64 := ofTrimmed (Text.trim cs)

end Binary64

end LoadTest

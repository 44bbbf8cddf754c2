/-!
# Binary64: numbers with 53 leading bits

Counts, times and latencies are numbers of the binary64 format: 53 significant bits, magnitudes
below `2 ^ 1024`, two zeros, two infinities and one value that is not a number.

Every finite number of the format is a whole number of **units** of `2 ^ -1074`, the smallest
positive one.  A finite number is therefore kept as a sign and a count of units, and each operation
is an exact computation on such counts followed by one rounding, `roundBits`, to the nearest number
of the format with ties to the even neighbour.  `fits_roundBits` says that the rounding lands in the
format, which is what lets the type hold numbers of the format and nothing else.
-/

namespace LoadTest

namespace Binary64

/-! ## Rounding -/

/-- The whole number nearest to `num / den`; an exact half goes to the even neighbour. -/
def roundDiv (num den : Nat) : Nat :=
  let below := num / den
  let twice := 2 * (num % den)
  if twice < den then below
  else if den < twice then below + 1
  else if below % 2 = 0 then below else below + 1

/-- The distance between neighbouring numbers of 53 bits around `n`. -/
def bitStep (n : Nat) : Nat := Nat.pow 2 (n.log2 - 52)

/-- The number of 53 leading bits nearest to `num / den`, ties to even. -/
def roundBits (num den : Nat) : Nat :=
  let step := bitStep (num / den)
  roundDiv num (den * step) * step

/-- A count is carried by its 53 leading bits. -/
def Fits (n : Nat) : Prop := bitStep n ∣ n

instance (n : Nat) : Decidable (Fits n) := inferInstanceAs (Decidable (_ ∣ _))

theorem roundDiv_le (num den : Nat) : roundDiv num den ≤ num / den + 1 := by
  unfold roundDiv
  dsimp only
  split
  · omega
  · split
    · omega
    · split <;> omega

theorem le_roundDiv (num den : Nat) : num / den ≤ roundDiv num den := by
  unfold roundDiv
  dsimp only
  split
  · omega
  · split
    · omega
    · split <;> omega

theorem bitStep_pos (n : Nat) : 0 < bitStep n := Nat.two_pow_pos _

/-- A multiple of `2 ^ s` of at most 53 bits is carried by its leading bits. -/
theorem fits_mul_two_pow {m s : Nat} (hm : m ≤ Nat.pow 2 53) : Fits (m * Nat.pow 2 s) := by
  unfold Fits bitStep
  simp only [Nat.pow_eq] at hm ⊢
  by_cases h0 : m = 0
  · subst h0
    simp
  · have hpos : m * 2 ^ s ≠ 0 := by
      have := Nat.two_pow_pos s
      exact Nat.mul_ne_zero h0 (by omega)
    by_cases hlt : m < 2 ^ 53
    · have hlog : (m * 2 ^ s).log2 < 53 + s := by
        rw [Nat.log2_lt hpos, Nat.pow_add]
        exact Nat.mul_lt_mul_of_lt_of_le hlt (Nat.le_refl _) (Nat.two_pow_pos s)
      exact Nat.dvd_trans (Nat.pow_dvd_pow 2 (by omega)) (Nat.dvd_mul_left _ _)
    · have hm' : m = 2 ^ 53 := by omega
      have hlog : (m * 2 ^ s).log2 < 54 + s := by
        rw [Nat.log2_lt hpos, hm', ← Nat.pow_add]
        exact Nat.pow_lt_pow_right (by omega) (by omega)
      rw [hm', ← Nat.pow_add]
      rw [hm', ← Nat.pow_add] at hlog
      exact Nat.pow_dvd_pow 2 (by omega)

/-- The quotient by the step of its own neighbourhood has at most 53 bits. -/
theorem div_bitStep_lt (n : Nat) : n / bitStep n < Nat.pow 2 53 := by
  unfold bitStep
  simp only [Nat.pow_eq]
  rw [Nat.div_lt_iff_lt_mul (Nat.two_pow_pos _), ← Nat.pow_add]
  exact Nat.lt_of_lt_of_le Nat.lt_log2_self (Nat.pow_le_pow_right (by omega) (by omega))

/-- What rounding yields fits. -/
theorem fits_roundBits (num den : Nat) : Fits (roundBits num den) := by
  unfold roundBits
  dsimp only
  have h1 := roundDiv_le num (den * bitStep (num / den))
  rw [← Nat.div_div_eq_div_mul] at h1
  have h2 := div_bitStep_lt (num / den)
  exact fits_mul_two_pow (by omega)

/-- Rounding leaves alone what fits already. -/
theorem roundBits_of_fits {n : Nat} (h : Fits n) : roundBits n 1 = n := by
  unfold roundBits
  simp only [Nat.div_one, Nat.one_mul]
  have hmod : n % bitStep n = 0 := Nat.mod_eq_zero_of_dvd h
  have hround : roundDiv n (bitStep n) = n / bitStep n := by
    simp [roundDiv, hmod, bitStep_pos n]
  rw [hround, Nat.div_mul_cancel h]

/-! ## The type -/

/-- The number one, in units of `2 ^ -1074`. -/
def unitsPerOne : Nat := Nat.pow 2 1074

/-- The first magnitude too large for a finite number, in units. -/
def overflow : Nat := Nat.pow 2 2098

end Binary64

/-- A number of the binary64 format. -/
inductive Binary64
  /-- The result of an operation that has none. -/
  | nan
  /-- Beyond every finite number. -/
  | infinity (negative : Bool)
  /-- A signed count of units; both signs of zero occur. -/
  | finite (negative : Bool) (units : Nat) (fits : Binary64.Fits units)
      (small : units < Binary64.overflow)
  deriving DecidableEq

namespace Binary64

/-- The number nearest to `num / den` units, with the given sign. -/
def ofRatio (negative : Bool) (num den : Nat) : Binary64 :=
  if h : roundBits num den < overflow then
    .finite negative (roundBits num den) (fits_roundBits num den) h
  else .infinity negative

/-- Zero of either sign. -/
def zero (negative : Bool) : Binary64 := ofRatio negative 0 1

/-- The number nearest to an integer. -/
def ofInt (z : Int) : Binary64 := ofRatio (z < 0) (z.natAbs * unitsPerOne) 1

/-- The number nearest to a natural number. -/
def ofNat (n : Nat) : Binary64 := ofRatio false (n * unitsPerOne) 1

instance (n : Nat) : OfNat Binary64 n := ⟨ofNat n⟩

instance : Inhabited Binary64 := ⟨nan⟩

/-! ## Order -/

/-- The place of a number on the line, in units; the infinities stand just beyond the finite
numbers, the two zeros share a place, and `nan` has none. -/
def place? : Binary64 → Option Int
  | nan => none
  | infinity negative => some (if negative then -(overflow : Int) else overflow)
  | finite negative units _ _ => some (if negative then -(units : Int) else units)

/-- Strictly below on the line; never with `nan`. -/
def lt (x y : Binary64) : Bool :=
  match x.place?, y.place? with
  | some a, some b => a < b
  | _, _ => false

/-- The same place on the line: the zeros are equal, and `nan` equals nothing. -/
def eq (x y : Binary64) : Bool :=
  match x.place?, y.place? with
  | some a, some b => a == b
  | _, _ => false

/-- Not a number. -/
def isNaN : Binary64 → Bool
  | nan => true
  | _ => false

/-- One of the finite numbers. -/
def isFinite : Binary64 → Bool
  | finite .. => true
  | _ => false

/-- The integer a number is, if it is one. -/
def toInt? : Binary64 → Option Int
  | finite negative units _ _ =>
    if unitsPerOne ∣ units then
      let size : Int := (units / unitsPerOne : Nat)
      some (if negative then -size else size)
    else none
  | _ => none

/-- A finite whole number. -/
def isInteger (x : Binary64) : Bool := x.toInt?.isSome

/-- Integers up to this size are numbers of the format, and no other integer rounds to one of
them. -/
def maxSafe : Nat := Nat.pow 2 53 - 1

/-- The integer a number is, if that is at most `maxSafe` in size. -/
def toSafeInt? (x : Binary64) : Option Int :=
  x.toInt?.filter fun z => z.natAbs ≤ maxSafe

/-- A whole number of at most `maxSafe` in size. -/
def isSafeInteger (x : Binary64) : Bool := x.toSafeInt?.isSome

/-- The sign is minus; so it is for minus zero. -/
def isNegative : Binary64 → Bool
  | nan => false
  | infinity negative => negative
  | finite negative .. => negative

/-! ## Arithmetic -/

/-- The opposite number. -/
def neg : Binary64 → Binary64
  | nan => nan
  | infinity negative => infinity (!negative)
  | finite negative units fits small => finite (!negative) units fits small

/-- The sum: exact, then rounded.  An exact zero is minus zero only if both terms are. -/
def add : Binary64 → Binary64 → Binary64
  | nan, _ => nan
  | _, nan => nan
  | infinity s, infinity t => if s = t then infinity s else nan
  | infinity s, finite .. => infinity s
  | finite .., infinity t => infinity t
  | finite s m _ _, finite t n _ _ =>
    let sum : Int := (if s then -(m : Int) else m) + (if t then -(n : Int) else n)
    if sum = 0 then zero (s && t) else ofRatio (sum < 0) sum.natAbs 1

/-- The difference. -/
def sub (x y : Binary64) : Binary64 := x.add y.neg

/-- The product: exact, then rounded. -/
def mul : Binary64 → Binary64 → Binary64
  | nan, _ => nan
  | _, nan => nan
  | infinity s, infinity t => infinity (s != t)
  | infinity s, finite t n _ _ => if n = 0 then nan else infinity (s != t)
  | finite s m _ _, infinity t => if m = 0 then nan else infinity (s != t)
  | finite s m _ _, finite t n _ _ => ofRatio (s != t) (m * n) unitsPerOne

/-- The quotient: exact, then rounded. -/
def div : Binary64 → Binary64 → Binary64
  | nan, _ => nan
  | _, nan => nan
  | infinity _, infinity _ => nan
  | infinity s, finite t .. => infinity (s != t)
  | finite s .., infinity t => zero (s != t)
  | finite s m _ _, finite t n _ _ =>
    if n = 0 then (if m = 0 then nan else infinity (s != t))
    else ofRatio (s != t) (m * unitsPerOne) n

/-- The least whole number that is not below. -/
def ceil : Binary64 → Binary64
  | nan => nan
  | infinity s => infinity s
  | finite s m _ _ =>
    let whole := if s then m / unitsPerOne else (m + (unitsPerOne - 1)) / unitsPerOne
    ofRatio s (whole * unitsPerOne) 1

instance : Add Binary64 := ⟨add⟩
instance : Sub Binary64 := ⟨sub⟩
instance : Mul Binary64 := ⟨mul⟩
instance : Div Binary64 := ⟨div⟩
instance : Neg Binary64 := ⟨neg⟩
instance : LT Binary64 := ⟨fun x y => lt x y = true⟩
instance (x y : Binary64) : Decidable (x < y) := inferInstanceAs (Decidable (_ = true))

end Binary64

end LoadTest

import LoadTest.Binary64.Text
import LoadTest.Proofs.Binary64.Rounding
/-!
# Whole numbers of the format

Up to `2 ^ 53` in size every integer is a number of the format, so sums and products of integers are
exact as long as they stay there:

* `toInt?_ofInt` — an integer survives the way into the format;
* `add_eq_ofInt`, `ofNat_mul_ofNat` — sums and products are rounded once, from the exact result;
* `lt_iff_of_place?`, `eq_iff_of_place?` — comparing numbers is comparing their places;
* `two_pow_le_place?_add` — a sum that reaches a power of two still reaches it once it is rounded, so
  beyond the exact integers a growing number may lose its value but not its size.
-/

namespace LoadTest

namespace Binary64

/-! ## Units and limits -/

theorem unitsPerOne_eq : unitsPerOne = 2 ^ 1074 := by
  unfold unitsPerOne
  rw [Nat.pow_eq]

theorem unitsPerOne_pos : 0 < unitsPerOne := Nat.two_pow_pos 1074

theorem two_pow_le_unitsPerOne {s : Nat} (h : s ≤ 1074) : 2 ^ s ≤ unitsPerOne :=
  Nat.pow_le_pow_right (by decide) h

theorem overflow_eq : overflow = 2 ^ 1024 * unitsPerOne := by
  unfold overflow unitsPerOne
  simp only [Nat.pow_eq, ← Nat.pow_add, Nat.reduceAdd]

theorem two_pow_le_overflow {s : Nat} (h : s ≤ 2098) : 2 ^ s ≤ overflow :=
  Nat.pow_le_pow_right (by decide) h

theorem maxSafe_eq : maxSafe = 2 ^ 53 - 1 := rfl

-- Numbers of hundreds of digits: from here on they are used through the lemmas above.
attribute [local irreducible] unitsPerOne overflow

/-- Exact integers are far from the overflow. -/
theorem mul_unitsPerOne_lt_overflow {n : Nat} (h : n ≤ 2 ^ 53) : n * unitsPerOne < overflow := by
  rw [overflow_eq]
  refine Nat.mul_lt_mul_of_pos_right (Nat.lt_of_le_of_lt h ?_) unitsPerOne_pos
  exact Nat.pow_lt_pow_right (by decide) (by decide)

theorem fits_mul_unitsPerOne {n : Nat} (h : n ≤ 2 ^ 53) : Fits (n * unitsPerOne) := by
  rw [unitsPerOne_eq, ← Nat.pow_eq]
  exact fits_mul_two_pow h

/-! ## Operations on finite numbers -/

section Finite

variable (s t : Bool) {m n : Nat} (fm : Fits m) (sm : m < overflow) (fn : Fits n)
  (sn : n < overflow)

theorem place?_finite :
    (finite s m fm sm).place? = some (if s then -(m : Int) else m) := rfl

theorem place?_infinity :
    (infinity s).place? = some (if s then -(overflow : Int) else overflow) := rfl

theorem toInt?_finite :
    (finite s m fm sm).toInt? = if unitsPerOne ∣ m then
      some (if s then -((m / unitsPerOne : Nat) : Int) else (m / unitsPerOne : Nat)) else none := rfl

theorem finite_add_finite :
    finite s m fm sm + finite t n fn sn =
      let sum : Int := (if s then -(m : Int) else m) + (if t then -(n : Int) else n)
      if sum = 0 then zero (s && t) else ofRatio (sum < 0) sum.natAbs 1 := rfl

theorem finite_mul_finite :
    finite s m fm sm * finite t n fn sn = ofRatio (s != t) (m * n) unitsPerOne := rfl

theorem finite_div_finite (hn : n ≠ 0) :
    finite s m fm sm / finite t n fn sn = ofRatio (s != t) (m * unitsPerOne) n :=
  if_neg hn

theorem ceil_finite :
    (finite s m fm sm).ceil
      = ofRatio s ((if s then m / unitsPerOne else (m + (unitsPerOne - 1)) / unitsPerOne)
          * unitsPerOne) 1 := rfl

/-- What fits and is small is carried as it is. -/
theorem ofRatio_of_fits : ofRatio s m 1 = .finite s m fm sm := by
  have hround : roundBits m 1 = m := roundBits_of_fits fm
  simp only [ofRatio, hround]
  rw [dif_pos sm]

end Finite

/-! ## Integers in the format -/

theorem ofNat_eq_finite {n : Nat} (h : n ≤ 2 ^ 53) :
    ofNat n = .finite false (n * unitsPerOne) (fits_mul_unitsPerOne h)
      (mul_unitsPerOne_lt_overflow h) :=
  ofRatio_of_fits ..

theorem ofInt_eq_finite {z : Int} (h : z.natAbs ≤ 2 ^ 53) :
    ofInt z = .finite (z < 0) (z.natAbs * unitsPerOne) (fits_mul_unitsPerOne h)
      (mul_unitsPerOne_lt_overflow h) :=
  ofRatio_of_fits ..

/-- **An integer survives the way into the format.** -/
theorem toInt?_ofInt {z : Int} (h : z.natAbs ≤ 2 ^ 53) : (ofInt z).toInt? = some z := by
  rw [ofInt_eq_finite h, toInt?_finite, if_pos (Nat.dvd_mul_left ..),
    Nat.mul_div_cancel _ unitsPerOne_pos]
  by_cases hz : z < 0
  · simp only [hz, decide_true, if_true]
    rw [Int.ofNat_natAbs_of_nonpos (by omega), Int.neg_neg]
  · simp only [hz, decide_false, Bool.false_eq_true, if_false]
    rw [Int.natAbs_of_nonneg (by omega)]

theorem ofInt_natCast (n : Nat) : ofInt n = ofNat n := by
  have hneg : ¬ (n : Int) < 0 := by omega
  simp [ofInt, ofNat, hneg]

theorem toInt?_ofNat {n : Nat} (h : n ≤ 2 ^ 53) : (ofNat n).toInt? = some (n : Int) := by
  rw [← ofInt_natCast]
  exact toInt?_ofInt (by simpa using h)

theorem toInt?_zero : (0 : Binary64).toInt? = some 0 := toInt?_ofNat (n := 0) (by decide)

/-- A number that is an integer, taken apart into its sign and its units. -/
theorem eq_finite_of_toInt? {x : Binary64} {z : Int} (h : x.toInt? = some z) :
    ∃ (s : Bool) (m : Nat) (fits : Fits m) (small : m < overflow),
      x = .finite s m fits small ∧ m = z.natAbs * unitsPerOne ∧
        z = if s then -(z.natAbs : Int) else z.natAbs := by
  rcases x with _ | s | ⟨s, m, fits, small⟩
  · cases h
  · cases h
  · rw [toInt?_finite] at h
    by_cases hdvd : unitsPerOne ∣ m
    · rw [if_pos hdvd, Option.some_inj] at h
      have habs : z.natAbs = m / unitsPerOne := by
        rw [← h]
        cases s
        · exact Int.natAbs_natCast _
        · exact (Int.natAbs_neg _).trans (Int.natAbs_natCast _)
      refine ⟨s, m, fits, small, rfl, ?_, ?_⟩
      · rw [habs, Nat.div_mul_cancel hdvd]
      · rw [habs, h]
    · rw [if_neg hdvd] at h
      cases h

/-- An integer other than zero stands for one number only. -/
theorem eq_ofInt_of_toInt? {x : Binary64} {z : Int} (h : x.toInt? = some z) (hz : z ≠ 0) :
    x = ofInt z := by
  obtain ⟨s, m, fits, small, rfl, rfl, hs⟩ := eq_finite_of_toInt? h
  have hneg : decide (z < 0) = s := by
    cases s
    · simp only [Bool.false_eq_true, if_false] at hs
      simp only [decide_eq_false_iff_not]
      omega
    · simp only [if_true] at hs
      simp only [decide_eq_true_eq]
      omega
  rw [ofInt, hneg, ofRatio_of_fits]

theorem isSafeInteger_iff {x : Binary64} :
    x.isSafeInteger = true ↔ ∃ z, x.toInt? = some z ∧ z.natAbs ≤ maxSafe := by
  rw [isSafeInteger, toSafeInt?, Option.isSome_filter, Option.any_eq_true]
  simp only [decide_eq_true_eq]

/-- The integer that a number is; zero for one that is none. -/
def integer (x : Binary64) : Int := x.toInt?.getD 0

theorem toInt?_eq_integer {x : Binary64} (h : x.isSafeInteger = true) :
    x.toInt? = some x.integer ∧ x.integer.natAbs ≤ maxSafe := by
  obtain ⟨z, hz, hsafe⟩ := isSafeInteger_iff.1 h
  rw [integer, hz]
  exact ⟨rfl, hsafe⟩

theorem integer_of_toInt? {x : Binary64} {z : Int} (h : x.toInt? = some z) : x.integer = z := by
  rw [integer, h]
  rfl

theorem integer_ofNat {n : Nat} (h : n ≤ 2 ^ 53) : (ofNat n).integer = n :=
  integer_of_toInt? (toInt?_ofNat h)

/-! ## Text -/

theorem toSafeInt?_ofNat {n : Nat} (h : n ≤ maxSafe) : (ofNat n).toSafeInt? = some (n : Int) := by
  rw [toSafeInt?, toInt?_ofNat (Nat.le_trans h (by decide)), Option.filter_some, if_pos]
  exact decide_eq_true (by rwa [Int.natAbs_natCast])

theorem toText_of_toSafeInt? {x : Binary64} {z : Int} (h : x.toSafeInt? = some z) :
    x.toText = integerText z := by
  unfold toText
  rw [h]

/-- A safe integer is written with all its digits. -/
theorem toText_ofNat {n : Nat} (h : n ≤ maxSafe) : (ofNat n).toText = Nat.toDigits 10 n := by
  rw [toText_of_toSafeInt? (toSafeInt?_ofNat h), integerText, if_neg (by omega),
    Int.natAbs_natCast]

theorem toString_ofNat {n : Nat} (h : n ≤ maxSafe) : toString (ofNat n) = toString n := by
  have htext : toString (ofNat n) = String.ofList (ofNat n).toText := rfl
  rw [htext, toText_ofNat h, Nat.toString_eq_ofList_toDigits]

/-- The digits of a number are no other characters. -/
theorem notMem_toDigits {c : Char} (hc : c.isDigit = false) (n : Nat) : c ∉ Nat.toDigits 10 n := by
  intro hmem
  have hdigit := Nat.isDigit_of_mem_toDigits (by decide) (by decide) hmem
  rw [hc] at hdigit
  cases hdigit

theorem toDigits_injective {m n : Nat} (h : Nat.toDigits 10 m = Nat.toDigits 10 n) : m = n := by
  rw [← Nat.ofDigitChars_ten_toDigits (n := m), h, Nat.ofDigitChars_ten_toDigits]

/-- An integer is written in digits, after a minus sign perhaps. -/
theorem notMem_integerText {c : Char} (hc : c.isDigit = false) (hminus : c ≠ '-') (z : Int) :
    c ∉ integerText z := by
  rw [integerText]
  split
  · rw [List.mem_cons, not_or]
    exact ⟨hminus, notMem_toDigits hc _⟩
  · exact notMem_toDigits hc _

theorem lt_iff_of_place? {x y : Binary64} {a b : Int} (hx : x.place? = some a)
    (hy : y.place? = some b) : x < y ↔ a < b := by
  show lt x y = true ↔ a < b
  rw [lt, hx, hy]
  simp

theorem eq_iff_of_place? {x y : Binary64} {a b : Int} (hx : x.place? = some a)
    (hy : y.place? = some b) : x.eq y = true ↔ a = b := by
  rw [eq, hx, hy]
  simp

theorem place?_of_toInt? {x : Binary64} {z : Int} (h : x.toInt? = some z) :
    x.place? = some (z * unitsPerOne) := by
  obtain ⟨s, m, fits, small, rfl, rfl, hs⟩ := eq_finite_of_toInt? h
  rw [place?_finite, Option.some_inj]
  cases s
  · simp only [Bool.false_eq_true, if_false] at hs ⊢
    rw [Nat.cast_mul, ← hs]
  · simp only [if_true] at hs ⊢
    rw [Nat.cast_mul, ← Int.neg_mul, ← hs]

theorem lt_iff_of_toInt? {x y : Binary64} {a b : Int} (hx : x.toInt? = some a)
    (hy : y.toInt? = some b) : x < y ↔ a < b := by
  have hU : (0 : Int) < unitsPerOne := by exact_mod_cast unitsPerOne_pos
  rw [lt_iff_of_place? (place?_of_toInt? hx) (place?_of_toInt? hy)]
  exact Int.mul_lt_mul_right hU

theorem lt_iff_integer_lt {x y : Binary64} (hx : x.isSafeInteger = true)
    (hy : y.isSafeInteger = true) : x < y ↔ x.integer < y.integer :=
  lt_iff_of_toInt? (toInt?_eq_integer hx).1 (toInt?_eq_integer hy).1

theorem eq_iff_of_toInt? {x y : Binary64} {a b : Int} (hx : x.toInt? = some a)
    (hy : y.toInt? = some b) : x.eq y = true ↔ a = b := by
  have hU : (unitsPerOne : Int) ≠ 0 := by exact_mod_cast unitsPerOne_pos.ne'
  rw [eq_iff_of_place? (place?_of_toInt? hx) (place?_of_toInt? hy)]
  exact Int.mul_eq_mul_right_iff hU

/-- **What equals an integer is that integer**, though it may be a zero of the other sign. -/
theorem toInt?_of_eq {x y : Binary64} {z : Int} (hx : x.toInt? = some z) (h : x.eq y = true) :
    y.toInt? = some z := by
  obtain ⟨s, m, fits, small, rfl, -, -⟩ := eq_finite_of_toInt? hx
  rcases y with _ | t | ⟨t, n, fits', small'⟩
  · simp [eq, place?] at h
  · rw [eq_iff_of_place? (place?_finite s fits small) (place?_infinity t)] at h
    cases s <;> cases t <;> simp at h <;> omega
  · rw [eq_iff_of_place? (place?_finite s fits small) (place?_finite t fits' small')] at h
    obtain rfl : m = n := by
      cases s <;> cases t <;> simp at h <;> omega
    rw [toInt?_finite] at hx ⊢
    by_cases hst : s = t
    · rwa [← hst]
    · obtain rfl : m = 0 := by
        cases s <;> cases t <;> simp at h hst <;> omega
      cases s <;> cases t <;> simp at hx ⊢ <;> assumption

/-! ## Exact arithmetic -/

theorem toInt?_neg {x : Binary64} {z : Int} (h : x.toInt? = some z) :
    x.neg.toInt? = some (-z) := by
  obtain ⟨s, m, fits, small, rfl, rfl, hs⟩ := eq_finite_of_toInt? h
  rw [neg, toInt?_finite, if_pos (Nat.dvd_mul_left ..), Nat.mul_div_cancel _ unitsPerOne_pos]
  cases s
  · simp only [Bool.false_eq_true, if_false, Bool.not_false, if_true] at hs ⊢
    rw [← hs]
  · simp only [Bool.not_true, Bool.false_eq_true, if_false, if_true] at hs ⊢
    rw [hs, Int.neg_neg, ← hs]

/-- **The sum of two integers is the number nearest to their exact sum.**  A sum of zero is the
positive zero if the second term is above zero, whatever the sign of the first one is. -/
theorem add_eq_ofInt {x y : Binary64} {a b : Int} (hx : x.toInt? = some a) (hy : y.toInt? = some b)
    (hb : a + b = 0 → 0 < b) : x + y = ofInt (a + b) := by
  have hU : (0 : Int) < unitsPerOne := by exact_mod_cast unitsPerOne_pos
  have hpx := place?_of_toInt? hx
  have hpy := place?_of_toInt? hy
  obtain ⟨s, m, fm, sm, rfl, -, -⟩ := eq_finite_of_toInt? hx
  obtain ⟨t, n, fn, sn, rfl, -, ht⟩ := eq_finite_of_toInt? hy
  rw [place?_finite, Option.some_inj] at hpx hpy
  have hsum : a * (unitsPerOne : Int) + b * unitsPerOne = (a + b) * unitsPerOne := by ring
  simp only [finite_add_finite, hpx, hpy, hsum]
  by_cases h0 : a + b = 0
  · have hpos := hb h0
    have ht' : t = false := by
      cases t
      · rfl
      · simp only [if_true] at ht
        omega
    simp [h0, ht', zero, ofInt]
  · have hne : (a + b) * (unitsPerOne : Int) ≠ 0 := Int.mul_ne_zero h0 hU.ne'
    have hsign : ((a + b) * (unitsPerOne : Int) < 0) = (a + b < 0) := by
      rw [eq_iff_iff]
      constructor <;> intro h <;> nlinarith
    rw [if_neg hne, ofInt, Int.natAbs_mul, Int.natAbs_natCast]
    simp only [hsign]

/-- **The product of two natural numbers is the number nearest to their exact product.** -/
theorem ofNat_mul_ofNat {m n : Nat} (hm : m ≤ 2 ^ 53) (hn : n ≤ 2 ^ 53) :
    ofNat m * ofNat n = ofNat (m * n) := by
  have hratio : m * unitsPerOne * (n * unitsPerOne) = m * n * unitsPerOne * unitsPerOne := by ring
  rw [ofNat_eq_finite hm, ofNat_eq_finite hn, finite_mul_finite, hratio, ofNat]
  have hround : roundBits (m * n * unitsPerOne * unitsPerOne) unitsPerOne
      = roundBits (m * n * unitsPerOne) 1 := by
    have := roundBits_mul_right (m * n * unitsPerOne) 1 unitsPerOne_pos
    rwa [Nat.one_mul] at this
  simp [ofRatio, hround]

/-! ## Beyond the exact integers -/

/-- A ratio that reaches a power of two still reaches it once it is rounded. -/
theorem two_pow_le_place?_ofRatio {num den s : Nat} (hs : s ≤ 2098) (h : 2 ^ s ≤ num / den) :
    ∃ r, (ofRatio false num den).place? = some r ∧ 2 ^ s ≤ r := by
  have hround := two_pow_le_roundBits h
  by_cases hsmall : roundBits num den < overflow
  · refine ⟨roundBits num den, ?_, by exact_mod_cast hround⟩
    rw [ofRatio, dif_pos hsmall, place?_finite]
    rfl
  · refine ⟨overflow, ?_, ?_⟩
    · rw [ofRatio, dif_neg hsmall]
      rfl
    · exact_mod_cast two_pow_le_overflow hs

/-- **A sum that reaches a power of two still reaches it once it is rounded.** -/
theorem two_pow_le_place?_add {x y : Binary64} {p q : Int} {s : Nat} (hs : s ≤ 2098)
    (hx : x.place? = some p) (hy : y.place? = some q) (h : 2 ^ s ≤ p + q) :
    ∃ r, (x + y).place? = some r ∧ 2 ^ s ≤ r := by
  have hpos : (0 : Int) < 2 ^ s := by positivity
  have hover : (2 : Int) ^ s ≤ overflow := by exact_mod_cast two_pow_le_overflow hs
  have hfinite : ∀ (t : Bool) {n : Nat}, n < overflow →
      (if t then -(n : Int) else n) < overflow := by
    intro t n hn
    cases t
    · simp only [Bool.false_eq_true, if_false]
      exact_mod_cast hn
    · simp only [if_true]
      omega
  rcases x with _ | sx | ⟨sx, m, fm, sm⟩
  · cases hx
  · rw [place?_infinity, Option.some_inj] at hx
    rcases y with _ | sy | ⟨sy, n, fn, sn⟩
    · cases hy
    · rw [place?_infinity, Option.some_inj] at hy
      cases sx <;> cases sy <;> simp only [Bool.false_eq_true, if_false, if_true] at hx hy
      · exact ⟨overflow, rfl, hover⟩
      all_goals omega
    · rw [place?_finite, Option.some_inj] at hy
      have := hfinite sy sn
      cases sx <;> simp only [Bool.false_eq_true, if_false, if_true] at hx
      · exact ⟨overflow, rfl, hover⟩
      · omega
  · rw [place?_finite, Option.some_inj] at hx
    rcases y with _ | sy | ⟨sy, n, fn, sn⟩
    · cases hy
    · rw [place?_infinity, Option.some_inj] at hy
      have := hfinite sx sm
      cases sy <;> simp only [Bool.false_eq_true, if_false, if_true] at hy
      · exact ⟨overflow, rfl, hover⟩
      · omega
    · rw [place?_finite, Option.some_inj] at hy
      have hne : p + q ≠ 0 := by omega
      have hneg : ¬ p + q < 0 := by omega
      simp only [finite_add_finite, hx, hy]
      rw [if_neg hne, decide_eq_false hneg]
      refine two_pow_le_place?_ofRatio hs ?_
      rw [Nat.div_one]
      zify
      rw [abs_of_pos (by omega)]
      exact h

/-- The number is at least `2 ^ 53`, where the exact integers end. -/
def Beyond (x : Binary64) : Prop :=
  ∃ p, x.place? = some p ∧ 2 ^ 53 * (unitsPerOne : Int) ≤ p

/-- The place of `2 ^ 53` is a power of two. -/
theorem exists_two_pow : ∃ s, s ≤ 2098 ∧ 2 ^ 53 * (unitsPerOne : Int) = 2 ^ s := by
  refine ⟨53 + 1074, by decide, ?_⟩
  rw [unitsPerOne_eq, Nat.cast_pow, Nat.cast_ofNat, ← pow_add]

/-- **Rounding does not lead back to the exact integers.** -/
theorem beyond_add {x y : Binary64} {p q : Int} (hx : x.place? = some p) (hy : y.place? = some q)
    (h : 2 ^ 53 * (unitsPerOne : Int) ≤ p + q) : Beyond (x + y) := by
  obtain ⟨s, hs, hpow⟩ := exists_two_pow
  rw [hpow] at h
  obtain ⟨r, hr, hle⟩ := two_pow_le_place?_add hs hx hy h
  rw [← hpow] at hle
  exact ⟨r, hr, hle⟩

/-- Every safe integer lies before the place of such a number. -/
theorem Beyond.place? {x : Binary64} {z : Int} (h : Beyond x) (hz : z ≤ maxSafe) :
    ∃ p, x.place? = some p ∧ z * unitsPerOne < p := by
  obtain ⟨p, hp, hle⟩ := h
  have hU : (0 : Int) < unitsPerOne := by exact_mod_cast unitsPerOne_pos
  have hz' : z < 2 ^ 53 := by
    rw [maxSafe_eq] at hz
    omega
  exact ⟨p, hp, by nlinarith⟩

end Binary64

end LoadTest

import LoadTest.Proofs.Binary64.Whole
/-!
# The text of a number

A number is written in digits, letters and the signs of a numeral, so its text can stand between
blanks, and only a number below zero is written with a minus sign in front.

* `isNumberChar`, `isNumberChar_of_mem_toText`: the characters of which a number is written.
* `ne_minus_of_toText`: a number that is not below zero does not start with a minus sign.
-/

namespace LoadTest

/-- The characters of which numbers are written. -/
def isNumberChar (c : Char) : Bool := c.isAlphanum || ['.', '+', '-'].contains c

theorem isNumberChar_of_isDigit {c : Char} (h : c.isDigit = true) : isNumberChar c = true := by
  simp [isNumberChar, Char.isAlphanum, h]

/-! ## Layout -/

namespace Layout

variable {l : Layout} {digits : List Char} {point : Int} {c : Char}

theorem isNumberChar_of_mem_exponentText {e : Int} (h : c ∈ exponentText e) :
    isNumberChar c = true := by
  rcases List.mem_cons.1 h with rfl | hdigit
  · split <;> decide
  · exact isNumberChar_of_isDigit (Nat.isDigit_of_mem_toDigits (by decide) (by decide) hdigit)

/-- A layout adds zeros, a point and an exponent to the digits. -/
theorem isNumberChar_of_mem_text (hdigits : ∀ d ∈ digits, isNumberChar d = true)
    (hmark : isNumberChar l.mark = true) (h : c ∈ l.text digits point) : isNumberChar c = true := by
  have hzeros : ∀ {n : Nat}, c ∈ List.replicate n '0' → isNumberChar c = true := by
    intro n hc
    rw [List.eq_of_mem_replicate hc]
    decide
  unfold text at h
  split at h
  · split at h
    · simp only [List.mem_cons, List.mem_append] at h
      rcases h with rfl | rfl | h | h
      · decide
      · decide
      · exact hzeros h
      · exact hdigits c h
    · split at h
      · rcases List.mem_append.1 h with h | h
        · exact hdigits c h
        · exact hzeros h
      · rcases List.mem_append.1 h with h | h
        · exact hdigits c (List.mem_of_mem_take h)
        · rcases List.mem_cons.1 h with rfl | h
          · decide
          · exact hdigits c (List.mem_of_mem_drop h)
  · split at h
    · simp only [List.mem_cons] at h
      rcases h with rfl | rfl | h
      · exact hdigits _ List.mem_cons_self
      · exact hmark
      · exact isNumberChar_of_mem_exponentText h
    · simp only [List.mem_cons, List.mem_append] at h
      rcases h with rfl | rfl | h | rfl | h
      · exact hdigits _ List.mem_cons_self
      · decide
      · exact hdigits _ (List.mem_cons_of_mem _ h)
      · exact hmark
      · exact isNumberChar_of_mem_exponentText h
    · cases h

/-- A layout starts with a digit. -/
theorem isDigit_of_mem_head?_text (hdigits : ∀ d ∈ digits, d.isDigit = true)
    (h : c ∈ (l.text digits point).head?) : c.isDigit = true := by
  unfold text at h
  split at h
  · split at h
    · cases h
      decide
    · split at h
      · refine (?_ : ∀ d ∈ digits ++ List.replicate _ '0', d.isDigit = true) c
          (List.mem_of_mem_head? h)
        intro d hd
        rcases List.mem_append.1 hd with hd | hd
        · exact hdigits d hd
        · rw [List.eq_of_mem_replicate hd]
          decide
      · rename_i hpoint hlength
        -- the point stands among the digits, so the first digit is before it
        obtain ⟨n, hn⟩ : ∃ n, point.toNat = n + 1 := ⟨point.toNat - 1, by omega⟩
        cases digits with
        | nil => simp at hlength
        | cons d ds =>
          rw [hn] at h
          cases h
          exact hdigits _ List.mem_cons_self
  · split at h
    · cases h
      exact hdigits _ List.mem_cons_self
    · cases h
      exact hdigits _ List.mem_cons_self
    · cases h

end Layout

namespace Binary64

attribute [local irreducible] unitsPerOne overflow

variable {x : Binary64} {c : Char}

/-! ## Numbers -/

theorem isDigit_of_mem_significant {n : Nat} (h : c ∈ significant (Nat.toDigits 10 n)) :
    c.isDigit = true := by
  rw [significant, List.mem_reverse] at h
  have hmem := List.mem_reverse.1 ((List.dropWhile_sublist _).subset h)
  exact Nat.isDigit_of_mem_toDigits (by decide) (by decide) hmem

theorem isNumberChar_of_mem_magnitudeText {units : Nat} (h : c ∈ magnitudeText units) :
    isNumberChar c = true :=
  Layout.isNumberChar_of_mem_text
    (fun _ hd => isNumberChar_of_isDigit (isDigit_of_mem_significant hd)) (by decide) h

theorem isNumberChar_of_mem_integerText {z : Int} (h : c ∈ integerText z) :
    isNumberChar c = true := by
  by_contra hnot
  have hdigit : c.isDigit = false :=
    Bool.eq_false_iff.2 fun hdigit => hnot (isNumberChar_of_isDigit hdigit)
  have hminus : c ≠ '-' := by
    rintro rfl
    exact hnot (by decide)
  exact notMem_integerText hdigit hminus z h

/-- **A number is written in digits, letters and signs.** -/
theorem isNumberChar_of_mem_toText (h : c ∈ x.toText) : isNumberChar c = true := by
  have hword : ∀ word : String, word.toList.all isNumberChar = true → c ∈ word.toList →
      isNumberChar c = true := fun _ hall hc => List.all_eq_true.1 hall c hc
  unfold toText at h
  split at h
  · exact isNumberChar_of_mem_integerText h
  · split at h
    · exact hword "NaN" (by decide) h
    · split at h
      · exact hword "-Infinity" (by decide) h
      · exact hword "Infinity" (by decide) h
    · split at h
      · rcases List.mem_cons.1 h with rfl | h
        · decide
        · exact isNumberChar_of_mem_magnitudeText h
      · exact isNumberChar_of_mem_magnitudeText h

/-- Zero is a safe integer, with either sign. -/
theorem isSome_toSafeInt?_finite_zero (negative : Bool) (fits : Fits 0) (small : 0 < overflow) :
    (finite negative 0 fits small).toSafeInt?.isSome = true := by
  have hzero : (finite negative 0 fits small).toInt? = some 0 := by
    rw [toInt?_finite, if_pos (Nat.dvd_zero _)]
    cases negative <;> simp
  rw [toSafeInt?, hzero]
  rfl

/-- **A number that is not below zero** is not written with a minus sign in front. -/
theorem ne_minus_of_toText {p : Int} (hx : x.place? = some p) (hp : 0 ≤ p)
    (h : c ∈ x.toText.head?) : c ≠ '-' := by
  have hdigit : c.isDigit = true → c ≠ '-' := by
    rintro hc rfl
    cases hc
  unfold toText at h
  split at h
  · rename_i z hz
    have hint : x.toInt? = some z := (Option.filter_eq_some_iff.1 hz).1
    have hunits : (0 : Int) < unitsPerOne := by exact_mod_cast unitsPerOne_pos
    rw [place?_of_toInt? hint, Option.some_inj] at hx
    have hz0 : ¬ z < 0 := by
      intro hlt
      have := Int.mul_neg_of_neg_of_pos hlt hunits
      omega
    rw [integerText, if_neg hz0] at h
    exact hdigit (Nat.isDigit_of_mem_toDigits (by decide) (by decide) (List.mem_of_mem_head? h))
  · rename_i hlarge
    split at h
    · cases h
      decide
    · split at h
      · rename_i hnegative
        have hoverflow : 2 ^ 0 ≤ overflow := two_pow_le_overflow (by decide)
        rw [place?_infinity, if_pos hnegative, Option.some_inj] at hx
        omega
      · cases h
        decide
    · rename_i negative units fits small
      split at h
      · rename_i hnegative
        obtain rfl : units = 0 := by
          rw [place?_finite, if_pos hnegative, Option.some_inj] at hx
          omega
        have := isSome_toSafeInt?_finite_zero negative fits small
        rw [hlarge] at this
        cases this
      · exact hdigit (Layout.isDigit_of_mem_head?_text
          (fun _ hd => isDigit_of_mem_significant hd) h)

end Binary64

end LoadTest

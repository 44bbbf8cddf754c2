import LoadTest.StatusLog.Line
import LoadTest.Proofs.Binary64.Whole
import Mathlib.Data.List.TakeWhile
/-!
# Timestamps of status lines

A status line starts with its time, an integer in digits, perhaps with blanks around it.

* `Digits`, `Timestamp`: such texts, well formed by construction, and the numbers they name.
* `timestamp?_text`, `exists_of_timestamp?`: these texts are read, each as its number, and no others.
* `Timestamp.trim_text`: blanks around a timestamp are trimmed off.
-/

namespace LoadTest

open Binary64

-- Numbers of hundreds of digits: they are used through lemmas only.
attribute [local irreducible] unitsPerOne overflow

/-! ## Digits -/

/-- Digits, at least one of them. -/
structure Digits where
  text : List Char
  ne_nil : text ≠ []
  digit : ∀ c ∈ text, c.isDigit = true

theorem Text.isBlank_of_isDigit {c : Char} (h : c.isDigit = true) : Text.isBlank c = false := by
  obtain ⟨hlow, hhigh⟩ := Char.isDigit_iff_toNat.1 h
  have hc : 48 ≤ c.toNat ∧ c.toNat ≤ 57 := ⟨hlow, hhigh⟩
  simp only [Text.isBlank, Bool.or_eq_false_iff, Bool.and_eq_false_iff, decide_eq_false_iff_not,
    beq_eq_false_iff_ne]
  omega

namespace Digits

variable {cs rest : List Char} {n : Nat}

/-- The natural number that digits name. -/
def value (d : Digits) : Nat := Nat.ofDigitChars 10 d.text 0

theorem natural?_text (d : Digits) : Decimal.natural? d.text = some d.value := by
  rw [Decimal.natural?, if_pos ⟨d.ne_nil, List.all_eq_true.2 d.digit⟩, value]

theorem exists_of_natural? (h : Decimal.natural? cs = some n) :
    ∃ d : Digits, d.text = cs ∧ d.value = n := by
  rw [Decimal.natural?] at h
  split at h
  · rename_i hdigits
    exact ⟨⟨cs, hdigits.1, List.all_eq_true.1 hdigits.2⟩, rfl, Option.some.inj h⟩
  · cases h

theorem exists_cons (d : Digits) : ∃ c cs, d.text = c :: cs ∧ c.isDigit = true := by
  cases h : d.text with
  | nil => exact absurd h d.ne_nil
  | cons c cs => exact ⟨c, cs, rfl, d.digit c (h ▸ List.mem_cons_self)⟩

theorem exists_concat (d : Digits) : ∃ cs c, d.text = cs ++ [c] ∧ c.isDigit = true := by
  rcases List.eq_nil_or_concat d.text with h | ⟨cs, c, h⟩
  · exact absurd h d.ne_nil
  · rw [List.concat_eq_append] at h
    exact ⟨cs, c, h, d.digit c (h ▸ List.mem_append_right cs List.mem_cons_self)⟩

/-- Digits are taken whole if no other digit follows. -/
theorem takeWhile_append (d : Digits) (h : ∀ c ∈ rest.head?, c.isDigit = false) :
    (d.text ++ rest).takeWhile Char.isDigit = d.text := by
  rw [List.takeWhile_append_of_pos d.digit]
  cases rest with
  | nil => simp
  | cons c rest => rw [List.takeWhile_cons_of_neg (by simp [h c rfl]), List.append_nil]

theorem dropWhile_append (d : Digits) (h : ∀ c ∈ rest.head?, c.isDigit = false) :
    (d.text ++ rest).dropWhile Char.isDigit = rest := by
  rw [List.dropWhile_append_of_pos d.digit]
  cases rest with
  | nil => rfl
  | cons c rest => exact List.dropWhile_cons_of_neg (by simp [h c rfl])

/-- The digits at the start of a text, if there are any. -/
theorem exists_of_takeWhile (h : cs.takeWhile Char.isDigit ≠ []) :
    ∃ d : Digits, cs.takeWhile Char.isDigit = d.text :=
  ⟨⟨_, h, fun _ hc => List.mem_takeWhile_imp hc⟩, rfl⟩

end Digits

/-- A text stays as it is when it is trimmed if it has no blank at either end. -/
theorem Text.trim_of_ends {blanks cs blanks' : List Char}
    (hblanks : ∀ c ∈ blanks, Text.isBlank c = true) (hblanks' : ∀ c ∈ blanks', Text.isBlank c = true)
    (hfirst : ∃ c rest, cs = c :: rest ∧ Text.isBlank c = false)
    (hlast : ∃ rest c, cs = rest ++ [c] ∧ Text.isBlank c = false) :
    Text.trim (blanks ++ (cs ++ blanks')) = cs := by
  obtain ⟨c, rest, rfl, hc⟩ := hfirst
  have hstart : Text.trimStart (blanks ++ (c :: rest ++ blanks')) = c :: rest ++ blanks' := by
    rw [Text.trimStart, List.dropWhile_append_of_pos hblanks, List.cons_append,
      List.dropWhile_cons_of_neg (by simp [hc])]
  obtain ⟨rest', c', hcs, hc'⟩ := hlast
  rw [Text.trim, hstart, hcs, Text.trimEnd, List.reverse_append,
    List.dropWhile_append_of_pos (by simpa using hblanks'), List.reverse_append,
    List.reverse_singleton, List.singleton_append, List.dropWhile_cons_of_neg (by simp [hc']),
    List.reverse_cons, List.reverse_reverse]

/-! ## Timestamps -/

/-- The text of an integer: digits, perhaps after a minus sign. -/
structure Timestamp where
  negative : Bool
  digits : Digits

/-- The number nearest to an integer, by its sign and its size. -/
theorem Decimal.round_natural (negative : Bool) (n : Nat) :
    Decimal.round negative ⟨n, 0⟩ = ofRatio negative (n * unitsPerOne) 1 := by
  rw [Decimal.round]
  by_cases hn : n = 0
  · simp only [hn, if_true, Nat.zero_mul, zero]
  · have hsmall : ¬ (0 : Int) + (n.log2 : Int) + 401 < 0 := by omega
    have hlarge : ¬ (400 : Int) < 0 := by decide
    simp only [hn, hsmall, hlarge, if_false, Decimal.ratio, Int.le_refl, if_true, Int.toNat_zero,
      Nat.pow_eq, Nat.pow_zero, Nat.mul_one]

namespace Timestamp

variable {cs : List Char} {x : Binary64}

def text (t : Timestamp) : List Char := if t.negative then '-' :: t.digits.text else t.digits.text

/-- The integer that the text names. -/
def value (t : Timestamp) : Int :=
  if t.negative then -(t.digits.value : Int) else t.digits.value

/-- The number nearest to the integer; a zero keeps its sign. -/
def number (t : Timestamp) : Binary64 :=
  if t.value = 0 then zero t.negative else ofInt t.value

theorem number_eq (t : Timestamp) : t.number = ofRatio t.negative (t.digits.value * unitsPerOne) 1 := by
  obtain ⟨negative, digits⟩ := t
  have habs : (value ⟨negative, digits⟩).natAbs = digits.value := by
    cases negative <;> simp [value]
  rw [number, ofInt, habs]
  by_cases hzero : value ⟨negative, digits⟩ = 0
  · rw [hzero, Int.natAbs_zero] at habs
    rw [if_pos hzero, ← habs, Nat.zero_mul, zero]
  · have hsign : decide (value ⟨negative, digits⟩ < 0) = negative := by
      cases negative with
      | false => simp [value]
      | true =>
        simp only [value, if_true] at hzero ⊢
        exact decide_eq_true (by omega)
    rw [if_neg hzero, hsign]

theorem exists_cons (t : Timestamp) :
    ∃ c cs, t.text = c :: cs ∧ (c = '-' ∨ c.isDigit = true) := by
  obtain ⟨c, cs, hcs, hc⟩ := t.digits.exists_cons
  rw [text]
  split
  · exact ⟨'-', _, rfl, .inl rfl⟩
  · exact ⟨c, cs, hcs, .inr hc⟩

theorem mem_text {c : Char} (t : Timestamp) (h : c ∈ t.text) : c = '-' ∨ c.isDigit = true := by
  rw [text] at h
  split at h
  · rcases List.mem_cons.1 h with rfl | hdigit
    · exact .inl rfl
    · exact .inr (t.digits.digit c hdigit)
  · exact .inr (t.digits.digit c h)

theorem exists_concat (t : Timestamp) : ∃ cs c, t.text = cs ++ [c] ∧ c.isDigit = true := by
  obtain ⟨cs, c, hcs, hc⟩ := t.digits.exists_concat
  rw [text, hcs]
  split
  · exact ⟨'-' :: cs, c, rfl, hc⟩
  · exact ⟨cs, c, rfl, hc⟩

/-- Blanks around a timestamp are trimmed off. -/
theorem trim_text (t : Timestamp) {blanks blanks' : List Char}
    (hblanks : ∀ c ∈ blanks, Text.isBlank c = true)
    (hblanks' : ∀ c ∈ blanks', Text.isBlank c = true) :
    Text.trim (blanks ++ (t.text ++ blanks')) = t.text := by
  obtain ⟨c, cs, hcs, hc⟩ := t.exists_cons
  obtain ⟨cs', c', hcs', hc'⟩ := t.exists_concat
  refine Text.trim_of_ends hblanks hblanks' ⟨c, cs, hcs, ?_⟩
    ⟨cs', c', hcs', Text.isBlank_of_isDigit hc'⟩
  rcases hc with rfl | hc
  · decide
  · exact Text.isBlank_of_isDigit hc

end Timestamp

namespace StatusLine

variable {cs rest : List Char} {x : Binary64}

theorem timestamp?_of_ne_minus {c : Char} (h : c ≠ '-') (cs : List Char) :
    timestamp? (c :: cs)
      = (Decimal.natural? (c :: cs)).map fun n => Decimal.round false ⟨n, 0⟩ := by
  unfold timestamp?
  split
  · rename_i heq
    exact absurd (List.cons.inj heq).1 h
  · rfl

/-- **A timestamp is read as its number.** -/
theorem timestamp?_text (t : Timestamp) : timestamp? t.text = some t.number := by
  rw [t.number_eq, Timestamp.text]
  cases t.negative with
  | true =>
    simp only [if_true]
    rw [timestamp?, t.digits.natural?_text, Option.map_some, Decimal.round_natural]
  | false =>
    obtain ⟨c, cs, hcs, hc⟩ := t.digits.exists_cons
    have hminus : c ≠ '-' := by
      rintro rfl
      cases hc
    have hnatural := t.digits.natural?_text
    simp only [Bool.false_eq_true, if_false]
    rw [hcs] at hnatural ⊢
    rw [timestamp?_of_ne_minus hminus, hnatural, Option.map_some, Decimal.round_natural]

/-- **Nothing else is read as a time.** -/
theorem exists_of_timestamp? (h : timestamp? cs = some x) : ∃ t : Timestamp, t.text = cs := by
  unfold timestamp? at h
  split at h
  · obtain ⟨n, hn, -⟩ := Option.map_eq_some_iff.1 h
    obtain ⟨d, rfl, -⟩ := Digits.exists_of_natural? hn
    exact ⟨⟨true, d⟩, rfl⟩
  · obtain ⟨n, hn, -⟩ := Option.map_eq_some_iff.1 h
    obtain ⟨d, rfl, -⟩ := Digits.exists_of_natural? hn
    exact ⟨⟨false, d⟩, rfl⟩

theorem timestamp?_eq_none_iff : timestamp? cs = none ↔ ¬ ∃ t : Timestamp, t.text = cs := by
  cases h : timestamp? cs with
  | none =>
    simp only [true_iff]
    rintro ⟨t, rfl⟩
    rw [timestamp?_text] at h
    cases h
  | some x => simp [exists_of_timestamp? h]

end StatusLine

end LoadTest

import LoadTest.Proofs.StatusLog.Timestamp
/-!
# Numerals of status lines

A latency is written as a numeral: digits, perhaps a fraction, perhaps an exponent.

* `Numeral`: such texts, well formed by construction, and the decimals they name.
* `numeral_append`, `exists_of_numeral`: a numeral at the start of a text is found whole, and nothing
  else is found there.
* `Numeral.ofText_text`: a numeral names the number nearest to its value.
* `exists_of_latency?`: no latency that is read is below zero or no number.
-/

namespace LoadTest

open Binary64

-- Numbers of hundreds of digits: they are used through lemmas only.
attribute [local irreducible] unitsPerOne overflow

/-! ## Numerals -/

/-- The sign of an exponent, if it has one. -/
inductive Sign
  | none
  | plus
  | minus

namespace Sign

def text : Sign → List Char
  | none => []
  | plus => ['+']
  | minus => ['-']

def apply : Sign → Nat → Int
  | none, n => n
  | plus, n => n
  | minus, n => -n

end Sign

/-- The exponent of a numeral: a mark, perhaps a sign, and digits. -/
structure Exponent where
  mark : Char
  mark_eq : mark = 'e' ∨ mark = 'E'
  sign : Sign
  digits : Digits

namespace Exponent

def text (e : Exponent) : List Char := e.mark :: (e.sign.text ++ e.digits.text)

def value (e : Exponent) : Int := e.sign.apply e.digits.value

end Exponent

/-- Digits, perhaps a point and digits after it, perhaps an exponent. -/
structure Numeral where
  whole : Digits
  fraction : Option Digits
  exponent : Option Exponent

namespace Numeral

/-- The digits after the point. -/
def fractionDigits (n : Numeral) : List Char := (n.fraction.map Digits.text).getD []

/-- The point and the digits after it. -/
def fractionText (n : Numeral) : List Char := (n.fraction.map fun d => '.' :: d.text).getD []

def exponentText (n : Numeral) : List Char := (n.exponent.map Exponent.text).getD []

def text (n : Numeral) : List Char := n.whole.text ++ (n.fractionText ++ n.exponentText)

/-- The decimal that a numeral names. -/
def value (n : Numeral) : Decimal where
  digits := Nat.ofDigitChars 10 (n.whole.text ++ n.fractionDigits) 0
  exponent := (n.exponent.map Exponent.value).getD 0 - n.fractionDigits.length

/-- The characters of numerals. -/
def isNumeralChar (c : Char) : Bool := c.isDigit || ['.', 'e', 'E', '+', '-'].contains c

/-- A numeral ends before a text that starts with no character of one. -/
def EndsBefore (rest : List Char) : Prop := ∀ c ∈ rest.head?, isNumeralChar c = false

section Ends

variable {rest : List Char} {c : Char}

theorem endsBefore_nil : EndsBefore [] := by simp [EndsBefore]

theorem EndsBefore.isDigit (h : EndsBefore rest) (hc : c ∈ rest.head?) : c.isDigit = false :=
  (Bool.or_eq_false_iff.1 (h c hc)).1

theorem EndsBefore.ne_point (h : EndsBefore rest) (hc : c ∈ rest.head?) : c ≠ '.' := by
  rintro rfl
  cases h _ hc

theorem EndsBefore.ne_mark (h : EndsBefore rest) (hc : c ∈ rest.head?) : c ≠ 'e' ∧ c ≠ 'E' := by
  constructor
  · rintro rfl
    cases h _ hc
  · rintro rfl
    cases h _ hc

/-- Neither a digit nor a point follows the whole part and the fraction. -/
theorem head_exponentText (n : Numeral) (h : EndsBefore rest) :
    ∀ c ∈ (n.exponentText ++ rest).head?, c.isDigit = false ∧ c ≠ '.' := by
  intro c hc
  rw [exponentText] at hc
  cases he : n.exponent with
  | none =>
    rw [he] at hc
    exact ⟨h.isDigit hc, h.ne_point hc⟩
  | some e =>
    rw [he] at hc
    obtain rfl : e.mark = c := Option.some.inj hc
    rcases e.mark_eq with hmark | hmark <;> rw [hmark] <;> decide

/-- No digit follows the whole part. -/
theorem head_tail (n : Numeral) (h : EndsBefore rest) :
    ∀ c ∈ (n.fractionText ++ (n.exponentText ++ rest)).head?, c.isDigit = false := by
  intro c hc
  rw [fractionText] at hc
  cases hf : n.fraction with
  | none =>
    rw [hf] at hc
    exact (n.head_exponentText h c hc).1
  | some d =>
    rw [hf] at hc
    obtain rfl : '.' = c := Option.some.inj hc
    decide

end Ends

theorem isNumeralChar_of_isDigit {c : Char} (h : c.isDigit = true) : isNumeralChar c = true := by
  rw [isNumeralChar, h, Bool.true_or]

theorem isNumeralChar_of_mem {c : Char} (n : Numeral) (h : c ∈ n.text) :
    isNumeralChar c = true := by
  have hdigits : ∀ d : Digits, c ∈ d.text → isNumeralChar c = true :=
    fun d hc => isNumeralChar_of_isDigit (d.digit c hc)
  obtain ⟨whole, fraction, exponent⟩ := n
  rcases List.mem_append.1 h with hwhole | htail
  · exact hdigits whole hwhole
  rcases List.mem_append.1 htail with hfraction | hexponent
  · cases fraction with
    | none => cases hfraction
    | some d =>
      rcases List.mem_cons.1 hfraction with rfl | hd
      · decide
      · exact hdigits d hd
  · cases exponent with
    | none => cases hexponent
    | some e =>
      rcases List.mem_cons.1 hexponent with rfl | he
      · rcases e.mark_eq with hmark | hmark <;> rw [hmark] <;> decide
      rcases List.mem_append.1 he with hsign | hd
      · cases hs : e.sign <;> rw [hs] at hsign <;> simp [Sign.text] at hsign <;>
          rw [hsign] <;> decide
      · exact hdigits e.digits hd

end Numeral

namespace StatusLine

variable {cs rest : List Char}

/-! ### The parts of a numeral at the start of a text -/

theorem takeFraction_append (d : Digits) (h : ∀ c ∈ rest.head?, c.isDigit = false) :
    takeFraction ('.' :: d.text ++ rest) = '.' :: d.text := by
  rw [List.cons_append, takeFraction, d.takeWhile_append h]
  exact if_neg d.ne_nil

theorem takeFraction_of_ne_point (h : ∀ c ∈ cs.head?, c ≠ '.') : takeFraction cs = [] := by
  unfold takeFraction
  split
  · exact absurd rfl (h '.' rfl)
  · rfl

theorem exists_of_takeFraction (cs : List Char) :
    ∃ f : Option Digits, takeFraction cs = (f.map fun d => '.' :: d.text).getD [] := by
  unfold takeFraction
  split
  · rename_i cs
    by_cases h : cs.takeWhile Char.isDigit = []
    · exact ⟨none, if_pos h⟩
    · obtain ⟨d, hd⟩ := Digits.exists_of_takeWhile h
      refine ⟨some d, ?_⟩
      rw [if_neg h, hd]
      rfl
  · exact ⟨none, rfl⟩

theorem takeSign_text (s : Sign) (d : Digits) (rest : List Char) :
    takeSign (s.text ++ (d.text ++ rest)) = s.text := by
  cases s with
  | none =>
    obtain ⟨c, cs, hcs, hc⟩ := d.exists_cons
    rw [hcs, Sign.text, List.nil_append, List.cons_append]
    unfold takeSign
    split
    · rename_i heq
      cases heq
      cases hc
    · rename_i heq
      cases heq
      cases hc
    · rfl
  | plus => rfl
  | minus => rfl

theorem exists_of_takeSign (cs : List Char) : ∃ s : Sign, takeSign cs = s.text := by
  unfold takeSign
  split
  · exact ⟨.plus, rfl⟩
  · exact ⟨.minus, rfl⟩
  · exact ⟨.none, rfl⟩

theorem takeExponent_append (e : Exponent) (h : ∀ c ∈ rest.head?, c.isDigit = false) :
    takeExponent (e.text ++ rest) = e.text := by
  have hdrop : (e.sign.text ++ (e.digits.text ++ rest)).drop e.sign.text.length
      = e.digits.text ++ rest := List.drop_left
  rw [Exponent.text, List.cons_append, takeExponent, List.append_assoc, takeSign_text, hdrop,
    e.digits.takeWhile_append h]
  exact if_pos ⟨e.mark_eq, e.digits.ne_nil⟩

theorem takeExponent_of_ne_mark (h : ∀ c ∈ cs.head?, c ≠ 'e' ∧ c ≠ 'E') : takeExponent cs = [] := by
  cases cs with
  | nil => rfl
  | cons c cs =>
    obtain ⟨he, hE⟩ := h c rfl
    rw [takeExponent]
    exact if_neg fun hmark => hmark.1.elim he hE

theorem exists_of_takeExponent (cs : List Char) :
    ∃ e : Option Exponent, takeExponent cs = (e.map Exponent.text).getD [] := by
  cases cs with
  | nil => exact ⟨none, rfl⟩
  | cons c cs =>
    rw [takeExponent]
    split
    · rename_i h
      obtain ⟨hmark, hdigits⟩ := h
      obtain ⟨s, hs⟩ := exists_of_takeSign cs
      obtain ⟨d, hd⟩ := Digits.exists_of_takeWhile hdigits
      refine ⟨some ⟨c, hmark, s, d⟩, ?_⟩
      rw [hd, hs]
      rfl
    · exact ⟨none, rfl⟩

/-! ### Numerals at the start of a text -/

theorem numeral_of_whole (d : Digits) (h : ∀ c ∈ rest.head?, c.isDigit = false) :
    numeral (d.text ++ rest)
      = d.text ++ (takeFraction rest ++ takeExponent (rest.drop (takeFraction rest).length)) := by
  have hdrop : ∀ k, (d.text ++ rest).drop (d.text.length + k) = rest.drop k := by
    intro k
    rw [← List.drop_drop, List.drop_left]
  have hrest : (d.text ++ rest).drop d.text.length = rest := List.drop_left
  rw [numeral, d.takeWhile_append h]
  simp only [d.ne_nil, if_false, hrest, hdrop, List.append_assoc]

/-- **A numeral at the start of a text is found whole.** -/
theorem numeral_append (n : Numeral) (h : Numeral.EndsBefore rest) :
    numeral (n.text ++ rest) = n.text := by
  have hexponent := n.head_exponentText h
  have htakeFraction : takeFraction (n.fractionText ++ (n.exponentText ++ rest))
      = n.fractionText := by
    rw [Numeral.fractionText]
    cases n.fraction with
    | none => exact takeFraction_of_ne_point fun c hc => (hexponent c hc).2
    | some d => exact takeFraction_append d fun c hc => (hexponent c hc).1
  have htakeExponent : takeExponent (n.exponentText ++ rest) = n.exponentText := by
    rw [Numeral.exponentText]
    cases n.exponent with
    | none => exact takeExponent_of_ne_mark fun c hc => h.ne_mark hc
    | some e => exact takeExponent_append e fun c hc => h.isDigit hc
  rw [Numeral.text, List.append_assoc, List.append_assoc, numeral_of_whole _ (n.head_tail h),
    htakeFraction, List.drop_left, htakeExponent]

/-- **What is found is a numeral**, if a digit is there. -/
theorem exists_of_numeral (h : numeral cs ≠ []) : ∃ n : Numeral, numeral cs = n.text := by
  have hwhole : cs.takeWhile Char.isDigit ≠ [] := by
    intro hnil
    exact h (by rw [numeral, hnil]; rfl)
  obtain ⟨d, hd⟩ := Digits.exists_of_takeWhile hwhole
  have hcs : d.text ++ cs.dropWhile Char.isDigit = cs := by
    rw [← hd, List.takeWhile_append_dropWhile]
  have hrest : ∀ c ∈ (cs.dropWhile Char.isDigit).head?, c.isDigit = false := by
    intro c hc
    have := List.head?_dropWhile_not Char.isDigit cs
    rw [Option.mem_def.1 hc] at this
    exact this
  rw [← hcs, numeral_of_whole d hrest]
  obtain ⟨f, hf⟩ := exists_of_takeFraction (cs.dropWhile Char.isDigit)
  obtain ⟨e, he⟩ := exists_of_takeExponent
    ((cs.dropWhile Char.isDigit).drop (takeFraction (cs.dropWhile Char.isDigit)).length)
  refine ⟨⟨d, f, e⟩, ?_⟩
  rw [he, hf]
  rfl

/-- A text starts with a numeral if it starts with a digit, and only then. -/
theorem numeral_eq_nil_iff : numeral cs = [] ↔ ∀ c ∈ cs.head?, c.isDigit = false := by
  cases cs with
  | nil => simp [numeral]
  | cons c cs =>
    rw [numeral]
    cases hc : c.isDigit with
    | true => simp [List.takeWhile_cons_of_pos hc, hc]
    | false => simp [List.takeWhile_cons_of_neg, hc]

end StatusLine

/-! ## The number that a numeral names -/

theorem Decimal.signed?_text (s : Sign) (d : Digits) :
    Decimal.signed? (s.text ++ d.text) = some (s.apply d.value) := by
  cases s with
  | none =>
    obtain ⟨c, cs, hcs, hc⟩ := d.exists_cons
    have hnatural := d.natural?_text
    rw [hcs] at hnatural
    rw [hcs, Sign.text, List.nil_append, Decimal.signed?, hnatural]
    · rfl
    · rintro cs' heq
      cases heq
      cases hc
    · rintro cs' heq
      cases heq
      cases hc
  | plus => rw [Sign.text, List.singleton_append, Decimal.signed?, d.natural?_text]; rfl
  | minus => rw [Sign.text, List.singleton_append, Decimal.signed?, d.natural?_text]; rfl

namespace Numeral

variable (n : Numeral)

theorem exponent?_exponentText :
    Decimal.exponent? n.exponentText = some ((n.exponent.map Exponent.value).getD 0) := by
  rw [exponentText]
  cases n.exponent with
  | none => rfl
  | some e =>
    show Decimal.exponent? (e.mark :: (e.sign.text ++ e.digits.text)) = some e.value
    rw [Decimal.exponent?, if_pos e.mark_eq, Decimal.signed?_text, Exponent.value]

theorem fraction_tail :
    Decimal.fraction (n.fractionText ++ n.exponentText) = (n.fractionDigits, n.exponentText) := by
  have hhead := n.head_exponentText endsBefore_nil
  rw [List.append_nil] at hhead
  rw [fractionText, fractionDigits]
  cases n.fraction with
  | none =>
    show Decimal.fraction n.exponentText = ([], n.exponentText)
    unfold Decimal.fraction
    split
    · rename_i heq
      rw [heq] at hhead
      exact absurd rfl (hhead '.' rfl).2
    · rfl
  | some d =>
    show Decimal.fraction ('.' :: (d.text ++ n.exponentText)) = (d.text, n.exponentText)
    have hdigits : ∀ c ∈ n.exponentText.head?, c.isDigit = false := fun c hc => (hhead c hc).1
    rw [Decimal.fraction, d.takeWhile_append hdigits, d.dropWhile_append hdigits]

theorem read?_text : Decimal.read? n.text = some n.value := by
  have hdigits : ¬ (n.whole.text = [] ∧ n.fractionDigits = []) := fun h => n.whole.ne_nil h.1
  have htail := n.head_tail endsBefore_nil
  rw [List.append_nil] at htail
  rw [Decimal.read?, text, n.whole.takeWhile_append htail, n.whole.dropWhile_append htail,
    fraction_tail]
  simp only [hdigits, if_false, exponent?_exponentText, Option.map_some]
  rfl

theorem exists_concat : ∃ cs c, n.text = cs ++ [c] ∧ c.isDigit = true := by
  obtain ⟨whole, fraction, exponent⟩ := n
  cases exponent with
  | some e =>
    obtain ⟨cs, c, hcs, hc⟩ := e.digits.exists_concat
    refine ⟨whole.text ++ (fractionText ⟨whole, fraction, some e⟩ ++ e.mark :: (e.sign.text ++ cs)),
      c, ?_, hc⟩
    simp [text, exponentText, Exponent.text, hcs, fractionText]
  | none =>
    cases fraction with
    | some d =>
      obtain ⟨cs, c, hcs, hc⟩ := d.exists_concat
      refine ⟨whole.text ++ '.' :: cs, c, ?_, hc⟩
      simp [text, exponentText, fractionText, hcs]
    | none =>
      obtain ⟨cs, c, hcs, hc⟩ := whole.exists_concat
      refine ⟨cs, c, ?_, hc⟩
      simp [text, exponentText, fractionText, hcs]

theorem exists_cons : ∃ c cs, n.text = c :: cs ∧ c.isDigit = true := by
  obtain ⟨c, cs, hcs, hc⟩ := n.whole.exists_cons
  exact ⟨c, cs ++ (n.fractionText ++ n.exponentText), by rw [text, hcs]; rfl, hc⟩

/-- No character of a numeral announces a base. -/
theorem baseOf?_of_isNumeralChar {c : Char} (h : isNumeralChar c = true) : baseOf? c = none := by
  have hne : ∀ d : Char, isNumeralChar d = false → c ≠ d := by
    rintro d hd rfl
    rw [h] at hd
    cases hd
  rw [baseOf?, if_neg, if_neg, if_neg]
  · rintro (rfl | rfl) <;> exact hne _ (by decide) rfl
  · rintro (rfl | rfl) <;> exact hne _ (by decide) rfl
  · rintro (rfl | rfl) <;> exact hne _ (by decide) rfl

theorem ofTrimmed_of_isDigit {c : Char} {cs : List Char} (hc : c.isDigit = true)
    (h : ∀ d ∈ cs.head?, baseOf? d = none) : ofTrimmed (c :: cs) = ofUnsigned false (c :: cs) := by
  unfold ofTrimmed
  split
  · rename_i heq
    cases heq
  · rename_i heq
    cases heq
    cases hc
  · rename_i heq
    cases heq
    cases hc
  · rename_i d cs' heq
    cases heq
    rw [h d rfl]
  · rfl

/-- A numeral has no sign and announces no base, so it is read as a decimal. -/
theorem ofTrimmed_text : ofTrimmed n.text = n.value.round false := by
  obtain ⟨c, cs, hcs, hc⟩ := n.exists_cons
  have hbase : ∀ d ∈ cs.head?, baseOf? d = none := by
    intro d hd
    refine baseOf?_of_isNumeralChar (n.isNumeralChar_of_mem ?_)
    rw [hcs]
    exact List.mem_cons_of_mem c (List.mem_of_mem_head? hd)
  have hinfinity : n.text ≠ "Infinity".toList := by
    intro h
    rw [hcs] at h
    obtain rfl : c = 'I' := (List.cons.inj h).1
    cases hc
  rw [hcs, ofTrimmed_of_isDigit hc hbase, ← hcs, ofUnsigned, if_neg hinfinity, read?_text]

/-- **A numeral names the number nearest to its value.** -/
theorem ofText_text : Binary64.ofText n.text = n.value.round false := by
  obtain ⟨c, cs, hcs, hc⟩ := n.exists_cons
  obtain ⟨cs', c', hcs', hc'⟩ := n.exists_concat
  have htrim : Text.trim ([] ++ (n.text ++ [])) = n.text :=
    Text.trim_of_ends (by simp) (by simp) ⟨c, cs, hcs, Text.isBlank_of_isDigit hc⟩
      ⟨cs', c', hcs', Text.isBlank_of_isDigit hc'⟩
  rw [List.nil_append, List.append_nil] at htrim
  rw [Binary64.ofText, htrim, ofTrimmed_text]

end Numeral

/-- **A natural number in digits** is read as what it is. -/
theorem ofText_toDigits (n : Nat) : Binary64.ofText (Nat.toDigits 10 n) = .ofNat n := by
  have hdigits : ∀ c ∈ Nat.toDigits 10 n, c.isDigit = true := fun c hc =>
    Nat.isDigit_of_mem_toDigits (by decide) (by decide) hc
  have htext := Numeral.ofText_text ⟨⟨Nat.toDigits 10 n, Nat.toDigits_ne_nil, hdigits⟩, none, none⟩
  have hvalue : Nat.ofDigitChars 10 (Nat.toDigits 10 n ++ []) 0 = n := by
    rw [List.append_nil, Nat.ofDigitChars_ten_toDigits]
  simp only [Numeral.text, Numeral.value, Numeral.fractionText, Numeral.fractionDigits,
    Numeral.exponentText, Option.map_none, Option.getD_none, hvalue] at htext
  rw [List.append_nil, List.append_nil] at htext
  exact htext.trans (Decimal.round_natural false n)

/-! ## Latencies are not below zero -/

theorem exists_place?_ofRatio (num den : Nat) :
    ∃ p, (ofRatio false num den).place? = some p ∧ 0 ≤ p := by
  rw [ofRatio]
  split
  · exact ⟨_, rfl, Int.natCast_nonneg _⟩
  · exact ⟨_, rfl, Int.natCast_nonneg _⟩

/-- **A decimal without a sign is read as a number that is not below zero**, however large or small
it is. -/
theorem Decimal.exists_place?_round (d : Decimal) :
    ∃ p, (d.round false).place? = some p ∧ 0 ≤ p := by
  rw [Decimal.round]
  split
  · exact exists_place?_ofRatio 0 1
  · split
    · exact ⟨_, rfl, Int.natCast_nonneg _⟩
    · split
      · exact exists_place?_ofRatio 0 1
      · exact exists_place?_ofRatio _ _

namespace StatusLine

variable {cs : List Char} {x : Binary64}

/-- **What a latency is read from**: blanks, and then a digit. -/
theorem latency?_eq_none_iff :
    latency? cs = none ↔ ∀ c ∈ (Text.trimStart cs).head?, c.isDigit = false := by
  rw [← numeral_eq_nil_iff, latency?]
  simp

theorem exists_of_latency? (h : latency? cs = some x) :
    ∃ p, x.place? = some p ∧ 0 ≤ p := by
  rw [latency?] at h
  split at h
  · cases h
  · rename_i hne
    obtain ⟨n, hn⟩ := exists_of_numeral hne
    cases h
    rw [hn, n.ofText_text]
    exact n.value.exists_place?_round

theorem latency?_append (n : Numeral) {rest : List Char} (h : Numeral.EndsBefore rest) :
    latency? (n.text ++ rest) = some (.ofText n.text) := by
  obtain ⟨c, cs, hcs, hc⟩ := n.exists_cons
  have hstart : Text.trimStart (n.text ++ rest) = n.text ++ rest := by
    rw [Text.trimStart, hcs, List.cons_append,
      List.dropWhile_cons_of_neg (by simp [Text.isBlank_of_isDigit hc])]
  have hne : n.text ≠ [] := by
    rw [hcs]
    exact List.cons_ne_nil c cs
  rw [latency?, hstart, numeral_append n h]
  exact if_neg hne

/-- The mark of a missing latency is one below zero. -/
theorem place?_noLatency : noLatency.place? = some (-1 * (unitsPerOne : Int)) :=
  place?_of_toInt? (toInt?_neg (toInt?_ofNat (n := 1) (by decide)))

/-- No latency that is read is the mark of a missing one. -/
theorem ne_noLatency_of_place? {p : Int} (h : x.place? = some p) (hp : 0 ≤ p) : x ≠ noLatency := by
  rintro rfl
  have hU : (0 : Int) < unitsPerOne := by exact_mod_cast unitsPerOne_pos
  rw [place?_noLatency, Option.some_inj] at h
  omega

/-- Nor is it taken for that mark. -/
theorem eq_noLatency_of_place? {p : Int} (h : x.place? = some p) (hp : 0 ≤ p) :
    x.eq noLatency = false := by
  have hU : (0 : Int) < unitsPerOne := by exact_mod_cast unitsPerOne_pos
  rw [Bool.eq_false_iff, ne_eq, eq_iff_of_place? h place?_noLatency]
  omega

end StatusLine

end LoadTest

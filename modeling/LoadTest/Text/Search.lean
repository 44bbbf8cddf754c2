/-!
# Searching a text

The first occurrence of a word in a text.  `eq_of_splitFirst?` says that nothing of the text is lost
by the cut, and `length_of_splitFirst?` that what follows the word is shorter than the text, which
is what ends the loops that search again in the rest.
-/

namespace LoadTest

namespace Text

/-- What follows a word at the start of a text. -/
def after? : List Char → List Char → Option (List Char)
  | [], cs => some cs
  | _ :: _, [] => none
  | w :: ws, c :: cs => if w = c then after? ws cs else none

theorem after?_eq_some_iff {word cs rest : List Char} :
    after? word cs = some rest ↔ cs = word ++ rest := by
  induction word generalizing cs with
  | nil => simp [after?]
  | cons w ws ih =>
    cases cs with
    | nil => simp [after?]
    | cons c cs =>
      by_cases h : w = c
      · simp [after?, h, ih]
      · have : c ≠ w := fun e => h e.symm
        simp [after?, h, this]

/-- Cuts at the first occurrence of a word; `seen` is the reverse of what was passed already. -/
def splitFrom (word : List Char) (seen : List Char) : List Char → Option (List Char × List Char)
  | [] => if word = [] then some (seen.reverse, []) else none
  | c :: cs =>
    match after? word (c :: cs) with
    | some rest => some (seen.reverse, rest)
    | none => splitFrom word (c :: seen) cs

/-- The text before and the text after the first occurrence of a word. -/
def splitFirst? (word cs : List Char) : Option (List Char × List Char) := splitFrom word [] cs

/-- The word occurs in the text. -/
def contains (word cs : List Char) : Bool := (splitFirst? word cs).isSome

theorem eq_of_splitFrom {word seen cs before rest : List Char}
    (h : splitFrom word seen cs = some (before, rest)) :
    seen.reverse ++ cs = before ++ (word ++ rest) := by
  induction cs generalizing seen with
  | nil =>
    unfold splitFrom at h
    split at h
    · rename_i hw
      simp only [Option.some.injEq, Prod.mk.injEq] at h
      obtain ⟨rfl, rfl⟩ := h
      simp [hw]
    · simp at h
  | cons c cs ih =>
    unfold splitFrom at h
    split at h
    · rename_i rest' hr
      simp only [Option.some.injEq, Prod.mk.injEq] at h
      obtain ⟨rfl, rfl⟩ := h
      rw [after?_eq_some_iff.1 hr]
    · have := ih h
      simpa using this

/-- The cut loses nothing. -/
theorem eq_of_splitFirst? {word cs before rest : List Char}
    (h : splitFirst? word cs = some (before, rest)) : cs = before ++ (word ++ rest) := by
  have := eq_of_splitFrom h
  simpa using this

theorem length_of_splitFirst? {word cs before rest : List Char}
    (h : splitFirst? word cs = some (before, rest)) :
    cs.length = before.length + (word.length + rest.length) := by
  rw [eq_of_splitFirst? h]
  simp

end Text

end LoadTest

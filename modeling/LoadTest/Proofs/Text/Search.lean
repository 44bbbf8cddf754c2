import LoadTest.Text.Search
import Mathlib.Data.List.Infix
/-!
# What a search finds

`splitFirst?` cuts a text at the first place where a word stands.  Here that place is described
without the search, and the search is taken past texts in which it finds nothing:

* `FirstCut`: the place; `splitFirst?_eq_some_iff` and `splitFirst?_eq_none_iff` say that the search
  finds it, and fails only if the word is not there.
* `PassesInto`, `Passes`: what a search passes over, before one text or before any.
* `splitFirst?_append`, `splitFirst?_of_passes`: the search goes on after what it passes over.
-/

namespace LoadTest

namespace Text

variable {word cs rest : List Char} {c w : Char} {ws : List Char}

/-! ## Steps of the search -/

theorem splitFrom_eq (word : List Char) : ∀ cs seen : List Char,
    splitFrom word seen cs = (splitFirst? word cs).map fun p => (seen.reverse ++ p.1, p.2) := by
  intro cs
  induction cs with
  | nil =>
    intro seen
    unfold splitFirst? splitFrom
    split <;> simp
  | cons c cs ih =>
    intro seen
    unfold splitFirst? splitFrom
    cases after? word (c :: cs) with
    | some rest => simp
    | none =>
      simp only
      rw [ih (c :: seen), ih [c], Option.map_map]
      simp [Function.comp_def]

theorem splitFirst?_of_after? (h : after? word (c :: cs) = some rest) :
    splitFirst? word (c :: cs) = some ([], rest) := by
  rw [splitFirst?, splitFrom, h]
  rfl

theorem splitFirst?_of_not_after? (h : after? word (c :: cs) = none) :
    splitFirst? word (c :: cs) = (splitFirst? word cs).map fun p => (c :: p.1, p.2) := by
  rw [splitFirst?, splitFrom, h]
  exact splitFrom_eq word cs [c]

theorem after?_self (word rest : List Char) : after? word (word ++ rest) = some rest :=
  after?_eq_some_iff.2 rfl

theorem splitFirst?_self (w : Char) (ws rest : List Char) :
    splitFirst? (w :: ws) (w :: ws ++ rest) = some ([], rest) :=
  splitFirst?_of_after? (after?_self (w :: ws) rest)

/-! ## The first place of a word -/

/-- The text is cut at a word, and there is no earlier place to cut it at that word. -/
structure FirstCut (word text before after : List Char) : Prop where
  eq : text = before ++ (word ++ after)
  first : ∀ b a, text = b ++ (word ++ a) → before.length ≤ b.length

/-- There is one such cut at most. -/
theorem FirstCut.unique {before after before' after' : List Char}
    (h : FirstCut word cs before after) (h' : FirstCut word cs before' after') :
    before = before' ∧ after = after' := by
  have hlength := Nat.le_antisymm (h.first _ _ h'.eq) (h'.first _ _ h.eq)
  obtain ⟨hbefore, hafter⟩ := List.append_inj (h.eq.symm.trans h'.eq) hlength
  exact ⟨hbefore, List.append_cancel_left hafter⟩

theorem firstCut_of_splitFirst? : ∀ {cs before after : List Char},
    splitFirst? word cs = some (before, after) → FirstCut word cs before after := by
  intro cs before after h
  refine ⟨eq_of_splitFirst? h, ?_⟩
  induction cs generalizing before with
  | nil =>
    intro b a _
    have hnil := eq_of_splitFirst? h
    rw [List.append_eq_nil_iff.1 hnil.symm |>.1]
    exact Nat.zero_le _
  | cons c cs ih =>
    intro b a hb
    cases hafter : after? word (c :: cs) with
    | some rest =>
      rw [splitFirst?_of_after? hafter] at h
      cases h
      exact Nat.zero_le _
    | none =>
      rw [splitFirst?_of_not_after? hafter] at h
      obtain ⟨p, hp, heq⟩ := Option.map_eq_some_iff.1 h
      cases heq
      cases b with
      | nil =>
        rw [List.nil_append] at hb
        rw [after?_eq_some_iff.2 hb] at hafter
        cases hafter
      | cons d b =>
        have hrest := ih hp b a (List.cons.inj hb).2
        exact Nat.succ_le_succ hrest

/-- **The search fails** only if the word is not in the text. -/
theorem splitFirst?_eq_none_iff : splitFirst? word cs = none ↔ ¬ word <:+: cs := by
  constructor
  · intro h
    induction cs with
    | nil =>
      rintro hword
      rw [List.infix_nil.1 hword] at h
      cases h
    | cons c cs ih =>
      cases hafter : after? word (c :: cs) with
      | some rest =>
        rw [splitFirst?_of_after? hafter] at h
        cases h
      | none =>
        rw [splitFirst?_of_not_after? hafter, Option.map_eq_none_iff] at h
        rw [List.infix_cons_iff]
        rintro (⟨rest, hrest⟩ | hword)
        · rw [after?_eq_some_iff.2 hrest.symm] at hafter
          cases hafter
        · exact ih h hword
  · intro h
    cases hfound : splitFirst? word cs with
    | none => rfl
    | some p =>
      refine absurd ⟨p.1, p.2, ?_⟩ h
      rw [List.append_assoc]
      exact (eq_of_splitFirst? hfound).symm

/-- **The search finds the first place** of the word. -/
theorem splitFirst?_eq_some_iff {before after : List Char} :
    splitFirst? word cs = some (before, after) ↔ FirstCut word cs before after := by
  refine ⟨firstCut_of_splitFirst?, fun h => ?_⟩
  cases hfound : splitFirst? word cs with
  | none =>
    refine absurd ⟨before, after, ?_⟩ (splitFirst?_eq_none_iff.1 hfound)
    rw [List.append_assoc]
    exact h.eq.symm
  | some p =>
    obtain ⟨hbefore, hafter⟩ := (firstCut_of_splitFirst? hfound).unique h
    rw [← hbefore, ← hafter]

/-! ## Searching past a text -/

/-- **A search passes over** a text before another one if the word starts at none of its
characters. -/
def PassesInto (word cs rest : List Char) : Prop :=
  ∀ c tail, c :: tail <:+ cs → after? word (c :: (tail ++ rest)) = none

/-- **A search passes over** a text if the word starts at none of its characters, whatever comes
after the text. -/
def Passes (word cs : List Char) : Prop :=
  ∀ c tail rest, c :: tail <:+ cs → after? word (c :: (tail ++ rest)) = none

theorem Passes.into (h : Passes word cs) (rest : List Char) : PassesInto word cs rest :=
  fun c tail hsuffix => h c tail rest hsuffix

theorem Passes.tail (h : Passes word (c :: cs)) : Passes word cs :=
  fun d tail rest hsuffix => h d tail rest (hsuffix.trans (List.suffix_cons c cs))

theorem Passes.after?_cons (h : Passes word (c :: cs)) (rest : List Char) :
    after? word (c :: (cs ++ rest)) = none :=
  h c cs rest List.suffix_rfl

/-- A text without the first character of a word is passed over. -/
theorem passes_of_notMem (h : w ∉ cs) : Passes (w :: ws) cs := by
  intro c tail rest hsuffix
  have hne : w ≠ c := by
    rintro rfl
    exact h (hsuffix.subset List.mem_cons_self)
  rw [after?, if_neg hne]

/-- A text is passed over if a word is neither the start of any of its ends nor starts with one. -/
theorem passes_of_tails (h : ∀ tail ∈ cs.tails, tail ≠ [] → ¬ tail <+: word ∧ ¬ word <+: tail) :
    Passes word cs := by
  intro c tail rest hsuffix
  by_contra hsome
  obtain ⟨r, hr⟩ := Option.ne_none_iff_exists'.1 hsome
  obtain ⟨hshort, hlong⟩ := h (c :: tail) ((List.mem_tails _ _).2 hsuffix) (List.cons_ne_nil c tail)
  have hboth : c :: tail ++ rest = word ++ r := after?_eq_some_iff.1 hr
  rcases List.prefix_or_prefix_of_prefix (List.prefix_append (c :: tail) rest)
    (hboth ▸ List.prefix_append word r) with hstart | hstart
  · exact hshort hstart
  · exact hlong hstart

/-- The first occurrence after a text that is passed over is the first one altogether. -/
theorem splitFirst?_append_of_passesInto (h : PassesInto word cs rest) :
    splitFirst? word (cs ++ rest) = (splitFirst? word rest).map fun p => (cs ++ p.1, p.2) := by
  induction cs with
  | nil => simp
  | cons c cs ih =>
    have htail : PassesInto word cs rest :=
      fun d tail hsuffix => h d tail (hsuffix.trans (List.suffix_cons c cs))
    rw [List.cons_append, splitFirst?_of_not_after? (h c cs List.suffix_rfl), ih htail,
      Option.map_map]
    rfl

theorem splitFirst?_append (h : Passes word cs) (rest : List Char) :
    splitFirst? word (cs ++ rest) = (splitFirst? word rest).map fun p => (cs ++ p.1, p.2) :=
  splitFirst?_append_of_passesInto (h.into rest)

/-- What follows the first occurrence does not depend on the text that is passed over before it. -/
theorem map_snd_splitFirst?_append (h : PassesInto word cs rest) :
    (splitFirst? word (cs ++ rest)).map Prod.snd = (splitFirst? word rest).map Prod.snd := by
  rw [splitFirst?_append_of_passesInto h, Option.map_map]
  rfl

/-- A text that is passed over ends where the word follows it. -/
theorem splitFirst?_of_passes (h : Passes (w :: ws) cs) (rest : List Char) :
    splitFirst? (w :: ws) (cs ++ (w :: ws ++ rest)) = some (cs, rest) := by
  rw [splitFirst?_append h, splitFirst?_self]
  simp

end Text

end LoadTest

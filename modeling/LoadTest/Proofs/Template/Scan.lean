import LoadTest.Proofs.Template.Pieces
import LoadTest.Template.Placeholder
/-!
# The scan for placeholders, step by step

The scan reads a text on its own, from one placeholder to the next.  What it finds at a tag, and what
it can find in other text before a tag, is told here:

* `names_of_read?`, `names_of_unread`, `names_of_passes`: the steps of the scan.
* `Common`: the variable tags that it looks for, and `names_text`: each is found as its name.
* `exists_closing_of_read?`: a placeholder ends at the first closing braces after its start, so that
  the scan never runs past the closing braces of a tag (`names_append_closing`), except that it also
  takes a third brace after two.  No placeholder starts with that brace, so nothing is missed for it.
-/

namespace LoadTest

namespace Template

/-- No blanks. -/
def Blanks.empty : Blanks := ⟨[], by simp⟩

namespace Placeholder

variable {cs letters rest : List Char}

/-! ## Steps of the scan -/

theorem names_of_read? (h : read? cs = some (letters, rest)) : names cs = letters :: names rest := by
  cases cs with
  | nil => cases h
  | cons c cs =>
    rw [names]
    split
    · rename_i letters' rest' h'
      rw [h] at h'
      cases h'
      rfl
    · rename_i h'
      rw [h] at h'
      cases h'

theorem names_of_unread {c : Char} (h : read? (c :: cs) = none) :
    names (c :: cs) = names cs := by
  rw [names]
  split
  · rename_i letters' rest' h'
    rw [h] at h'
    cases h'
  · rfl

/-- A placeholder starts with an opening delimiter. -/
theorem read?_of_after? (h : Text.after? ['\x7b', '\x7b'] cs = none) : read? cs = none := by
  rw [read?, h]
  rfl

/-- Nothing is found in a text that holds no opening delimiter. -/
theorem names_of_passes (h : Text.Passes ['\x7b', '\x7b'] cs) (rest : List Char) :
    names (cs ++ rest) = names rest := by
  induction cs with
  | nil => rfl
  | cons c cs ih =>
    rw [List.cons_append, names_of_unread (read?_of_after? (h.after?_cons rest)), ih h.tail]

/-- Nor is anything found in such a text at the end. -/
theorem names_eq_nil (h : ¬ ['\x7b', '\x7b'] <:+: cs) : names cs = [] := by
  induction cs with
  | nil => rw [names]
  | cons c cs ih =>
    rw [List.infix_cons_iff, not_or] at h
    have hunread : Text.after? ['\x7b', '\x7b'] (c :: cs) = none := by
      by_contra hsome
      obtain ⟨tail, htail⟩ := Option.ne_none_iff_exists'.1 hsome
      exact h.1 ⟨tail, (Text.after?_eq_some_iff.1 htail).symm⟩
    rw [names_of_unread (read?_of_after? hunread), ih h.2]

/-- A closing brace starts no placeholder. -/
theorem names_closingBrace (cs : List Char) : names ('\x7d' :: cs) = names cs :=
  names_of_unread (read?_of_after? rfl)

/-! ## What leads to a name -/

theorem isNameChar_of_isWordChar {c : Char} (h : isWordChar c = true) : isNameChar c = true := by
  rw [isNameChar, Bool.or_eq_true]
  exact .inl h

theorem isNameChar_of_isBlank {c : Char} (h : Text.isBlank c = true) : isNameChar c = false := by
  rw [isNameChar, Bool.or_eq_false_iff]
  refine ⟨?_, by simpa using ne_of_class h (show Text.isBlank '.' = false from rfl)⟩
  rw [Bool.eq_false_iff]
  intro hword
  rw [isBlank_of_isWordChar hword] at h
  cases h

theorem isBlank_of_isNameChar {c : Char} (h : isNameChar c = true) : Text.isBlank c = false := by
  rw [Bool.eq_false_iff]
  intro hblank
  rw [isNameChar_of_isBlank hblank] at h
  cases h

theorem skip_of_ne {c d : Char} (h : d ≠ c) (cs : List Char) : skip c (d :: cs) = d :: cs := by
  rw [skip, if_neg h]

/-- Blanks do not hide what is skipped. -/
theorem skip_blanks (b : Blanks) {c d : Char} (hblank : Text.isBlank c = false) (hd : d ≠ c)
    (cs : List Char) : skip c (b.text ++ d :: cs) = b.text ++ d :: cs := by
  cases h : b.text ++ d :: cs with
  | nil => rfl
  | cons e tail =>
    rcases b.head_eq h with he | rfl
    · exact skip_of_ne (ne_of_class he hblank) tail
    · exact skip_of_ne hd tail

theorem skip_self (c : Char) (cs : List Char) : skip c (c :: cs) = cs := by
  rw [skip, if_pos rfl]

/-! ## Variable tags -/

/-- A variable tag of one of the common forms.  Blanks may stand before the name and after it, and
before an ampersand, but not between braces. -/
structure Common where
  form : Form
  lead : Blanks
  before : Blanks
  letters : List Char
  after : Blanks
  ne_nil : letters ≠ []
  nameChars : ∀ c ∈ letters, isNameChar c = true
  lead_eq_nil : form ≠ .ampersand → lead.text = []

namespace Common

/-- The name in a tag. -/
def name (t : Common) : String := String.ofList t.letters

/-- The text of a tag after the opening delimiter. -/
def body (t : Common) : List Char :=
  t.lead.text ++ (t.form.mark
    ++ (t.before.text ++ (t.letters ++ (t.after.text ++ t.form.closing))))

/-- The text of a tag. -/
def text (t : Common) : List Char := ['\x7b', '\x7b'] ++ t.body

theorem exists_cons (t : Common) : ∃ c cs, t.letters = c :: cs ∧ isNameChar c = true := by
  cases h : t.letters with
  | nil => exact absurd h t.ne_nil
  | cons c cs => exact ⟨c, cs, rfl, t.nameChars c (h ▸ List.mem_cons_self)⟩

end Common

/-- What leads to the name of a tag is skipped. -/
theorem start_body (t : Common) (rest : List Char) :
    Text.trimStart (skip '&' (Text.trimStart (skip '\x7b' (t.body ++ rest))))
      = t.letters ++ (t.after.text ++ (t.form.closing ++ rest)) := by
  obtain ⟨c, letters, hletters, hc⟩ := t.exists_cons
  have hblank := isBlank_of_isNameChar hc
  have hlead : ∀ tail, Text.trimStart (t.lead.text ++ '&' :: tail) = '&' :: tail :=
    t.lead.dropWhile_append rfl
  have hbefore : ∀ tail, Text.trimStart (t.before.text ++ c :: tail) = c :: tail :=
    t.before.dropWhile_append hblank
  have hstart : ∀ tail, Text.trimStart (skip '&' (c :: tail)) = c :: tail := by
    intro tail
    rw [skip_of_ne (ne_of_class hc rfl), trimStart_of_not_isBlank hblank]
  rw [Common.body, hletters]
  simp only [List.append_assoc, List.cons_append]
  cases hform : t.form with
  | plain =>
    rw [t.lead_eq_nil (by simp [hform]), Form.mark, List.nil_append, List.nil_append,
      skip_blanks t.before rfl (ne_of_class hc rfl), hbefore, hstart]
  | braces =>
    rw [t.lead_eq_nil (by simp [hform]), Form.mark, List.nil_append, List.singleton_append,
      skip_self, hbefore, hstart]
  | ampersand =>
    rw [Form.mark, List.singleton_append, skip_blanks t.lead rfl (by decide), hlead, skip_self,
      hbefore]

/-- No character of a name starts what follows the name of a tag. -/
theorem span_afterName (b : Blanks) (f : Form) (rest : List Char) :
    (b.text ++ (f.closing ++ rest)).takeWhile isNameChar = [] ∧
      (b.text ++ (f.closing ++ rest)).dropWhile isNameChar = b.text ++ (f.closing ++ rest) := by
  obtain ⟨braces, hclosing⟩ := f.closing_eq
  rw [hclosing, List.cons_append]
  cases h : b.text ++ '\x7d' :: (braces ++ rest) with
  | nil => exact ⟨rfl, rfl⟩
  | cons c tail =>
    have hc : isNameChar c = false := by
      rcases b.head_eq h with hblank | rfl
      · exact isNameChar_of_isBlank hblank
      · decide
    exact ⟨List.takeWhile_cons_of_neg (by simp [hc]), List.dropWhile_cons_of_neg (by simp [hc])⟩

/-- After two closing braces the scan goes on behind them, or behind one more brace, in which it
would find nothing. -/
theorem closing?_two (rest : List Char) :
    ∃ rest', closing? ('\x7d' :: '\x7d' :: rest) = some rest' ∧ names rest' = names rest := by
  cases h : Text.after? ['\x7d', '\x7d', '\x7d'] ('\x7d' :: '\x7d' :: rest) with
  | some tail =>
    obtain rfl : rest = '\x7d' :: tail := by simpa using Text.after?_eq_some_iff.1 h
    exact ⟨tail, by rw [closing?, h], (names_closingBrace tail).symm⟩
  | none =>
    refine ⟨rest, ?_, rfl⟩
    rw [closing?, h]
    exact Text.after?_self ['\x7d', '\x7d'] rest

theorem closing?_closing (f : Form) (rest : List Char) :
    ∃ rest', closing? (f.closing ++ rest) = some rest' ∧ names rest' = names rest := by
  cases f with
  | plain => exact closing?_two rest
  | braces => exact ⟨rest, by rw [closing?, Form.closing, Text.after?_self], rfl⟩
  | ampersand => exact closing?_two rest

/-- **A variable tag is read as its name.** -/
theorem read?_text (t : Common) (rest : List Char) :
    ∃ rest', read? (t.text ++ rest) = some (t.letters, rest') ∧ names rest' = names rest := by
  obtain ⟨rest', hclosing, hnames⟩ := closing?_closing t.form rest
  obtain ⟨htake, hdrop⟩ := span_afterName t.after t.form rest
  have htrim : Text.trimStart (t.after.text ++ (t.form.closing ++ rest))
      = t.form.closing ++ rest := by
    obtain ⟨braces, hbraces⟩ := t.form.closing_eq
    rw [hbraces]
    exact t.after.dropWhile_append rfl _
  refine ⟨rest', ?_, hnames⟩
  rw [read?, Common.text, List.append_assoc, Text.after?_self]
  simp only [bind, Option.bind_some, start_body, List.takeWhile_append_of_pos t.nameChars,
    List.dropWhile_append_of_pos t.nameChars, htake, hdrop, List.append_nil, t.ne_nil, if_false,
    htrim, hclosing]
  rfl

/-- A third closing brace goes with the placeholder, though rendering leaves it in the text. -/
example : read? "\x7b\x7bx\x7d\x7d\x7d;".toList = some (['x'], [';']) := by decide

theorem names_text (t : Common) (rest : List Char) :
    names (t.text ++ rest) = t.letters :: names rest := by
  obtain ⟨rest', hread, hnames⟩ := read?_text t rest
  rw [names_of_read? hread, hnames]

/-! ## Where a placeholder ends -/

/-- A text without closing braces leads to another one. -/
def LeadsTo (cs rest : List Char) : Prop := ∃ lead, cs = lead ++ rest ∧ '\x7d' ∉ lead

theorem LeadsTo.trans {a b c : List Char} (h : LeadsTo a b) (h' : LeadsTo b c) : LeadsTo a c := by
  obtain ⟨lead, rfl, hlead⟩ := h
  obtain ⟨lead', rfl, hlead'⟩ := h'
  refine ⟨lead ++ lead', (List.append_assoc ..).symm, ?_⟩
  rw [List.mem_append, not_or]
  exact ⟨hlead, hlead'⟩

theorem leadsTo_skip {c : Char} (hc : c ≠ '\x7d') (cs : List Char) : LeadsTo cs (skip c cs) := by
  cases cs with
  | nil => exact ⟨[], rfl, List.not_mem_nil⟩
  | cons d cs =>
    by_cases hd : d = c
    · rw [skip, if_pos hd]
      exact ⟨[d], rfl, by simpa [hd] using hc.symm⟩
    · rw [skip, if_neg hd]
      exact ⟨[], rfl, List.not_mem_nil⟩

theorem leadsTo_dropWhile {p : Char → Bool} (hp : p '\x7d' = false) (cs : List Char) :
    LeadsTo cs (cs.dropWhile p) := by
  refine ⟨cs.takeWhile p, (List.takeWhile_append_dropWhile ..).symm, fun hmem => ?_⟩
  exact ne_of_class (List.mem_takeWhile_imp hmem) hp rfl

theorem closing_of_closing? (h : closing? cs = some rest) :
    ∃ closing, cs = closing ++ rest ∧
      (closing = ['\x7d', '\x7d'] ∨ closing = ['\x7d', '\x7d', '\x7d']) := by
  rw [closing?] at h
  split at h
  · rename_i tail htail
    cases h
    exact ⟨_, Text.after?_eq_some_iff.1 htail, .inr rfl⟩
  · exact ⟨_, Text.after?_eq_some_iff.1 h, .inl rfl⟩

/-- **A placeholder ends at the first closing braces** after its start. -/
theorem exists_closing_of_read? (h : read? cs = some (letters, rest)) :
    ∃ lead closing, cs = lead ++ (closing ++ rest) ∧ '\x7d' ∉ lead ∧ lead ≠ [] ∧
      (closing = ['\x7d', '\x7d'] ∨ closing = ['\x7d', '\x7d', '\x7d']) := by
  rw [read?] at h
  obtain ⟨body, hbody, h⟩ := Option.bind_eq_some_iff.1 h
  simp only at h
  split at h
  · cases h
  · obtain ⟨tail, hclosing, h⟩ := Option.bind_eq_some_iff.1 h
    cases h
    obtain ⟨closing, htail, hbraces⟩ := closing_of_closing? hclosing
    have hopening : '\x7b' ≠ '\x7d' := by decide
    have hampersand : '&' ≠ '\x7d' := by decide
    have hblank : Text.isBlank '\x7d' = false := rfl
    have hname : isNameChar '\x7d' = false := rfl
    have hleads : LeadsTo body _ :=
      (leadsTo_skip hopening _).trans <| (leadsTo_dropWhile hblank _).trans <|
        (leadsTo_skip hampersand _).trans <| (leadsTo_dropWhile hblank _).trans <|
        (leadsTo_dropWhile hname _).trans (leadsTo_dropWhile hblank _)
    obtain ⟨lead, hlead, hnot⟩ := hleads
    refine ⟨['\x7b', '\x7b'] ++ lead, closing, ?_, ?_, by simp, hbraces⟩
    · rw [Text.after?_eq_some_iff.1 hbody, List.append_assoc, ← htail]
      exact congrArg _ hlead
    · simpa using hnot

/-- The names after two closing braces stay the same when up to three braces are taken off. -/
theorem names_of_braces {taken rest' : List Char}
    (h : '\x7d' :: '\x7d' :: rest = taken ++ rest')
    (htaken : taken <:+ ['\x7d', '\x7d', '\x7d']) : names rest' = names rest := by
  have hcases : taken ∈ ['\x7d', '\x7d', '\x7d'].tails := (List.mem_tails _ _).2 htaken
  simp only [List.tails, List.mem_cons, List.not_mem_nil, or_false] at hcases
  rcases hcases with rfl | rfl | rfl | rfl
  · obtain rfl : rest = '\x7d' :: rest' := by simpa using h
    exact (names_closingBrace rest').symm
  · obtain rfl : rest = rest' := by simpa using h
    rfl
  · obtain rfl : '\x7d' :: rest = rest' := by simpa using h
    exact names_closingBrace rest
  · obtain rfl : '\x7d' :: '\x7d' :: rest = rest' := by simpa using h
    rw [names_closingBrace, names_closingBrace]

/-- **The scan never runs past closing braces**, except for one more brace: what follows them is
scanned as it is alone. -/
theorem names_append_closing (rest : List Char) : ∀ cs : List Char,
    ∃ found, names (cs ++ '\x7d' :: '\x7d' :: rest) = found ++ names rest
  | [] => ⟨[], by rw [List.nil_append, names_closingBrace, names_closingBrace, List.nil_append]⟩
  | c :: cs => by
    cases hread : read? (c :: cs ++ '\x7d' :: '\x7d' :: rest) with
    | none =>
      obtain ⟨found, hfound⟩ := names_append_closing rest cs
      exact ⟨found, (names_of_unread hread).trans hfound⟩
    | some p =>
      obtain ⟨letters, rest'⟩ := p
      obtain ⟨lead, closing, heq, hnot, hne, hclosing⟩ := exists_closing_of_read? hread
      have hbraces : closing <:+ ['\x7d', '\x7d', '\x7d'] := by
        rcases hclosing with rfl | rfl <;> decide
      -- The braces of the placeholder are those at the end, or come before them.
      have hrest : ∃ found, names rest' = found ++ names rest := by
        rcases List.append_eq_append_iff.1 heq with ⟨a, rfl, ha⟩ | ⟨a, hsplit, ha⟩
        · cases a with
          | nil => exact ⟨[], names_of_braces ha hbraces⟩
          | cons d a =>
            obtain ⟨rfl, -⟩ := List.cons.inj ha
            exact absurd (List.mem_append_right _ List.mem_cons_self) hnot
        · rcases List.append_eq_append_iff.1 ha with ⟨b, rfl, rfl⟩ | ⟨b, rfl, hb⟩
          · have hshorter : b.length < cs.length + 1 := by
              have hlength := congrArg List.length hsplit
              have hpos := List.length_pos_iff.2 hne
              simp only [List.length_cons, List.length_append] at hlength
              omega
            exact names_append_closing rest b
          · exact ⟨[], names_of_braces hb ((List.suffix_append a b).trans hbraces)⟩
      obtain ⟨found, hfound⟩ := hrest
      exact ⟨letters :: found, by rw [names_of_read? hread, hfound, List.cons_append]⟩
termination_by cs => cs.length

end Placeholder

end Template

end LoadTest

import LoadTest.Template.Context
import LoadTest.Template.Tag
import LoadTest.Proofs.Text.Search
import Mathlib.Data.List.TakeWhile
/-!
# Variable templates

A **variable template** is a run of literal pieces and variable tags.  A literal piece neither holds
the opening delimiter nor ends in half of it, so that the tags of a template are the ones written in
it; a name is a word, so that it has no points to follow and is the content of its tag as it is.

* `Piece`, `template`: the pieces and the text they make.
* `filled`, `missing`: what such a template says it is rendered to, and the names it misses, read
  off the pieces alone.
* `Literal.passes`: the search for an opening delimiter passes over a literal piece.
-/

namespace LoadTest

namespace Template

/-! ## Literal pieces -/

/-- A text without an opening delimiter that does not end in half of one. -/
structure Literal where
  text : List Char
  noOpening : ¬ ['\x7b', '\x7b'] <:+: text
  noHalfOpening : text.getLast? ≠ some '\x7b'

/-- No opening delimiter starts in a literal piece, not even one that what follows completes. -/
theorem Literal.passes (l : Literal) : Text.Passes ['\x7b', '\x7b'] l.text := by
  intro c tail rest hsuffix
  by_contra hsome
  obtain ⟨r, hr⟩ := Option.ne_none_iff_exists'.1 hsome
  have hcs := Text.after?_eq_some_iff.1 hr
  cases tail with
  | nil =>
    obtain ⟨before, hbefore⟩ := hsuffix
    obtain ⟨rfl, -⟩ : c = '\x7b' ∧ rest = '\x7b' :: r := by simpa using hcs
    exact l.noHalfOpening (by rw [← hbefore, List.getLast?_concat])
  | cons d tail =>
    obtain ⟨rfl, rfl, -⟩ : c = '\x7b' ∧ d = '\x7b' ∧ tail ++ rest = r := by simpa using hcs
    exact l.noOpening ((List.prefix_append ['\x7b', '\x7b'] tail).isInfix.trans hsuffix.isInfix)

/-! ## Variable tags -/

/-- Blanks, or nothing. -/
structure Blanks where
  text : List Char
  blank : ∀ c ∈ text, Text.isBlank c = true

/-- The characters of words. -/
def isWordChar (c : Char) : Bool := c.isAlphanum || c == '_'

/-- A name that is a word.  `hasOwnProperty` is left out: it is what the lookup of a name itself
asks for, so a value of that name would get in its way. -/
structure Word where
  text : List Char
  ne_nil : text ≠ []
  wordChars : ∀ c ∈ text, isWordChar c = true
  ne_hasOwnProperty : text ≠ "hasOwnProperty".toList

/-- The name that the word is. -/
def Word.name (w : Word) : String := String.ofList w.text

/-- The ways to write a variable tag: two braces, three braces, or an ampersand after two. -/
inductive Form
  | plain
  | braces
  | ampersand

/-- What stands between the opening delimiter and the blanks before the name. -/
def Form.mark : Form → List Char
  | plain => []
  | braces => ['\x7b']
  | ampersand => ['&']

/-- What stands after the name and its blanks. -/
def Form.closing : Form → List Char
  | plain => ['\x7d', '\x7d']
  | braces => ['\x7d', '\x7d', '\x7d']
  | ampersand => ['\x7d', '\x7d']

/-- Whatever the form, a closing brace comes first. -/
theorem Form.closing_eq : ∀ f : Form, ∃ braces, f.closing = '\x7d' :: braces
  | plain => ⟨_, rfl⟩
  | braces => ⟨_, rfl⟩
  | ampersand => ⟨_, rfl⟩

/-- A variable tag: a word in one of the forms, with blanks before it and after it. -/
structure Variable where
  form : Form
  before : Blanks
  word : Word
  after : Blanks

namespace Variable

/-- The text of a tag after the opening delimiter. -/
def body (v : Variable) : List Char :=
  v.form.mark ++ (v.before.text ++ (v.word.text ++ (v.after.text ++ v.form.closing)))

/-- The text of a tag. -/
def text (v : Variable) : List Char := ['\x7b', '\x7b'] ++ v.body

/-- The value that a context has for the name of a tag. -/
def value? (context : Context) (v : Variable) : Option Scalar := context.lookup v.word.name

end Variable

/-! ## Templates -/

/-- The text of a value. -/
def Scalar.toText : Scalar → List Char
  | .text s => s.toList
  | .number x => x.toText
  | .flag b => (if b then "true" else "false").toList
  | .nothing => []

/-- A part of a variable template. -/
inductive Piece
  | literal (l : Literal)
  | tag (v : Variable)

namespace Piece

/-- The text of a piece. -/
def text : Piece → List Char
  | literal l => l.text
  | tag v => v.text

/-- What a piece becomes in a context: a literal piece stays, and a tag becomes the text of its
value, or nothing without one. -/
def filled (context : Context) : Piece → List Char
  | literal l => l.text
  | tag v => match v.value? context with
    | none => []
    | some value => value.toText

/-- The name of a tag. -/
def name? : Piece → Option String
  | literal _ => none
  | tag v => some v.word.name

/-- The name of a tag that the context has no value for. -/
def missing? (context : Context) : Piece → Option String
  | literal _ => none
  | tag v => match v.value? context with
    | none => some v.word.name
    | some _ => none

end Piece

/-- The characters of pieces. -/
def textOf (pieces : List Piece) : List Char := pieces.flatMap Piece.text

/-- The template that pieces make. -/
def template (pieces : List Piece) : String := String.ofList (textOf pieces)

/-- What pieces become in a context. -/
def filled (context : Context) (pieces : List Piece) : String :=
  String.ofList (pieces.flatMap (Piece.filled context))

/-- The names that were replaced by nothing because the context lacks them, in order. -/
def missing (context : Context) (pieces : List Piece) : List String :=
  pieces.filterMap (Piece.missing? context)

@[simp] theorem textOf_nil : textOf [] = [] := rfl

@[simp] theorem textOf_cons (p : Piece) (pieces : List Piece) :
    textOf (p :: pieces) = p.text ++ textOf pieces := rfl

@[simp] theorem toList_template (pieces : List Piece) :
    (template pieces).toList = textOf pieces := String.toList_ofList

/-! ## The characters of words and blanks -/

section Characters

variable {c d : Char}

/-- Characters are different if one is of a class and the other is not. -/
theorem ne_of_class {p : Char → Bool} (hc : p c = true) (hd : p d = false) : c ≠ d := by
  rintro rfl
  rw [hc] at hd
  cases hd

theorem toNat_of_isWordChar (h : isWordChar c = true) : 48 ≤ c.toNat ∧ c.toNat ≤ 122 := by
  have hclass : (c.isUpper || c.isLower || c.isDigit || c == '_') = true := h
  simp only [Bool.or_eq_true, beq_iff_eq] at hclass
  rcases hclass with ((hupper | hlower) | hdigit) | rfl
  · obtain ⟨hlow, hhigh⟩ := of_decide_eq_true hupper
    exact ⟨le_trans (by decide) hlow, le_trans hhigh (by decide)⟩
  · obtain ⟨hlow, hhigh⟩ := Bool.and_eq_true_iff.1 hlower
    exact ⟨le_trans (by decide) (of_decide_eq_true hlow),
      le_trans (of_decide_eq_true hhigh) (by decide)⟩
  · obtain ⟨hlow, hhigh⟩ := Char.isDigit_iff_toNat.1 hdigit
    exact ⟨le_trans (by decide) hlow, le_trans hhigh (by decide)⟩
  · decide

theorem isBlank_of_isWordChar (h : isWordChar c = true) : Text.isBlank c = false := by
  have hc := toNat_of_isWordChar h
  simp only [Text.isBlank, Bool.or_eq_false_iff, Bool.and_eq_false_iff, decide_eq_false_iff_not,
    beq_eq_false_iff_ne]
  omega

theorem isKind_of_isWordChar (h : isWordChar c = true) : Tag.isKind c = false := by
  have hkinds : ("#^/>\x7b&=!".toList.all fun d => !isWordChar d) = true := by decide
  rw [Tag.isKind, Bool.eq_false_iff]
  intro hkind
  have hc := List.all_eq_true.1 hkinds c (List.contains_iff_mem.1 hkind)
  rw [h] at hc
  cases hc

end Characters

theorem trimStart_of_not_isBlank {c : Char} (h : Text.isBlank c = false) (cs : List Char) :
    Text.trimStart (c :: cs) = c :: cs :=
  List.dropWhile_cons_of_neg (by simp [h])

/-- What follows blanks and does not start with one is what is left without them. -/
theorem Blanks.dropWhile_append (b : Blanks) {c : Char} (hc : Text.isBlank c = false)
    (cs : List Char) : (b.text ++ c :: cs).dropWhile Text.isBlank = c :: cs := by
  rw [List.dropWhile_append_of_pos b.blank, List.dropWhile_cons_of_neg (by simp [hc])]

theorem Blanks.takeWhile_append (b : Blanks) {c : Char} (hc : Text.isBlank c = false)
    (cs : List Char) : (b.text ++ c :: cs).takeWhile Text.isBlank = b.text := by
  rw [List.takeWhile_append_of_pos b.blank, List.takeWhile_cons_of_neg (by simp [hc]),
    List.append_nil]

/-- Blanks and what follows them start with a blank or with what follows. -/
theorem Blanks.head_eq (b : Blanks) {c d : Char} {cs tail : List Char}
    (h : b.text ++ c :: cs = d :: tail) : Text.isBlank d = true ∨ d = c := by
  cases htext : b.text with
  | nil =>
    rw [htext] at h
    exact .inr (List.cons.inj h).1.symm
  | cons e es =>
    rw [htext] at h
    obtain ⟨rfl, -⟩ := List.cons.inj h
    exact .inl (b.blank e (htext ▸ List.mem_cons_self))

/-- A word starts with one of its characters. -/
theorem Word.exists_cons (w : Word) : ∃ c cs, w.text = c :: cs ∧ isWordChar c = true := by
  cases htext : w.text with
  | nil => exact absurd htext w.ne_nil
  | cons c cs => exact ⟨c, cs, rfl, w.wordChars c (by rw [htext]; exact List.mem_cons_self)⟩

/-- No closing brace is in a word or in the blanks after it. -/
theorem Variable.notMem_closing (v : Variable) : '\x7d' ∉ v.word.text ++ v.after.text := by
  intro hmem
  rcases List.mem_append.1 hmem with hword | hblank
  · exact ne_of_class (v.word.wordChars _ hword) (by decide) rfl
  · exact ne_of_class (v.after.blank _ hblank) (by decide) rfl

end Template

end LoadTest

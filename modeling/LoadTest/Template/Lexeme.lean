import LoadTest.Template.Error
import LoadTest.Template.Tag
import LoadTest.Text.Units
/-!
# Lexemes

A template is a run of characters and tags.  A line that holds tags and blanks but writes nothing
**stands alone**: its blanks go, its line feed among them.
-/

namespace LoadTest

namespace Template

/-- A character of a template, or a tag and the offset at which it starts. -/
inductive Lexeme
  | char (c : Char)
  | tag (t : Tag) (offset : Nat)
  deriving DecidableEq

namespace Lexeme

/-! ## Cutting a template -/

/-- The lexemes of the rest of a template after those in `done`, which come last first, and what is
wrong with the tag they stop at, if they do not reach the end. -/
def cut (d : Delimiters) (offset : Nat) (done : List Lexeme) (cs : List Char) :
    List Lexeme × Option Error :=
  match _h : Text.splitFirst? d.opening cs with
  | none => ((cs.map char).reverse ++ done |>.reverse, none)
  | some (before, body) =>
    let start := offset + Text.units before
    let done := (before.map char).reverse ++ done
    match _ht : Tag.read? d body with
    | none => (done.reverse, some (.unclosedTag (offset + Text.units cs)))
    | some (t, text, rest) =>
      let done := tag t start :: done
      let next := start + Text.units d.opening + Text.units text
      match t with
      | .delimiters text =>
        match Delimiters.ofText? text.toList with
        | none => (done.reverse, some (.badDelimiters text))
        | some d' => cut d' next done rest
      | _ => cut d next done rest
termination_by cs.length
decreasing_by
  all_goals
    have hs := Text.length_of_splitFirst? _h
    have ht := Tag.length_of_read? _ht
    have hd := List.length_pos_iff.2 d.opening_ne_nil
    omega

/-- The lexemes of a template up to the first tag that cannot be read. -/
def ofText (cs : List Char) : List Lexeme × Option Error := cut .standard 0 [] cs

/-! ## Lines that stand alone -/

/-- A blank character. -/
def isBlank : Lexeme → Bool
  | char c => Text.isBlank c
  | tag .. => false

/-- A tag. -/
def isTag : Lexeme → Bool
  | char _ => false
  | tag .. => true

/-- A character that is not blank, or a tag that writes a value. -/
def isVisible : Lexeme → Bool
  | char c => !Text.isBlank c
  | tag (.value _) _ => true
  | tag .. => false

/-- A line with tags and without anything visible. -/
def standsAlone (line : List Lexeme) : Bool := line.any isTag && !line.any isVisible

/-- What stays of a line. -/
def settle (line : List Lexeme) : List Lexeme :=
  if standsAlone line then line.filter fun l => !l.isBlank else line

/-- A line that holds text and no tags. -/
def isIndent (line : List Lexeme) : Bool := !line.isEmpty && !line.any isTag

/-- A lexeme after what its line holds so far, which may indent a part. -/
def after (line : List Lexeme) : Lexeme → Lexeme
  | tag (.part name _) offset => tag (.part name (isIndent line)) offset
  | l => l

/-- What stays of the lines of a template.  `done` holds what stays of the lines before and `line`
the line under way, both last first. -/
def settleFrom (done line : List Lexeme) : List Lexeme → List Lexeme
  | [] => (settle line ++ done).reverse
  | l :: ls =>
    if l = char '\n' then settleFrom (settle (l :: line) ++ done) [] ls
    else settleFrom done (l.after line :: line) ls

/-- What stays of the lines of a template, which end at line feeds outside tags. -/
def settleLines (ls : List Lexeme) : List Lexeme := settleFrom [] [] ls

end Lexeme

end Template

end LoadTest

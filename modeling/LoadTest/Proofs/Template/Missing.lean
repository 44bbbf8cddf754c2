import LoadTest.Proofs.Template.Filling
import LoadTest.Proofs.Template.Scan
/-!
# The scan of a variable template

The scan for placeholders reads a template on its own, and less of it than rendering does.  On a
variable template the two cut at the same places: the scan starts nothing in a literal piece and
finds each tag whole, but for a third closing brace that belongs to the literal piece which follows.

* `names_textOf`: the scan finds the names of the tags.
* `unresolved_template`: the names it reports are those that rendering replaced by nothing.
-/

namespace LoadTest

namespace Template

namespace Placeholder

/-- A variable tag is one of those that the scan looks for. -/
def ofVariable (v : Variable) : Common :=
  { form := v.form, lead := .empty, before := v.before, letters := v.word.text
    after := v.after, ne_nil := v.word.ne_nil
    nameChars := fun c hc => isNameChar_of_isWordChar (v.word.wordChars c hc)
    lead_eq_nil := fun _ => rfl }

theorem names_tag (v : Variable) (rest : List Char) :
    names (v.text ++ rest) = v.word.text :: names rest :=
  names_text (ofVariable v) rest

/-! ## Templates -/

/-- **The scan finds the names of the tags**, in order. -/
theorem names_textOf (pieces : List Piece) :
    (names (textOf pieces)).map String.ofList = pieces.filterMap Piece.name? := by
  induction pieces with
  | nil => simp [names]
  | cons p pieces ih =>
    rw [textOf_cons]
    cases p with
    | literal l =>
      rw [Piece.text, names_of_passes l.passes, ih]
      rfl
    | tag v =>
      rw [Piece.text, names_tag, List.map_cons, ih]
      rfl

end Placeholder

/-- The names that a context lacks are those of the tags that became nothing for lack of a value. -/
theorem filter_name? (context : Context) (pieces : List Piece) :
    (pieces.filterMap Piece.name?).filter (fun name => (context.lookup name).isNone)
      = missing context pieces := by
  rw [missing, List.filter_filterMap]
  congr 1
  funext p
  cases p with
  | literal l => rfl
  | tag v =>
    rw [Piece.missing?, Variable.value?, Piece.name?, Option.filter_some]
    cases context.lookup v.word.name <;> rfl

/-- **The scan reports what rendering leaves empty**: each name once, where it first appears. -/
theorem unresolved_template (context : Context) (pieces : List Piece) :
    unresolved (template pieces) context = (missing context pieces).eraseDups := by
  rw [unresolved, toList_template, Placeholder.names_textOf, filter_name?]

/-- **Rendering and the scan agree on variable templates.**  In every context each tag is rendered
to the text of the value of its own name, as it is, or to nothing if the context lacks the name;
each literal piece is rendered to itself; and the scan reports the names of the tags that became
nothing for lack of a value, each once, in the order in which they first appear. -/
theorem rendering_agrees (context : Context) (pieces : List Piece) :
    render (template pieces) context = .ok (filled context pieces) ∧
      unresolved (template pieces) context = (missing context pieces).eraseDups :=
  ⟨render_template context pieces, unresolved_template context pieces⟩

end Template

end LoadTest

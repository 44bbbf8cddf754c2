import LoadTest.Template.Context
import LoadTest.Text.Blank
import LoadTest.Text.Search
/-!
# Placeholders

A quick scan for variable tags of the common forms, two braces, three braces, or two braces and an
ampersand, around a name of letters, digits, underscores and points.  The scan looks at the bare
text: it knows no sections, comments or other delimiters.
-/

namespace LoadTest

namespace Template

namespace Placeholder

/-- The characters of the names that the scan finds. -/
def isNameChar (c : Char) : Bool := c.isAlphanum || c == '_' || c == '.'

/-- What follows an optional character. -/
def skip (c : Char) : List Char → List Char
  | [] => []
  | d :: cs => if d = c then cs else d :: cs

/-- What follows the closing braces, of which a third is taken if it is there. -/
def closing? (cs : List Char) : Option (List Char) :=
  match Text.after? ['\x7d', '\x7d', '\x7d'] cs with
  | some rest => some rest
  | none => Text.after? ['\x7d', '\x7d'] cs

/-- The name of a placeholder at the start of a text, and what follows the placeholder. -/
def read? (cs : List Char) : Option (List Char × List Char) := do
  let body ← Text.after? ['\x7b', '\x7b'] cs
  let body := Text.trimStart (skip '&' (Text.trimStart (skip '\x7b' body)))
  let name := body.takeWhile isNameChar
  if name = [] then none
  else
    let rest ← closing? (Text.trimStart (body.dropWhile isNameChar))
    return (name, rest)

theorem length_skip_le (c : Char) (cs : List Char) : (skip c cs).length ≤ cs.length := by
  cases cs with
  | nil => simp [skip]
  | cons d ds =>
    simp only [skip]
    split <;> simp

theorem length_dropWhile_le (p : Char → Bool) (cs : List Char) :
    (cs.dropWhile p).length ≤ cs.length :=
  (List.dropWhile_sublist _).length_le

theorem length_of_closing? {cs rest : List Char} (h : closing? cs = some rest) :
    rest.length ≤ cs.length := by
  unfold closing? at h
  split at h
  · rename_i r hr
    simp only [Option.some.injEq] at h
    subst h
    rw [Text.after?_eq_some_iff.1 hr]
    simp only [List.length_append]
    omega
  · rw [Text.after?_eq_some_iff.1 h]
    simp only [List.length_append]
    omega

/-- A placeholder takes up part of the text. -/
theorem length_of_read? {cs name rest : List Char} (h : read? cs = some (name, rest)) :
    rest.length < cs.length := by
  unfold read? at h
  simp only [bind, Option.bind_eq_some_iff] at h
  obtain ⟨body, hb, h⟩ := h
  have hcs := Text.after?_eq_some_iff.1 hb
  split at h
  · simp at h
  · simp only [Option.bind_eq_some_iff, pure, Option.some.injEq, Prod.mk.injEq] at h
    obtain ⟨r, hr, -, rfl⟩ := h
    have h1 := length_of_closing? hr
    have h2 : body.length + 2 = cs.length := by
      rw [hcs]
      simp
    have h3 := length_skip_le '\x7b' body
    unfold Text.trimStart at h1
    have h4 := length_dropWhile_le Text.isBlank (skip '\x7b' body)
    have h5 := length_skip_le '&' ((skip '\x7b' body).dropWhile Text.isBlank)
    have h6 := length_dropWhile_le Text.isBlank
      (skip '&' ((skip '\x7b' body).dropWhile Text.isBlank))
    have h7 := length_dropWhile_le isNameChar
      ((skip '&' ((skip '\x7b' body).dropWhile Text.isBlank)).dropWhile Text.isBlank)
    have h8 := length_dropWhile_le Text.isBlank
      (((skip '&' ((skip '\x7b' body).dropWhile Text.isBlank)).dropWhile
        Text.isBlank).dropWhile isNameChar)
    omega

/-- The names of the placeholders of a text, in order, with repetitions. -/
def names (cs : List Char) : List (List Char) :=
  match cs with
  | [] => []
  | c :: cs =>
    match _h : read? (c :: cs) with
    | some (name, rest) => name :: names rest
    | none => names cs
termination_by cs.length
decreasing_by
  · exact length_of_read? _h
  · simp

end Placeholder

/-- The names of placeholders that the context does not hold, each once, in order of first
appearance.  A name with points in it is one name here. -/
def unresolved (template : String) (context : Context) : List String :=
  (((Placeholder.names template.toList).map String.ofList).filter fun name =>
    (context.lookup name).isNone).eraseDups

end Template

end LoadTest

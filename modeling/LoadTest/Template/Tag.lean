import LoadTest.Text.Blank
import LoadTest.Text.Search
/-!
# Tags

A tag stands between two delimiters, which are two braces each unless a tag sets others.  Its first
character may say what kind of tag it is, and blanks around the content do not count.
`eq_of_read?` says that nothing of the text is lost by reading a tag from it.
-/

namespace LoadTest

namespace Template

/-! ## Delimiters -/

/-- The delimiters of tags. -/
structure Delimiters where
  opening : List Char
  closing : List Char
  opening_ne_nil : opening ≠ []

namespace Delimiters

/-- Two braces on each side. -/
def standard : Delimiters :=
  { opening := ['\x7b', '\x7b'], closing := ['\x7d', '\x7d'], opening_ne_nil := by simp }

/-- The first two words of a text as delimiters. -/
def ofText? (cs : List Char) : Option Delimiters :=
  let isWord := fun c => !Text.isBlank c
  let opening := cs.takeWhile isWord
  let closing := (Text.trimStart (cs.dropWhile isWord)).takeWhile isWord
  if h : opening ≠ [] ∧ closing ≠ [] then
    some { opening := opening, closing := closing, opening_ne_nil := h.1 }
  else none

end Delimiters

/-! ## Tags -/

/-- The meaning of a tag. -/
inductive Tag
  /-- The value of a name is written. -/
  | value (name : String)
  /-- A section begins. -/
  | opens (inverted : Bool) (name : String)
  /-- A section ends. -/
  | closes (name : String)
  /-- Other delimiters hold from here on. -/
  | delimiters (text : String)
  /-- The text of a part is written.  The part is indented if text, and no other tag, stands before
  the tag in its line; a tag by itself is not. -/
  | part (name : String) (indented : Bool)
  /-- A comment. -/
  | silent
  deriving DecidableEq

namespace Tag

/-- The characters that say of what kind a tag is. -/
def isKind (c : Char) : Bool := "#^/>\x7b&=!".toList.contains c

/-- The kind of a tag, if it has one, after the text that leads to its content, and the rest with
the content at its start, where the text after the opening delimiter is given.  Blanks before the
kind and after it lead to the content. -/
def split (cs : List Char) : List Char × Option Char × List Char :=
  let blanks := cs.takeWhile Text.isBlank
  match cs.dropWhile Text.isBlank with
  | [] => (blanks, none, [])
  | c :: rest =>
    if isKind c then
      (blanks ++ c :: rest.takeWhile Text.isBlank, some c, rest.dropWhile Text.isBlank)
    else (blanks, none, c :: rest)

/-- The content of a tag up to an end mark, without the blanks at its end, the text up to the end of
the mark, and what follows the mark. -/
def content? (mark cs : List Char) : Option (String × List Char × List Char) :=
  (Text.splitFirst? mark cs).map fun (body, rest) =>
    (String.ofList (Text.trimEnd body), body ++ mark, rest)

/-- The tag of a kind and a content that is no text in braces and sets no delimiters. -/
def ofKind (kind : Option Char) (content : String) : Tag :=
  if kind = some '#' then opens false content
  else if kind = some '^' then opens true content
  else if kind = some '/' then closes content
  else if kind = some '>' then part content false
  else if kind = some '!' then silent
  else value content

/-- Reads a tag after its opening delimiter, and gives its text from there on and what follows its
closing delimiter.  A content in braces ends at a brace and the closing delimiter, and one that sets
delimiters at an equals sign; what comes between that sign and the closing delimiter does not
count. -/
def read? (d : Delimiters) (cs : List Char) : Option (Tag × List Char × List Char) :=
  let (lead, kind, body) := split cs
  if kind = some '=' then do
    let (content, text, rest) ← content? ['='] body
    let (dropped, rest) ← Text.splitFirst? d.closing rest
    return (delimiters content, lead ++ (text ++ (dropped ++ d.closing)), rest)
  else if kind = some '\x7b' then do
    let (content, text, rest) ← content? ('\x7d' :: d.closing) body
    return (value content, lead ++ text, rest)
  else do
    let (content, text, rest) ← content? d.closing body
    return (ofKind kind content, lead ++ text, rest)

/-! ## Nothing is lost -/

theorem eq_of_split (cs : List Char) : cs = (split cs).1 ++ (split cs).2.2 := by
  have h := (List.takeWhile_append_dropWhile (p := Text.isBlank) (l := cs)).symm
  unfold split
  split
  · rename_i heq
    rw [heq] at h
    simpa using h
  · rename_i c rest heq
    rw [heq] at h
    split
    · simpa using h
    · simpa using h

theorem eq_of_content? {mark cs text rest : List Char} {content : String}
    (h : content? mark cs = some (content, text, rest)) : cs = text ++ rest := by
  unfold content? at h
  simp only [Option.map_eq_some_iff, Prod.mk.injEq, Prod.exists] at h
  obtain ⟨body, rest', hs, -, rfl, rfl⟩ := h
  simpa using Text.eq_of_splitFirst? hs

/-- The text of a tag and what follows it are all there is. -/
theorem eq_of_read? {d : Delimiters} {cs text rest : List Char} {t : Tag}
    (h : read? d cs = some (t, text, rest)) : cs = text ++ rest := by
  have hcs := eq_of_split cs
  unfold read? at h
  simp only [bind, pure] at h
  split at h
  · obtain ⟨⟨content, text1, rest1⟩, h1, h⟩ := Option.bind_eq_some_iff.1 h
    obtain ⟨⟨dropped, rest2⟩, h2, h⟩ := Option.bind_eq_some_iff.1 h
    simp only [Option.some.injEq, Prod.mk.injEq] at h
    obtain ⟨-, rfl, rfl⟩ := h
    have e1 := eq_of_content? h1
    have e2 : rest1 = _ := Text.eq_of_splitFirst? h2
    rw [e1, e2] at hcs
    simpa using hcs
  · split at h
    all_goals
      obtain ⟨⟨content, text1, rest1⟩, h1, h⟩ := Option.bind_eq_some_iff.1 h
      simp only [Option.some.injEq, Prod.mk.injEq] at h
      obtain ⟨-, rfl, rfl⟩ := h
      rw [eq_of_content? h1] at hcs
      simpa using hcs

theorem length_of_read? {d : Delimiters} {cs text rest : List Char} {t : Tag}
    (h : read? d cs = some (t, text, rest)) : rest.length ≤ cs.length := by
  rw [eq_of_read? h]
  simp

end Tag

end Template

end LoadTest

import LoadTest.Failure
/-!
# Template errors

What can be wrong with a template.  Offsets are counted in units of sixteen bits.
-/

namespace LoadTest

namespace Template

/-- What is wrong with a template. -/
inductive Error
  /-- A tag has no end. -/
  | unclosedTag (offset : Nat)
  /-- A tag that sets the delimiters names fewer than two. -/
  | badDelimiters (text : String)
  /-- A section is closed that was never opened. -/
  | unopenedSection (name : String) (offset : Nat)
  /-- The innermost open section is not closed there. -/
  | unclosedSection (name : String) (offset : Nat)
  /-- The context as a whole has no text. -/
  | wholeContext
  /-- The check of the names that were looked up is hidden by one of them. -/
  | hiddenCheck
  /-- A built-in member takes the place of a part and has no text. -/
  | textlessPart (indented : Bool)
  deriving DecidableEq

namespace Error

/-- The wording of an error. -/
def message : Error → String
  | unclosedTag offset => "Unclosed tag at " ++ toString offset
  | badDelimiters text => "Invalid tags: " ++ text
  | unopenedSection name offset =>
    "Unopened section \"" ++ name ++ "\" at " ++ toString offset
  | unclosedSection name offset =>
    "Unclosed section \"" ++ name ++ "\" at " ++ toString offset
  | wholeContext => "Cannot convert object to primitive value"
  | hiddenCheck => "cache.hasOwnProperty is not a function"
  | textlessPart indented =>
    if indented then "partial.split is not a function" else "this.tail.search is not a function"

/-- The sort of an error.  What is wrong with the text of a template shows when it is parsed; the
other errors come from rendering it. -/
def sort : Error → FaultSort
  | unclosedTag _ => .general
  | badDelimiters _ => .general
  | unopenedSection _ _ => .general
  | unclosedSection _ _ => .general
  | wholeContext => .wrongType
  | hiddenCheck => .wrongType
  | textlessPart _ => .wrongType

/-- How an error is reported. -/
def toFailure (e : Error) : Failure := .fault { sort := e.sort, message := e.message }

end Error

end Template

end LoadTest

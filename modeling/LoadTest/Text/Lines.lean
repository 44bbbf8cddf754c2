/-!
# Lines

A line ends at a line feed, at a carriage return, or at a carriage return with a line feed right
after it, and nowhere else.  What follows the last end is a line if it is not empty.
-/

namespace LoadTest

namespace Lines

/-- The characters that end a line. -/
def isEnd (c : Char) : Bool := c == '\n' || c == '\r'

/-- Cuts into lines; `line` is the reverse of the line under way and `done` holds the lines before
it, last first. -/
def split (done : List (List Char)) (line : List Char) : List Char → List (List Char)
  | [] => if line = [] then done.reverse else (line.reverse :: done).reverse
  | '\r' :: '\n' :: cs => split (line.reverse :: done) [] cs
  | c :: cs =>
    if isEnd c then split (line.reverse :: done) [] cs
    else split done (c :: line) cs

/-- The lines of a text, without their ends. -/
def ofText (cs : List Char) : List (List Char) := split [] [] cs

/-- The first line of a text, if its end is there. -/
def first? (cs : List Char) : Option (List Char) :=
  if cs.any isEnd then some (cs.takeWhile fun c => !isEnd c) else none

end Lines

end LoadTest

import LoadTest.Text.Units
/-!
# Quoted text in messages

A text is shown between single quotes; one that holds single quotes but no double quotes stands
between double quotes, and one that holds both, but neither a grave accent nor the start of a
substitution, between grave accents.  Control characters, the backslash and the quote itself are
escaped.  A long text is shown line by line, each line quoted apart and a plus sign between them.
-/

namespace LoadTest

namespace Text

/-- Two hexadecimal digits in capitals. -/
def hexByte (n : Nat) : List Char :=
  [n / 16 % 16, n % 16].map fun d => Char.toUpper (Nat.digitChar d)

/-- A character between the given quotes. -/
def escapeChar (quote c : Char) : List Char :=
  let n := c.toNat
  if c = '\n' then ['\\', 'n']
  else if c = '\t' then ['\\', 't']
  else if c = '\r' then ['\\', 'r']
  else if n = 0x08 then ['\\', 'b']
  else if n = 0x0C then ['\\', 'f']
  else if n < 0x20 ∨ (0x7F ≤ n ∧ n ≤ 0x9F) then '\\' :: 'x' :: hexByte n
  else if c = '\\' then ['\\', '\\']
  else if c = quote ∧ quote = '\'' then ['\\', c]
  else [c]

/-- The opening of a substitution inside grave accents. -/
def substitution : List Char → Bool
  | '$' :: c :: cs => c = '\x7b' || substitution (c :: cs)
  | _ :: cs => substitution cs
  | [] => false

/-- The quote that a text is shown in. -/
def quoteFor (cs : List Char) : Char :=
  let grave := Char.ofNat 0x60
  if !cs.contains '\'' then '\''
  else if !cs.contains '"' then '"'
  else if !cs.contains grave && !substitution cs then grave
  else '\''

/-- The text between its quotes. -/
def quoted (cs : List Char) : List Char :=
  let q := quoteFor cs
  q :: (cs.flatMap (escapeChar q) ++ [q])

/-- The lines of a text, each with its line feed. -/
def linesOf : List Char → List (List Char)
  | [] => []
  | c :: cs =>
    if c = '\n' then [c] :: linesOf cs
    else
      match linesOf cs with
      | [] => [[c]]
      | line :: lines => (c :: line) :: lines

/-- The most units that are shown in one piece. -/
def maxPiece : Nat := 76

/-- The most units that are looked at, which is more than a message ever shows. -/
def maxShown : Nat := 10000

/-- The text as a message shows it: in one piece, or line by line if it is long. -/
def inspected (cs : List Char) : List Char :=
  let cs := if maxShown < units cs then join ((fragments cs).take maxShown) else cs
  if maxPiece < units cs then " +\n  ".toList.intercalate ((linesOf cs).map quoted) else quoted cs

/-- The leading characters of at most `limit` units, and an ellipsis if that is not all. -/
def abbreviated (limit : Nat) (cs : List Char) : List Char :=
  if units cs ≤ limit then cs else join ((fragments cs).take limit) ++ ['.', '.', '.']

end Text

end LoadTest

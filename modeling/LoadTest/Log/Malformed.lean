import LoadTest.Failure
import LoadTest.Text.Units
/-!
# Malformed lines

What can be wrong with a line of a log that is read back, and how that is reported.  A character
that cannot stand where it does is shown among its neighbours; anything else is reported with its
place, which is counted in units of sixteen bits.
-/

namespace LoadTest

/-- What is wrong with a line. -/
inductive Malformation
  /-- The line ends early, or a character stands where none of its kind can. -/
  | unexpected
  /-- A record begins with neither a name nor its end. -/
  | noFirstName
  /-- A comma in a record is not followed by a name. -/
  | noName
  | noColon
  /-- A field is followed by neither a further field nor the end of its record. -/
  | openRecord
  /-- An item is followed by neither a further item nor the end of its list. -/
  | openList
  | openText
  | controlCharacter
  | badUnit
  | badEscape
  /-- A minus sign without digits. -/
  | noDigits
  /-- A point without digits. -/
  | noFraction
  /-- The mark of an exponent without digits. -/
  | noExponent
  /-- The line goes on after its value. -/
  | furtherText
  deriving DecidableEq

/-- The wording of a malformation that is reported with its place. -/
def Malformation.label : Malformation → String
  | unexpected => "Unexpected token in JSON"
  | noFirstName => "Expected property name or '\x7d' in JSON"
  | noName => "Expected double-quoted property name in JSON"
  | noColon => "Expected ':' after property name in JSON"
  | openRecord => "Expected ',' or '\x7d' after property value in JSON"
  | openList => "Expected ',' or ']' after array element in JSON"
  | openText => "Unterminated string in JSON"
  | controlCharacter => "Bad control character in string literal in JSON"
  | badUnit => "Bad Unicode escape in JSON"
  | badEscape => "Bad escaped character in JSON"
  | noDigits => "No number after minus sign in JSON"
  | noFraction => "Unterminated fractional number in JSON"
  | noExponent => "Exponent part is missing a number in JSON"
  | furtherText => "Unexpected non-whitespace character after JSON"

/-- Where reading a line stops: what is wrong, and the rest of the line. -/
structure Stop where
  problem : Malformation
  rest : List Char

namespace Stop

/-- A wording with the place of a stop.  Only a carriage return ends a line within a line. -/
def placed (line : List Char) (s : Stop) (label : String) : String :=
  let before := line.take (line.length - s.rest.length)
  let column := Text.units (before.reverse.takeWhile (· != '\r')) + 1
  label ++ " at position " ++ toString (Text.units before) ++ " (line "
    ++ toString (before.count '\r' + 1) ++ " column " ++ toString column ++ ")"

/-- How many units are shown on either side of an unexpected character. -/
def window : Nat := 10

/-- The units around a stop between quotes, with dots where more of the line follows.  A short line
is shown as a whole. -/
def surroundings (line : List Char) (s : Stop) : String :=
  let units := Text.fragments line
  let size := units.length
  let place := size - (Text.fragments s.rest).length
  if size ≤ 2 * window then "\"" ++ String.ofList line ++ "\""
  else
    let shown := Text.join ((units.take (place + window)).drop (place - window))
    (if window ≤ place then "..." else "") ++ "\"" ++ String.ofList shown ++ "\""
      ++ (if place + window < size then "..." else "")

/-- Lines that are reported as a whole. -/
def wholeLines : List String := ["[object Object]", "NaN", "Infinity", "undefined"]

/-- The report of an unexpected character, or of the end of the line. -/
def unexpectedMessage (line : List Char) (s : Stop) : String :=
  match s.rest with
  | [] => "Unexpected end of JSON input"
  | c :: _ =>
    if c.isDigit ∨ c = '-' then s.placed line "Unexpected number in JSON"
    else if c = '"' then s.placed line "Unexpected string in JSON"
    else if wholeLines.contains (String.ofList line) then
      "\"" ++ String.ofList line ++ "\" is not valid JSON"
    else
      let unit := String.ofList (Text.join ((Text.fragmentsOf c).take 1))
      "Unexpected token '" ++ unit ++ "', " ++ s.surroundings line ++ " is not valid JSON"

/-- How a stop is reported. -/
def toFault (line : List Char) (s : Stop) : Fault :=
  { sort := .malformed
    message :=
      if s.problem = .unexpected then s.unexpectedMessage line
      else s.placed line s.problem.label }

end Stop

end LoadTest

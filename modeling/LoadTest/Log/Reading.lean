import LoadTest.Log.Line
import LoadTest.Log.Malformed
/-!
# Reading log lines

The value that a line holds.  Reading goes from left to right and stops at the first character that
cannot go on the line.  Of two fields with one name the later counts.
-/

namespace LoadTest

namespace Value

/-- What was read and the rest of the line, or where reading stops. -/
abbrev Reading (α : Type) := Except Stop (α × List Char)

/-- Reading stops. -/
def halt {α : Type} (problem : Malformation) (rest : List Char) : Reading α :=
  .error ⟨problem, rest⟩

/-- The line without the gap at its start. -/
def skipGap (cs : List Char) : List Char := cs.dropWhile fun c => [' ', '\t', '\n', '\r'].contains c

/-! ## Words and numbers -/

/-- Reads the rest of a word that stands for a value. -/
def readWord (v : Value) : List Char → List Char → Reading Value
  | [], cs => .ok (v, cs)
  | _ :: _, [] => halt .unexpected []
  | c :: word, d :: rest => if c = d then readWord v word rest else halt .unexpected (d :: rest)

/-- The line after one or more digits. -/
def skipDigits (missing : Malformation) (cs : List Char) : Except Stop (List Char) :=
  match cs with
  | c :: rest =>
    if c.isDigit then .ok (rest.dropWhile Char.isDigit) else .error ⟨missing, c :: rest⟩
  | [] => .error ⟨missing, []⟩

/-- The line after the whole part of a number, which does not begin with a needless zero. -/
def skipWhole : List Char → Except Stop (List Char)
  | '0' :: c :: rest => if c.isDigit then .error ⟨.unexpected, c :: rest⟩ else .ok (c :: rest)
  | cs => skipDigits .noDigits cs

/-- The line after a point and digits, if there are any. -/
def skipFraction : List Char → Except Stop (List Char)
  | '.' :: rest => skipDigits .noFraction rest
  | cs => .ok cs

/-- The line without a sign at its start. -/
def skipSign : List Char → List Char
  | '+' :: rest => rest
  | '-' :: rest => rest
  | cs => cs

/-- The line after an exponent, if there is one. -/
def skipExponent : List Char → Except Stop (List Char)
  | 'e' :: rest => skipDigits .noExponent (skipSign rest)
  | 'E' :: rest => skipDigits .noExponent (skipSign rest)
  | cs => .ok cs

/-- The line after a number. -/
def skipNumber (cs : List Char) : Except Stop (List Char) := do
  let rest ← skipWhole (skipSign cs)
  let rest ← skipFraction rest
  skipExponent rest

/-- Reads a number. -/
def readNumber (cs : List Char) : Reading Value :=
  (skipNumber cs).map fun rest => (number (.ofText (cs.take (cs.length - rest.length))), rest)

/-! ## Texts -/

/-- The characters that a backslash and a letter stand for. -/
def escapes : List (Char × Char) :=
  [('"', '"'), ('\\', '\\'), ('/', '/'), ('b', '\x08'), ('f', '\x0c'), ('n', '\n'), ('r', '\r'),
    ('t', '\t')]

/-- The unit of a number of sixteen bits. -/
def unitOf (n : Nat) : Text.Fragment :=
  if 0xD800 ≤ n ∧ n < 0xDC00 then .high (n - 0xD800)
  else if 0xDC00 ≤ n ∧ n < 0xE000 then .low (n - 0xDC00)
  else .char (Char.ofNat n)

/-- The character is a hexadecimal digit. -/
def isHexDigit (c : Char) : Bool := (Binary64.digitValue? 16 c).isSome

/-- Reads a text after its first quote, onto the units in `done`, which come last first. -/
def readText (done : List Text.Fragment) : List Char → Reading String
  | [] => halt .openText []
  | '\\' :: 'u' :: a :: b :: c :: d :: rest =>
    match Binary64.based? 16 [a, b, c, d] with
    | some n => readText (unitOf n :: done) rest
    | none => halt .badUnit ([a, b, c, d].dropWhile isHexDigit ++ rest)
  | '\\' :: 'u' :: rest => halt .badUnit (rest.dropWhile isHexDigit)
  | '\\' :: c :: rest =>
    match escapes.lookup c with
    | some d => readText (.char d :: done) rest
    | none => halt (if c.toNat ≤ 0xFF then .badEscape else .openText) (c :: rest)
  | ['\\'] => halt .openText []
  | c :: rest =>
    if c = '"' then .ok (String.ofList (Text.join done.reverse), rest)
    else if c.toNat < 0x20 then halt .controlCharacter (c :: rest)
    else readText (.char c :: done) rest

/-! ## Values -/

/-- Puts a field before others, unless one of them has its name. -/
def withField (name : String) (v : Value) (fields : List (String × Value)) :
    List (String × Value) :=
  if (fields.lookup name).isSome then fields else (name, v) :: fields

/-- Reads the name of a field and the colon after it. -/
def readName (missing : Malformation) (cs : List Char) : Reading String :=
  match skipGap cs with
  | '"' :: rest =>
    match readText [] rest with
    | .error s => .error s
    | .ok (name, rest) =>
      match skipGap rest with
      | ':' :: rest => .ok (name, rest)
      | rest => halt .noColon rest
  | cs => halt missing cs

mutual

/-- Reads a value of at most so many parts. -/
def readValue (limit : Nat) (cs : List Char) : Reading Value :=
  match limit with
  | 0 => halt .unexpected cs
  | limit + 1 =>
    match skipGap cs with
    | [] => halt .unexpected []
    | 'n' :: rest => readWord null "ull".toList rest
    | 't' :: rest => readWord (bool true) "rue".toList rest
    | 'f' :: rest => readWord (bool false) "alse".toList rest
    | '"' :: rest => (readText [] rest).map fun (s, rest) => (text s, rest)
    | '[' :: rest =>
      match skipGap rest with
      | ']' :: rest => .ok (list [], rest)
      | rest => (readItems limit rest).map fun (items, rest) => (list items, rest)
    | '\x7b' :: rest =>
      match skipGap rest with
      | '\x7d' :: rest => .ok (record [], rest)
      | rest => (readMembers .noFirstName limit rest).map fun (fields, rest) =>
        (record fields, rest)
    | c :: rest =>
      if c.isDigit || c == '-' then readNumber (c :: rest) else halt .unexpected (c :: rest)

/-- Reads the items of a list up to its end. -/
def readItems (limit : Nat) (cs : List Char) : Reading (List Value) :=
  match limit with
  | 0 => halt .unexpected cs
  | limit + 1 =>
    match readValue limit cs with
    | .error s => .error s
    | .ok (v, rest) =>
      match skipGap rest with
      | ',' :: rest => (readItems limit rest).map fun (vs, rest) => (v :: vs, rest)
      | ']' :: rest => .ok ([v], rest)
      | rest => halt .openList rest

/-- Reads the fields of a record up to its end. -/
def readMembers (missing : Malformation) (limit : Nat) (cs : List Char) :
    Reading (List (String × Value)) :=
  match limit with
  | 0 => halt .unexpected cs
  | limit + 1 =>
    match readName missing cs with
    | .error s => .error s
    | .ok (name, rest) =>
      match readValue limit rest with
      | .error s => .error s
      | .ok (v, rest) =>
        match skipGap rest with
        | ',' :: rest => (readMembers .noName limit rest).map fun (fields, rest) =>
          (withField name v fields, rest)
        | '\x7d' :: rest => .ok ([(name, v)], rest)
        | rest => halt .openRecord rest

end

/-- The value of a line. -/
def ofLine (line : List Char) : Except Fault Value :=
  match readValue (2 * line.length + 1) line with
  | .error s => .error (s.toFault line)
  | .ok (v, rest) =>
    if skipGap rest = [] then .ok v
    else .error (Stop.toFault line ⟨.furtherText, skipGap rest⟩)

/-- The values of the lines of a text.  Empty lines hold none. -/
def ofLines (cs : List Char) : Except Fault (List Value) :=
  ((cs.splitOn '\n').filter (· ≠ [])).mapM ofLine

end Value

end LoadTest

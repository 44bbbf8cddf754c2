import LoadTest.Value
/-!
# Log lines

A value as one line of text: records in braces, lists in brackets, and texts between double quotes
in which control characters, the double quote and the backslash are escaped.
-/

namespace LoadTest

namespace Value

/-- A character of a text on a line. -/
def lineChar (c : Char) : List Char :=
  if c = '"' then ['\\', '"']
  else if c = '\\' then ['\\', '\\']
  else if c = '\n' then ['\\', 'n']
  else if c = '\r' then ['\\', 'r']
  else if c = '\t' then ['\\', 't']
  else if c.toNat < 0x20 then
    ['\\', 'u', '0', '0', Nat.digitChar (c.toNat / 16), Nat.digitChar (c.toNat % 16)]
  else [c]

/-- A text on a line. -/
def lineText (s : String) : List Char := '"' :: (s.toList.flatMap lineChar ++ ['"'])

mutual

/-- A value on a line. -/
def toLine : Value → List Char
  | text s => lineText s
  | list items => '[' :: (lineItems items ++ [']'])
  | record fields => '\x7b' :: (lineFields fields ++ ['\x7d'])
  | null => "null".toList
  | bool b => (if b then "true" else "false").toList
  | number x => x.toText

/-- Items with commas between them. -/
def lineItems : List Value → List Char
  | [] => []
  | [v] => toLine v
  | v :: w :: vs => toLine v ++ ',' :: lineItems (w :: vs)

/-- Fields with commas between them. -/
def lineFields : List (String × Value) → List Char
  | [] => []
  | [(name, v)] => lineText name ++ ':' :: toLine v
  | (name, v) :: f :: fs => lineText name ++ ':' :: (toLine v ++ ',' :: lineFields (f :: fs))

end

end Value

end LoadTest

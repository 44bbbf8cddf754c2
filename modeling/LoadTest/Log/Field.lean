import LoadTest.Failure
import LoadTest.Log.Reading
/-!
# Fields of log lines

A field is written to a line as a value, and with a few names as **bare** text, without quotes.
Bare text is read back as whatever it looks like: a value, further fields, further lines, or nothing
that can be read.

Some names belong to every record.  A field of such a name is not written as it is: it is refused,
left out or changed.
-/

namespace LoadTest

namespace Value

/-- What a line holds under the name of a field. -/
inductive Written
  | value (v : Value)
  /-- Text that stands on the line without quotes. -/
  | bare (text : List Char)

/-! ## Names that belong to every record -/

/-- The names that belong to every record. -/
def reservedNames : List String :=
  ["constructor", "toString", "toLocaleString", "valueOf", "hasOwnProperty", "isPrototypeOf",
    "propertyIsEnumerable", "__proto__", "__defineGetter__", "__defineSetter__",
    "__lookupGetter__", "__lookupSetter__"]

/-- A refusal. -/
def refusal (message : String) : Except Fault (Option Written) :=
  .error { sort := .wrongType, message := message }

/-- A refusal of anything that has a text. -/
def withText (v : Value) (result : Except Fault (Option Written)) :
    Except Fault (Option Written) :=
  match v.toText? with
  | some _ => result
  | none => .error Fault.noText

/-- What is written for a constructor: numbers and truth values as they are, anything else as bare
text. -/
def writtenConstructor (v : Value) : Except Fault (Option Written) :=
  match v with
  | null => .ok (some (.bare "[object Object]".toList))
  | bool b => .ok (some (.value (bool b)))
  | v =>
    match v.toText? with
    | some cs => .ok (some (.bare cs))
    | none => .error Fault.noText

/-- What is written for a field, if anything is. -/
def written? (name : String) (v : Value) : Except Fault (Option Written) :=
  let noRecord := "Cannot convert undefined or null to object"
  if name = "constructor" then writtenConstructor v
  else if name = "toString" then .ok (some (.bare "[object Undefined]".toList))
  else if name = "isPrototypeOf" then .ok (some (.value (.bool false)))
  else if name = "valueOf" then refusal noRecord
  else if name = "hasOwnProperty" ∨ name = "propertyIsEnumerable" then
    v.withText (refusal noRecord)
  else if name = "toLocaleString" then
    refusal "Object.prototype.toLocaleString called on null or undefined"
  else if name = "__defineGetter__" ∨ name = "__defineSetter__" then
    refusal ("Object.prototype." ++ name ++ ": Expecting function")
  else if name = "__lookupGetter__" ∨ name = "__lookupSetter__" then v.withText (.ok none)
  else if name = "__proto__" then refusal "serializers[key] is not a function"
  else .ok (some (.value v))

/-! ## Reading fields back -/

/-- A field on a line. -/
def writtenText : String × Written → List Char
  | (name, .value v) => lineText name ++ ':' :: v.onLine.toLine
  | (name, .bare cs) => lineText name ++ ':' :: cs

/-- The line of fields. -/
def writtenLine (fields : List (String × Written)) : List Char :=
  '\x7b' :: ([','].intercalate (fields.map writtenText) ++ ['\x7d'])

/-- The value of a field that is not bare. -/
def plain? : String × Written → Option (String × Value)
  | (name, .value v) => some (name, v.onLine)
  | (_, .bare _) => none

/-- The values that fields on a line are read back as: one record, unless bare text cuts the line
into several.  Of two fields with one name the later counts. -/
def readBack (fields : List (String × Written)) : Except Fault (List Value) :=
  match fields.mapM plain? with
  | some fields => .ok [.record (fields.foldr (fun (name, v) done => withField name v done) [])]
  | none => ofLines (writtenLine fields)

end Value

end LoadTest

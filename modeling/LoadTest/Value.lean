import LoadTest.Binary64.Text
/-!
# Values

Data whose shape is not known beforehand: the details of a failure, the fields of a log entry, and
option values before they are checked.
-/

namespace LoadTest

/-- A value of any shape.  A record keeps its fields in the order in which they were given. -/
inductive Value
  | null
  | bool (b : Bool)
  | number (x : Binary64)
  | text (s : String)
  | list (items : List Value)
  | record (fields : List (String × Value))

namespace Value

instance : Inhabited Value := ⟨null⟩

/-- The value of a field. -/
def field? (name : String) : Value → Option Value
  | record fields => fields.lookup name
  | _ => none

/-- The text in a text value. -/
def text? : Value → Option String
  | text s => some s
  | _ => none

/-- The fields that have a value. -/
def given (fields : List (String × Option Value)) : List (String × Value) :=
  fields.filterMap fun (name, v?) => v?.map fun v => (name, v)

/-- The value counts as true: it is neither `null`, false, zero nor `nan`, nor the empty text. -/
def isTrue : Value → Bool
  | null => false
  | bool b => b
  | number x => !(x.isNaN || x.eq 0)
  | text s => s != ""
  | list _ => true
  | record _ => true

/-! ## Text and number of a value -/

/-- The value is `null`. -/
def isNull : Value → Bool
  | null => true
  | _ => false

mutual

/-- The text of a value.  A list gives the texts of its items with commas between them.  All records
have the same text, but a record with a field `toString` has none. -/
def toText? : Value → Option (List Char)
  | null => some "null".toList
  | bool b => some (if b then "true" else "false").toList
  | number x => some x.toText
  | text s => some s.toList
  | list items => itemTexts? items
  | record fields =>
    if (fields.lookup "toString").isSome then none else some "[object Object]".toList

/-- The texts of items, with commas between them; an item that is `null` is left empty. -/
def itemTexts? : List Value → Option (List Char)
  | [] => some []
  | [v] => if v.isNull then some [] else v.toText?
  | v :: w :: vs => do
    let first ← if v.isNull then some [] else v.toText?
    let others ← itemTexts? (w :: vs)
    return first ++ ',' :: others

end

/-- The text of a value, or the word for one that was not given. -/
def textOf? : Option Value → Option (List Char)
  | some v => v.toText?
  | none => some "undefined".toList

/-- The number that a value stands for: the truth values are one and zero, `null` is zero, and a
text is read, as is the text of a list or a record. -/
def toNumber? : Value → Option Binary64
  | null => some 0
  | bool b => some (if b then 1 else 0)
  | number x => some x
  | text s => some (.ofText s.toList)
  | list items => (toText? (.list items)).map .ofText
  | record fields => (toText? (.record fields)).map .ofText

/-! ## Values on a line of text -/

mutual

/-- The value as a line of a log can hold it: numbers that are not finite become `null`, and minus
zero loses its sign. -/
def onLine : Value → Value
  | number x => if x.isFinite then (if x.eq 0 then number 0 else number x) else null
  | list items => list (onLineItems items)
  | record fields => record (onLineFields fields)
  | null => null
  | bool b => bool b
  | text s => text s

/-- Every item as a line can hold it. -/
def onLineItems : List Value → List Value
  | [] => []
  | v :: vs => onLine v :: onLineItems vs

/-- Every field as a line can hold it. -/
def onLineFields : List (String × Value) → List (String × Value)
  | [] => []
  | (name, v) :: rest => (name, onLine v) :: onLineFields rest

end

end Value

end LoadTest

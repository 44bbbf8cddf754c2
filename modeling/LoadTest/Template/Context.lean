import LoadTest.Value
import LoadTest.Text.Units
/-!
# Contexts and names

A context gives values to names.  A section may put a value on top of it, so a name is looked up in
a stack of items, the innermost first and the context as a whole last.

A name with a point in it, other than at its start, is followed step by step from an item: a text
has a length and its single units, the context has its names, and nothing else has parts.
-/

namespace LoadTest

namespace Template

/-- The value of a name. -/
inductive Scalar
  | text (s : String)
  | number (x : Binary64)
  | flag (b : Bool)
  /-- The name is there, but nothing is written for it. -/
  | nothing

/-- A value as the value of a name.  A list or a record is written as its text. -/
def Scalar.ofValue : Option Value → Scalar
  | none => nothing
  | some .null => nothing
  | some (.bool b) => flag b
  | some (.number x) => number x
  | some (.text s) => text s
  | some v => text (String.ofList (v.toText?.getD []))

/-- The names of a context and their values. -/
abbrev Context := List (String × Scalar)

/-- What a section can put on the stack. -/
inductive Item
  /-- The context as a whole. -/
  | whole
  | scalar (v : Scalar)
  /-- Half of a character of two units. -/
  | half (f : Text.Fragment)

namespace Item

/-- A unit of a text as an item. -/
def ofFragment : Text.Fragment → Item
  | .char c => .scalar (.text (String.singleton c))
  | f => .half f

/-- The index that a name is, if it is written without needless zeros. -/
def index? (name : String) : Option Nat :=
  match Decimal.natural? name.toList with
  | some n => if Nat.toDigits 10 n = name.toList then some n else none
  | none => none

/-- A part of an item. -/
def member? (context : Context) (item : Item) (name : String) : Option Item :=
  match item with
  | whole => (context.lookup name).map scalar
  | scalar (.text s) =>
    if name = "length" then some (.scalar (.number (.ofNat (Text.units s.toList))))
    else (index? name).bind fun i => ((Text.fragments s.toList)[i]?).map ofFragment
  | half f =>
    if name = "length" then some (.scalar (.number 1))
    else if name = "0" then some (half f)
    else none
  | scalar _ => none

/-- The value of a whole name.  Only the context has names. -/
def key? (context : Context) (item : Item) (name : String) : Option Item :=
  match item with
  | whole => member? context whole name
  | _ => none

/-- Follows names from an item. -/
def follow? (context : Context) (item : Item) : List String → Option Item
  | [] => some item
  | name :: names => (member? context item name).bind fun i => follow? context i names

/-- Sections pass over an item that counts as false: the empty text, zero, `nan`, false and
nothing. -/
def isTrue : Item → Bool
  | whole => true
  | scalar (.text s) => s != ""
  | scalar (.number x) => !(x.isNaN || x.eq 0)
  | scalar (.flag b) => b
  | scalar .nothing => false
  | half _ => true

end Item

/-- The name has a point after its first character and does not start with one. -/
def isDotted (name : String) : Bool :=
  match name.toList with
  | [] => false
  | c :: cs => c != '.' && cs.contains '.'

/-- Looks a name up.  A single point is the innermost item itself. -/
def lookup? (context : Context) (stack : List Item) (name : String) : Option Item :=
  if name = "." then stack.head?
  else if isDotted name then
    let names := (name.toList.splitOn '.').map String.ofList
    stack.findSome? fun item => item.follow? context names
  else stack.findSome? fun item => item.key? context name

/-! ## Built-in members -/

/-- The names of the members that every record has without being given them.  Contexts have no such
members, but records of other things have. -/
def builtIns : List String :=
  ["constructor", "__defineGetter__", "__defineSetter__", "hasOwnProperty", "__lookupGetter__",
    "__lookupSetter__", "isPrototypeOf", "propertyIsEnumerable", "toString", "valueOf", "__proto__",
    "toLocaleString"]

/-- The built-in member that checks whether a record holds a name. -/
def checkName : String := "hasOwnProperty"

end Template

end LoadTest

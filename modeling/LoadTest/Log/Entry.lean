import LoadTest.Log.Level
/-!
# Log entries and the journal

What is logged, and a journal that keeps every entry in order whatever its level.
-/

namespace LoadTest

/-- One call of a log: its level, its content and the fault it was made for, if any. -/
structure Entry where
  level : Level
  content? : Option Value
  fault : Option Fault := none

namespace Entry

/-- An entry with a message and further fields. -/
def note (level : Level) (message : String) (fields : List (String × Value)) : Entry :=
  { level := level, content? := some (.record (("message", .text message) :: fields)) }

end Entry

/-- How a failure is logged.  A reported one shows its code and details, a fault is attached, and a
bare value stands in place of a failure. -/
def Failure.toEntry : Failure → Entry
  | .reported kind message details _ =>
    .note .error message
      (Value.given [("errorCode", kind.code?), ("details", details)])
  | .fault f => { Entry.note .error f.message [] with fault := some f }
  | .value v? => .note .error "Unknown failure" (Value.given [("error", v?)])

/-- A log that keeps every entry, in order.  Its level is a label and holds nothing back. -/
structure Journal where
  level : Value := .text "debug"
  entries : List Entry := []

namespace Journal

/-- Keeps an entry; what is logged at `silent` is dropped. -/
def add (j : Journal) (e : Entry) : Journal :=
  if e.level = .silent then j else { j with entries := j.entries ++ [e] }

/-- The entries of a level. -/
def loggedAt (j : Journal) (name : String) : List Entry :=
  j.entries.filter fun e => e.level.name == name

/-- A journal takes entries of every level. -/
def isEnabled (_ : Journal) (_ : String) : Bool := true

end Journal

end LoadTest

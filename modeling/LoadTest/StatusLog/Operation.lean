import LoadTest.Value
/-!
# Operations

The kinds of database operation whose latency a status line reports.
-/

namespace LoadTest

/-- A kind of database operation. -/
inductive Operation
  | read
  | update
  | insert
  | scan
  | readModifyWrite
  deriving DecidableEq

namespace Operation

/-- All operations, in the order in which they are listed to users. -/
def all : List Operation := [read, update, insert, scan, readModifyWrite]

/-- The name by which a status line calls an operation. -/
def name : Operation → String
  | read => "READ"
  | update => "UPDATE"
  | insert => "INSERT"
  | scan => "SCAN"
  | readModifyWrite => "READ-MODIFY-WRITE"

/-- The operation as the value that stands for it. -/
def toValue (o : Operation) : Value := .text o.name

/-- The operation of a name. -/
def ofName? (name : String) : Option Operation := all.find? fun o => o.name == name

theorem ofName?_name (o : Operation) : ofName? o.name = some o := by
  cases o <;> rfl

end Operation

end LoadTest

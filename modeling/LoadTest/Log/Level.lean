import LoadTest.Failure
/-!
# Log levels

The levels of a log, their order, and the environment variable that chooses one.
-/

namespace LoadTest

/-- The level of a log entry or of a logger. -/
inductive Level
  | fatal
  | error
  | warn
  | info
  | debug
  | trace
  | silent
  deriving DecidableEq

namespace Level

/-- All levels, from the gravest to the finest, `silent` last. -/
def all : List Level := [fatal, error, warn, info, debug, trace, silent]

/-- The name of a level. -/
def name : Level → String
  | fatal => "fatal"
  | error => "error"
  | warn => "warn"
  | info => "info"
  | debug => "debug"
  | trace => "trace"
  | silent => "silent"

/-- The rank of a level; `silent` stands above all entries. -/
def rank : Level → Nat
  | trace => 10
  | debug => 20
  | info => 30
  | warn => 40
  | error => 50
  | fatal => 60
  | silent => 70

/-- The level of a name. -/
def ofName? (name : String) : Option Level := all.find? fun l => l.name == name

theorem ofName?_name (l : Level) : ofName? l.name = some l := by
  cases l <;> rfl

end Level

/-! ## The chosen level -/

/-- A name in the environment that is no level. -/
structure UnknownLevel where
  name : String

/-- The wording against an unknown level. -/
def UnknownLevel.message (u : UnknownLevel) : String :=
  "Unsupported LOG_LEVEL \"" ++ u.name ++ "\""

/-- How an unknown level is reported. -/
def UnknownLevel.toFailure (u : UnknownLevel) : Failure :=
  .reported .invalidConfiguration u.message
    (some (.record [("supportedValues", .list (Level.all.map fun l => .text l.name))])) none

/-- The environment variable that names the level, and the copy of it that is consulted. -/
structure Environment where
  current? : Option String := none
  copy? : Option String := none

namespace Environment

/-- What a variable keeps of a text: all up to the first character of number zero. -/
def kept (value : String) : String :=
  String.ofList (value.toList.takeWhile fun c => c != Char.ofNat 0)

/-- Changes the variable; the copy stays. -/
def set (e : Environment) (value? : Option String) : Environment :=
  { e with current? := value?.map kept }

/-- Copies the variable. -/
def reload (e : Environment) : Environment := { e with copy? := e.current? }

/-- The level that the copy names.  An empty name counts as none, and without one it is `info`. -/
def level (e : Environment) : Except UnknownLevel Level :=
  match e.copy? with
  | none => .ok .info
  | some name =>
    if name = "" then .ok .info
    else
      match Level.ofName? name with
      | some l => .ok l
      | none => .error ⟨name⟩

end Environment

end LoadTest

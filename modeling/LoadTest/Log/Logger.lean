import LoadTest.Log.Content
import LoadTest.Log.Entry
/-!
# Loggers

A logger has a level, and a name if one was given.  Each entry that its level lets through becomes a
record: the rank of the entry's level, the logger's name and the entry's own fields, which win over
the first two.
-/

namespace LoadTest

/-- A logger.  One whose level is no level of an entry lets nothing through. -/
structure Logger where
  name? : Option Value
  level? : Option Level

namespace Logger

/-! ## Making a logger -/

/-- The failure of a logger whose own level is none. -/
def levelFailure (name : String) : Failure :=
  .fault { sort := .general
           message := "default level:" ++ name ++ " must be included in custom levels" }

/-- The level of an exact name.  A name that belongs to every record is let pass, but is none. -/
def levelOfName (name : String) : Except Failure (Option Level) :=
  match Level.ofName? name with
  | some l => .ok (some l)
  | none => if Value.reservedNames.contains name then .ok none else .error (levelFailure name)

/-- The level of a name as a user writes it: other than that of `silent`, names may be in capitals.
-/
def levelOfText (name : String) : Except Failure (Option Level) :=
  let lower := String.ofList (name.toList.map Char.toLower)
  if (Level.ofName? lower).any (· != .silent) ∨ Value.reservedNames.contains lower then
    levelOfName lower
  else levelOfName name

/-- The level of a rank; that of `silent` is without bound. -/
def levelOfRank (x : Binary64) : Except Failure (Option Level) :=
  let rankOf (l : Level) : Binary64 := if l = .silent then .infinity false else .ofNat l.rank
  match Level.all.find? fun l => x.eq (rankOf l) with
  | some l => .ok (some l)
  | none => .error (levelFailure (toString x))

/-- The level that a value stands for. -/
def levelOfValue : Value → Except Failure (Option Level)
  | .text s => levelOfText s
  | .number x => levelOfRank x
  | v =>
    match v.toText? with
    | some cs => levelOfName (String.ofList cs)
    | none => .error (.fault Fault.noText)

/-- A logger with a level of its own, or with that of the environment. -/
def create (e : Environment) (name? level? : Option Value) : Except Failure Logger :=
  match level? with
  | some .null | none =>
    match e.level with
    | .ok level => .ok { name? := name?, level? := some level }
    | .error u => .error u.toFailure
  | some v => (levelOfValue v).map fun level? => { name? := name?, level? := level? }

/-! ## Records -/

/-- A level is enabled if it is at or above the logger's. -/
def isEnabled (l : Logger) (level : Level) : Bool :=
  match l.level? with
  | some own => own.rank ≤ level.rank
  | none => false

/-- An entry's own fields, its fault under `error`. -/
def ownFields (e : Entry) : Except Fault (List (String × Value.Written)) :=
  let content :=
    match e.content? with
    | some v => v.logFields
    | none => .ok []
  content.map fun fields =>
    fields ++ e.fault.toList.map fun f => ("error", .value (.record f.fields))

/-- The fields of every record at a level. -/
def baseFields (l : Logger) (level : Level) : List (String × Value.Written) :=
  (Value.given [("level", some (.number (.ofNat level.rank))), ("name", l.name?)]).map
    fun (name, v) => (name, .value v)

/-- What is written for an entry, if the logger lets it through.  Nothing is logged at `silent`. -/
def written? (l : Logger) (e : Entry) : Except Fault (Option (List (String × Value.Written))) :=
  if l.isEnabled e.level ∧ e.level ≠ .silent then
    (ownFields e).map fun own => some (l.baseFields e.level ++ own)
  else .ok none

/-- The records of entries, in order.  They are read back after the last one is written. -/
def records (l : Logger) (entries : List Entry) : Except Fault (List Value) := do
  let lines ← entries.mapM l.written?
  let records ← (lines.filterMap id).mapM Value.readBack
  return records.flatten

end Logger

end LoadTest

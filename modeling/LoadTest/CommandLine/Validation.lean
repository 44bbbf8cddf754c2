import LoadTest.Failure
/-!
# Validation

Option values are checked one by one.  A missing value takes its default, and every value that does
not pass is listed with what is wrong with it, in the order of the options.
-/

namespace LoadTest

namespace CommandLine

/-- What is wrong with the value of an option. -/
structure Issue where
  path : String
  message : String
  deriving DecidableEq

/-- How issues are reported. -/
def issuesFailure (issues : List Issue) : Failure :=
  .reported .invalidConfiguration "Invalid command line options"
    (some (.record [("issues", .list (issues.map fun i =>
      .record [("path", .text i.path), ("message", .text i.message)]))])) none

/-- Why values are refused. -/
inductive Rejection (ι : Type)
  | issues (issues : List ι)
  /-- A value cannot even be compared, so nothing is said about the others. -/
  | incomparable

namespace Rejection

/-- What is wrong with either of two values. -/
def and {ι : Type} : Rejection ι → Rejection ι → Rejection ι
  | issues a, issues b => issues (a ++ b)
  | _, _ => incomparable

/-- Rewrites every issue. -/
def map {ι κ : Type} (f : ι → κ) : Rejection ι → Rejection κ
  | issues a => issues (a.map f)
  | incomparable => incomparable

end Rejection

/-- A checked value, or why it is refused. -/
abbrev Validated (α : Type) := Except (Rejection Issue) α

/-- Applies a checked function to a checked value; the issues of both are kept. -/
def Validated.and {α β : Type} (f : Validated (α → β)) (x : Validated α) : Validated β :=
  match f, x with
  | .ok f, .ok x => .ok (f x)
  | .ok _, .error e => .error e
  | .error e, .ok _ => .error e
  | .error e, .error e' => .error (e.and e')

/-- How a refusal is reported. -/
def Rejection.toFailure : Rejection Issue → Failure
  | issues all => issuesFailure all
  | incomparable => .fault Fault.noText

/-- A check of one value: what it is, or the messages against it. -/
abbrev Check (α : Type) := Value → Except (Rejection String) α

/-- Refuses with messages. -/
def refuse {α : Type} (messages : List String) : Except (Rejection String) α :=
  .error (.issues messages)

/-- Checks the value of an option.  A missing value takes the default, if there is one. -/
def validate {α : Type} (values : Value) (name : String) (check : Check α)
    (missing : Except (Rejection String) α) : Validated α :=
  let result :=
    match values.field? name with
    | some v => check v
    | none => missing
  result.mapError fun e => e.map fun m => ⟨name, m⟩

/-! ## Checks -/

/-- The word for the type of a value, or for a value that was not given. -/
def typeWord : Option Value → String
  | none => "undefined"
  | some .null => "null"
  | some (.bool _) => "boolean"
  | some (.number x) => if x.isFinite then "number" else toString x
  | some (.text _) => "string"
  | some (.list _) => "array"
  | some (.record _) => "object"

/-- The message against a value of another type. -/
def expected (type : String) (v? : Option Value) : String :=
  "Invalid input: expected " ++ type ++ ", received " ++ typeWord v?

/-- A safe integer above zero, once the value is converted to a number. -/
def count : Check Binary64 := fun v =>
  match v.toNumber? with
  | none => refuse [expected "number" v]
  | some x =>
    if !x.isFinite then refuse [expected "number" (some (.number x))]
    else if !x.isInteger then refuse ["Invalid input: expected int, received number"]
    else if .ofNat Binary64.maxSafe < x then
      refuse ["Too big: expected int to be <=" ++ toString Binary64.maxSafe]
    else
      let small := if x < -.ofNat Binary64.maxSafe
        then ["Too small: expected int to be >=-" ++ toString Binary64.maxSafe] else []
      if 0 < x then .ok x else refuse (small ++ ["Too small: expected number to be >0"])

/-- Whether a record gives a length below one; `none` if the length has no number. -/
def hasShortLength? (fields : List (String × Value)) : Option Bool :=
  match fields.lookup "length" with
  | none => some false
  | some v => v.toNumber?.map fun x => !(1 < x || x.eq 1)

/-- What is wrong with the length of a value; `none` if that cannot be said.  Besides texts and
lists, a record has a length if it has a field of that name. -/
def lengthIssues? : Value → Option (List String)
  | .text s => some (if s = "" then ["Too small: expected string to have >=1 characters"] else [])
  | .list items =>
    some (if items.isEmpty then ["Too small: expected array to have >=1 items"] else [])
  | .record fields => (hasShortLength? fields).map fun short =>
    if short then ["Too small: expected unknown to be >=1"] else []
  | _ => some []

/-- A text that is not empty.  The length is checked whatever the type is. -/
def nonEmpty : Check String := fun v =>
  match lengthIssues? v with
  | none => .error .incomparable
  | some issues =>
    match v with
    | .text s => if issues = [] then .ok s else refuse issues
    | _ => refuse (expected "string" v :: issues)

/-- A text that is not empty, with one message for whatever is wrong. -/
def required (message : String) : Check String := fun v =>
  (nonEmpty v).mapError fun e => e.map fun _ => message

/-- A truth value. -/
def flag : Check Bool
  | .bool b => .ok b
  | v => refuse [expected "boolean" v]

/-- One of several names. -/
def choice {α : Type} (names : List String) (ofName? : String → Option α) : Check α := fun v =>
  let message := "Invalid option: expected one of "
    ++ "|".intercalate (names.map fun n => "\"" ++ n ++ "\"")
  match v.text?.bind ofName? with
  | some a => .ok a
  | none => refuse [message]

/-- The values, if they are a record; anything else is refused. -/
def checkRecord (values? : Option Value) : Validated Value :=
  match values? with
  | some (.record fields) => .ok (.record fields)
  | v? => .error (.issues [⟨"", expected "object" v?⟩])

end CommandLine

end LoadTest

import LoadTest.StatusLog.Line
import LoadTest.StatusLog.Operation
/-!
# Options of a series

The step of a series and the operation whose latency it shows, with their defaults.
-/

namespace LoadTest

namespace Series

/-- The step of a series in seconds, a whole number above zero, and the operation it shows, which is
taken as it was given. -/
structure Options where
  delta : Binary64
  operation : Value
  isInteger_delta : delta.isInteger = true
  delta_pos : 0 < delta

/-- What is wrong with options. -/
inductive OptionsError
  /-- The step is not a whole number above zero. -/
  | badDelta (value : Value)
  /-- There is `null` in place of options. -/
  | nullOptions

/-- How an error is reported. -/
def OptionsError.toFailure : OptionsError → Failure
  | badDelta value =>
    .reported .invalidConfiguration "Delta must be a positive number of seconds"
      (some (.record [("deltaSeconds", value)])) none
  | nullOptions =>
    .fault { sort := .wrongType
             message := "Cannot read properties of null (reading 'deltaSeconds')" }

/-- The step of a series when none is given, in seconds. -/
def defaultDelta : Nat := 10

/-- The operation of a series when none is given. -/
def defaultOperation : Operation := .read

/-- Completes and checks the options of a series. -/
def Options.resolve (delta? operation? : Option Value) : Except OptionsError Options :=
  let value := delta?.getD (.number (.ofNat defaultDelta))
  match value with
  | .number x =>
    if h : x.isInteger = true ∧ 0 < x then
      .ok { delta := x, operation := operation?.getD defaultOperation.toValue
            isInteger_delta := h.1, delta_pos := h.2 }
    else .error (.badDelta value)
  | _ => .error (.badDelta value)

/-- The value of a field other than `null`. -/
def option? (options : Value) (name : String) : Option Value :=
  match options.field? name with
  | some .null => none
  | v? => v?

/-- Options as they are given: a record, or nothing. -/
def Options.ofValue (options? : Option Value) : Except OptionsError Options :=
  match options? with
  | none => Options.resolve none none
  | some .null => .error .nullOptions
  | some v => Options.resolve (option? v "deltaSeconds") (option? v "operation")

end Series

end LoadTest

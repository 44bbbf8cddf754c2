import LoadTest.CommandLine.Token
import LoadTest.Failure
import LoadTest.Text.Search
/-!
# Arguments

The tokens of a command line are checked from left to right, and the first fault is reported.  What
is left are the values of the options; of an option that is repeated the last value counts.
-/

namespace LoadTest

namespace CommandLine

/-! ## Causes of failure -/

/-- What is wrong with an argument. -/
inductive ArgumentError
  /-- A word belongs to no option. -/
  | unexpected (word : String)
  | unknown (written : String)
  /-- An option that takes a text has none. -/
  | missingValue (spec : OptionSpec)
  /-- An option that takes no value has one. -/
  | needlessValue (spec : OptionSpec)
  /-- The next argument is taken as a value, but looks like an option. -/
  | ambiguous (written : String) (spec : OptionSpec)
  deriving DecidableEq

/-- Both names of an option. -/
def OptionSpec.names (s : OptionSpec) : String :=
  "-" ++ String.singleton s.letter ++ ", --" ++ s.name

namespace ArgumentError

/-- The wording of an error. -/
def message : ArgumentError → String
  | unexpected word =>
    "Unexpected argument '" ++ word ++ "'. This command does not take positional arguments"
  | unknown written => "Unknown option '" ++ written ++ "'"
  | missingValue spec => "Option '" ++ spec.names ++ " <value>' argument missing"
  | needlessValue spec => "Option '" ++ spec.names ++ "' does not take an argument"
  | ambiguous written spec =>
    let long :=
      match Text.after? ['-', '-'] written.toList with
      | some _ => true
      | none => false
    let hint :=
      if long then "'" ++ written ++ "=-XYZ'"
      else "'--" ++ spec.name ++ "=-XYZ' or '" ++ written ++ "-XYZ'"
    "Option '" ++ written ++ "' argument is ambiguous.\nDid you forget to specify the option "
      ++ "argument for '" ++ written ++ "'?\nTo specify an option argument starting with a dash "
      ++ "use " ++ hint ++ "."

/-- The code of an error. -/
def code : ArgumentError → String
  | unexpected _ => "ERR_PARSE_ARGS_UNEXPECTED_POSITIONAL"
  | unknown _ => "ERR_PARSE_ARGS_UNKNOWN_OPTION"
  | missingValue _ => "ERR_PARSE_ARGS_INVALID_OPTION_VALUE"
  | needlessValue _ => "ERR_PARSE_ARGS_INVALID_OPTION_VALUE"
  | ambiguous _ _ => "ERR_PARSE_ARGS_INVALID_OPTION_VALUE"

/-- How an error is reported. -/
def toFailure (e : ArgumentError) : Failure :=
  .reported .invalidConfiguration e.message none
    (some (.fault { sort := .wrongType, message := e.message, code := some e.code }))

end ArgumentError

/-! ## Checking -/

/-- The value looks like an option. -/
def looksLikeOption (value : String) : Bool :=
  match value.toList with
  | '-' :: _ :: _ => true
  | _ => false

/-- Checks a token, and gives the name and the value of its option. -/
def Token.check : Token → Except ArgumentError (String × Value)
  | .word text => .error (.unexpected text)
  | .option written none _ _ => .error (.unknown written)
  | .option written (some spec) value? attached =>
    match spec.takesText, value? with
    | true, none => .error (.missingValue spec)
    | true, some value =>
      if !attached && looksLikeOption value then .error (.ambiguous written spec)
      else .ok (spec.name, .text value)
    | false, some _ => .error (.needlessValue spec)
    | false, none => .ok (spec.name, .bool true)

/-- The values of options.  The last value of an option comes first. -/
def values (specs : List OptionSpec) (arguments : List String) :
    Except ArgumentError (List (String × Value)) :=
  ((cut specs arguments).mapM Token.check).map List.reverse

end CommandLine

end LoadTest

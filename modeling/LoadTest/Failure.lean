import LoadTest.Value
/-!
# Failures

The uniform form in which failures leave the tools.  Each part of the library has its own type of
causes; a cause becomes a `Failure` where it is reported.
-/

namespace LoadTest

/-! ## Kinds -/

/-- The kinds of failure that are reported on purpose; `other` leaves room for further codes of any
shape, and for failures without one. -/
inductive FailureKind
  | logParse
  | inputFileNotFound
  | invalidConfiguration
  | outputWrite
  | generationDeclined
  | other (code? : Option Value)

namespace FailureKind

/-- The code under which a kind is filed. -/
def code? : FailureKind → Option Value
  | logParse => some (.text "LOG_PARSE_ERROR")
  | inputFileNotFound => some (.text "INPUT_FILE_NOT_FOUND")
  | invalidConfiguration => some (.text "INVALID_CONFIGURATION")
  | outputWrite => some (.text "OUTPUT_WRITE_FAILED")
  | generationDeclined => some (.text "GENERATION_DECLINED")
  | other code? => code?

/-- The code, if it is a text. -/
def name? (kind : FailureKind) : Option String := kind.code?.bind Value.text?

/-- The name under which a kind is shown. -/
def title : FailureKind → String
  | logParse => "LogParseError"
  | inputFileNotFound => "InputFileNotFoundError"
  | invalidConfiguration => "InvalidConfigurationError"
  | outputWrite => "OutputWriteError"
  | generationDeclined => "GenerationDeclinedError"
  | other _ => "InternalError"

/-- The kinds with a code of their own. -/
def named : List FailureKind :=
  [logParse, inputFileNotFound, invalidConfiguration, outputWrite, generationDeclined]

/-- The kinds are filed under the same text. -/
def sharesName (a b : FailureKind) : Bool := a.name?.isSome && a.name? == b.name?

end FailureKind

/-! ## Faults -/

/-- The sort of a fault. -/
inductive FaultSort
  | general
  | wrongType
  | outOfRange
  | malformed
  deriving DecidableEq

/-- The name under which a sort of fault is shown. -/
def FaultSort.title : FaultSort → String
  | general => "Error"
  | wrongType => "TypeError"
  | outOfRange => "RangeError"
  | malformed => "SyntaxError"

/-- A failure that nothing reports on purpose: of the file system, of an argument, of a template.
Its fields are what a log line shows of it. -/
structure Fault where
  sort : FaultSort
  message : String
  code : Option String := none
  fields : List (String × Value) := []

/-- A value that has no text was to be written as one. -/
def Fault.noText : Fault :=
  { sort := .wrongType, message := "Cannot convert object to primitive value" }

/-! ## Failures -/

/-- What ends an operation early. -/
inductive Failure
  /-- A failure of one of the kinds, with what led to it. -/
  | reported (kind : FailureKind) (message : String) (details : Option Value)
      (cause : Option Failure)
  | fault (f : Fault)
  /-- A bare value, or nothing at all, in place of a failure. -/
  | value (v? : Option Value)

namespace Failure

instance : Inhabited Failure := ⟨.value none⟩

/-- The failure is of one of the kinds with a code of their own. -/
def isNamed : Failure → Bool
  | reported kind .. => FailureKind.named.any fun k => k.sharesName kind
  | _ => false

/-- The failure concerns a line of a log. -/
def isLogParse : Failure → Bool
  | reported kind .. => FailureKind.logParse.sharesName kind
  | _ => false

end Failure

end LoadTest

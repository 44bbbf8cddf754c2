import LoadTest.Failure
import LoadTest.Text.Search
/-!
# Status lines

A running benchmark logs a status line at regular intervals, such as
`10 sec: 4520 operations; 452 current ops/sec; [READ AverageLatency(us)=120.5]`.  A line is read as
a sample: the time before the first `sec:` and the latency of one operation after it.
-/

namespace LoadTest

/-- One point of a series: a time in seconds and an average latency in microseconds. -/
structure Sample where
  time : Binary64
  latency : Binary64
  deriving DecidableEq

/-- The latency of a sample for which none is known. -/
def noLatency : Binary64 := -1

/-! ## Causes of failure -/

/-- What is wrong with a status line. -/
inductive LineFault
  | noTimeMarker
  /-- The text before the marker, trimmed, is no integer. -/
  | badTimestamp (text : String)
  /-- The operation was given as a value that has no text. -/
  | noOperationName
  /-- No number follows the field of the operation. -/
  | badLatency (operation : String)
  deriving DecidableEq

/-- A status line that cannot be read. -/
structure LineError where
  fault : LineFault
  line : String
  deriving DecidableEq

namespace LineFault

/-- The wording of a fault. -/
def message : LineFault → String
  | noTimeMarker => "Throughput line has no \"sec:\" marker"
  | badTimestamp text => "Throughput line has a non-integer timestamp \"" ++ text ++ "\""
  | noOperationName => Fault.noText.message
  | badLatency operation => "Throughput line has a malformed " ++ operation ++ " latency"

end LineFault

/-- How a line that cannot be read is reported. -/
def LineError.toFailure (e : LineError) : Failure :=
  if e.fault = .noOperationName then .fault Fault.noText
  else .reported .logParse e.fault.message (some (.record [("line", .text e.line)])) none

namespace StatusLine

/-! ## Marks -/

/-- Ends the time of a status line. -/
def timeMarker : List Char := "sec:".toList

/-- Occurs in status lines and nowhere else in a log. -/
def throughputMarker : List Char := "current ops/sec".toList

/-- Occurs in status lines about operations that went wrong. -/
def failureMarker : List Char := "failed".toList

/-- Precedes the latency of an operation. -/
def latencyMarker (operation : List Char) : List Char :=
  operation ++ " AverageLatency(us)=".toList

/-- The line reports throughput and is not about a failure. -/
def isThroughput (line : List Char) : Bool :=
  !Text.contains failureMarker line && Text.contains throughputMarker line

/-! ## Parts of a line -/

/-- The time that a text names: an integer with at most a minus sign before its digits. -/
def timestamp? : List Char → Option Binary64
  | '-' :: cs => (Decimal.natural? cs).map fun n => Decimal.round true ⟨n, 0⟩
  | cs => (Decimal.natural? cs).map fun n => Decimal.round false ⟨n, 0⟩

/-- The point and the digits after it at the start of a text, if there are both. -/
def takeFraction : List Char → List Char
  | '.' :: cs =>
    let digits := cs.takeWhile Char.isDigit
    if digits = [] then [] else '.' :: digits
  | _ => []

/-- The sign at the start of a text. -/
def takeSign : List Char → List Char
  | '+' :: _ => ['+']
  | '-' :: _ => ['-']
  | _ => []

/-- The exponent at the start of a text, if it is complete. -/
def takeExponent : List Char → List Char
  | [] => []
  | c :: cs =>
    let sign := takeSign cs
    let digits := (cs.drop sign.length).takeWhile Char.isDigit
    if (c = 'e' ∨ c = 'E') ∧ digits ≠ [] then c :: (sign ++ digits) else []

/-- The longest numeral at the start of a text: digits, a fraction and an exponent. -/
def numeral (cs : List Char) : List Char :=
  let whole := cs.takeWhile Char.isDigit
  if whole = [] then []
  else
    let fraction := takeFraction (cs.drop whole.length)
    let exponent := takeExponent (cs.drop (whole.length + fraction.length))
    whole ++ fraction ++ exponent

/-- The latency that follows the mark of an operation, blanks before it aside. -/
def latency? (cs : List Char) : Option Binary64 :=
  let text := numeral (Text.trimStart cs)
  if text = [] then none else some (.ofText text)

/-! ## Reading a line -/

/-- Reads a status line.  One that has no latency for the operation gives a sample with
`noLatency`.  The operation is any value and stands for its text. -/
def read (operation : Value) (line : String) : Except LineError Sample :=
  match Text.splitFirst? timeMarker line.toList with
  | none => .error ⟨.noTimeMarker, line⟩
  | some (before, rest) =>
    match timestamp? (Text.trim before) with
    | none => .error ⟨.badTimestamp (String.ofList (Text.trim before)), line⟩
    | some time =>
      match operation.toText? with
      | none => .error ⟨.noOperationName, line⟩
      | some name =>
        match Text.splitFirst? (latencyMarker name) rest with
        | none => .ok ⟨time, noLatency⟩
        | some (_, field) =>
          match latency? field with
          | none => .error ⟨.badLatency (String.ofList name), line⟩
          | some latency => .ok ⟨time, latency⟩

end StatusLine

end LoadTest

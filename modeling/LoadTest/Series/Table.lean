import LoadTest.Series.Basic
/-!
# The table of a series

A series is written as a table of one row per sample, the time and the latency with a tab between
them, and is summed up by its counts and by its first and last time.
-/

namespace LoadTest

/-- A row of two texts, without its line end. -/
def Sample.rowOf (time latency : List Char) : List Char := time ++ '\t' :: latency

/-- The row of a sample, without its line end. -/
def Sample.row (s : Sample) : List Char := rowOf s.time.toText s.latency.toText

namespace Series

/-! ## Rows -/

/-- The rows of samples, each with a line feed at its end. -/
def rows (samples : List Sample) : List Char := samples.flatMap fun s => s.row ++ ['\n']

/-! ## Summary -/

/-- The number of samples, the number of those without a latency, and the times at both ends. -/
structure Summary where
  sampleCount : Nat
  sentinelCount : Nat
  firstTime? : Option Binary64
  lastTime? : Option Binary64
  deriving DecidableEq

/-- The summary before the first sample. -/
def Summary.empty : Summary :=
  { sampleCount := 0, sentinelCount := 0, firstTime? := none, lastTime? := none }

/-- The summary after one more sample.  The first time is kept once there is one. -/
def Summary.add (s : Summary) (sample : Sample) : Summary :=
  { sampleCount := s.sampleCount + 1
    sentinelCount :=
      if sample.latency.eq noLatency then s.sentinelCount + 1 else s.sentinelCount
    firstTime? := s.firstTime?.or (some sample.time)
    lastTime? := some sample.time }

/-- The summary of samples, kept sample by sample. -/
def Summary.ofSamples (samples : List Sample) : Summary := samples.foldl Summary.add .empty

/-- The fields of a summary; times that are not there are left out. -/
def Summary.fields (s : Summary) : List (String × Value) :=
  [("sampleCount", .number (.ofNat s.sampleCount)),
    ("sentinelCount", .number (.ofNat s.sentinelCount))]
  ++ (s.firstTime?.toList.map fun t => ("firstTime", .number t))
  ++ (s.lastTime?.toList.map fun t => ("lastTime", .number t))

/-! ## Writing a table -/

/-- How writing a table ended. -/
inductive Result
  | summary (s : Summary)
  | failed (f : Failure)
  /-- A gap without end is being written. -/
  | endless

/-- What was written, and how it ended. -/
structure Table where
  text : String
  result : Result

/-- The table of lines under options that have been checked.  The rows before a line that cannot be
read are written. -/
def Table.ofLines (o : Options) (lines : List String) : Table :=
  let (samples, ending) := extract o lines
  { text := String.ofList (rows samples)
    result :=
      match ending with
      | .complete => .summary (Summary.ofSamples samples)
      | .stopped e => .failed e.toFailure
      | .endless => .endless }

end Series

end LoadTest

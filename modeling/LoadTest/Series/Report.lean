import LoadTest.Series.Table
import LoadTest.Files.Tree
import LoadTest.Log.Entry
/-!
# Reports

The report on a log file: its table, and what is logged on the way.
-/

namespace LoadTest

/-- What a report logs. -/
inductive ReportEvent
  | started (path : String)
  | completed (path : String) (summary : Series.Summary)

/-- The log entry of an event. -/
def ReportEvent.toEntry : ReportEvent → Entry
  | started path => .note .debug "Extracting samples" [("filePath", .text path)]
  | completed path summary =>
    .note .info "Sample extraction completed" (("filePath", .text path) :: summary.fields)

/-- A report: the table and the log. -/
structure Report where
  table : Series.Table
  events : List ReportEvent

namespace Report

/-- The table of a log file.  The options are checked before the file is opened. -/
def table? (tree : Files.Tree) (path : String) (delta? operation? : Option Value) :
    Series.Table :=
  match Series.Options.resolve delta? operation? with
  | .error e => { text := "", result := .failed e.toFailure }
  | .ok options =>
    match tree.readLines path with
    | .error e => { text := "", result := .failed e.asInput }
    | .ok lines => .ofLines options lines

/-- Reports on a log file.  Completion is logged only if nothing failed. -/
def make (tree : Files.Tree) (path : String) (delta? operation? : Option Value) :
    Report :=
  let table := table? tree path delta? operation?
  { table := table
    events := .started path ::
      (match table.result with
        | .summary s => [.completed path s]
        | _ => []) }

end Report

end LoadTest

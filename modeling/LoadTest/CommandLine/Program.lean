import LoadTest.CommandLine.Options
import LoadTest.Confirmation
import LoadTest.Log.Logger
import LoadTest.Series.Report
import LoadTest.Workload.Generation
/-!
# The tools

A run of a tool from its arguments to its exit code: the reporting tool writes the table of a log,
and the generating tool writes workload files.  A run that fails logs its failure last and has exit
code 1.
-/

namespace LoadTest

namespace CommandLine

/-! ## Endings -/

/-- How a run ends. -/
inductive Ending
  | success
  | failure (f : Failure)
  /-- It does not: a table without end is being written. -/
  | endless

namespace Ending

/-- The run ended, and nothing failed. -/
def succeeded : Ending → Bool
  | success => true
  | _ => false

/-- The exit code; it is set by a failure only. -/
def exitCode : Ending → Nat
  | failure _ => 1
  | _ => 0

/-- What is logged at the end. -/
def entries : Ending → List Entry
  | failure f => [f.toEntry]
  | _ => []

end Ending

/-! ## Outcomes -/

/-- A run of a tool: its output, what it showed the operator, what it logged before its end, how it
ended, and the tree it leaves. -/
structure Outcome where
  output : String := ""
  prompt : String := ""
  events : List Entry := []
  ending : Ending
  tree : Files.Tree

/-- Everything that a run logs. -/
def Outcome.entries (o : Outcome) : List Entry := o.events ++ o.ending.entries

/-- Options, or the failure of what is wrong with the arguments. -/
def accept {α : Type} : Except ArgumentError (Validated α) → Except Failure α
  | .error e => .error e.toFailure
  | .ok (.error e) => .error e.toFailure
  | .ok (.ok options) => .ok options

/-! ## Reporting -/

/-- The name under which the reporting tool logs. -/
def reportName : String := "bench-report"

/-- How a table that was written ends the run. -/
def endingOfTable : Series.Result → Ending
  | .summary _ => .success
  | .failed f => .failure f
  | .endless => .endless

/-- Runs the reporting tool. -/
def report (tree : Files.Tree) (arguments : List String) : Outcome :=
  match accept (ReportOptions.ofArguments arguments) with
  | .error f => { ending := .failure f, tree := tree }
  | .ok o =>
    let r := Report.make tree o.file (some (.number o.delta)) (some o.operation.toValue)
    { output := r.table.text
      events := r.events.map ReportEvent.toEntry
      ending := endingOfTable r.table.result
      tree := tree }

/-! ## Generating -/

/-- The name under which the generating tool logs. -/
def generateName : String := "bench-generate-workload"

/-- How a generation ends the run.  One that was declined has failed. -/
def endingOfGeneration : Except Failure Workload.Outcome → Ending
  | .ok (.generated _ _) => .success
  | .ok (.declined plan) => .failure (Workload.declinedFailure (some (.number plan.numPartitions)))
  | .error f => .failure f

/-- The operator's answer: yes without being asked, or what comes in on the console. -/
def answer (console : Console) (yes : Bool) (_ : Workload.Question) : Except Failure Bool :=
  .ok (yes || console.confirms)

/-- What the operator is shown in a generation. -/
def shown (tree : Files.Tree) (console : Console) (o : GenerateOptions) : String :=
  match Workload.question? tree o.toRequest with
  | some q => if o.yes then "" else console.shown (toString q.numPartitions)
  | none => ""

/-- Runs the generating tool. -/
def generate (tree : Files.Tree) (console : Console) (arguments : List String) : Outcome :=
  match accept (GenerateOptions.ofArguments arguments) with
  | .error f => { ending := .failure f, tree := tree }
  | .ok o =>
    let run := Workload.generate tree o.toRequest (answer console o.yes)
    { prompt := shown tree console o
      events := run.events.map Workload.Event.toEntry
      ending := endingOfGeneration run.result
      tree := run.tree }

end CommandLine

end LoadTest

import LoadTest.CommandLine.Arguments
import LoadTest.CommandLine.Validation
import LoadTest.Series.Options
import LoadTest.Workload.Request
/-!
# Options of the tools

The options of the reporting tool and of the generating tool, with their letters and defaults.
-/

namespace LoadTest

namespace CommandLine

/-! ## Reporting -/

/-- The options of the reporting tool. -/
structure ReportOptions where
  file : String
  delta : Binary64
  operation : Operation

namespace ReportOptions

/-- The names and letters of the options. -/
def specs : List OptionSpec :=
  [⟨"file", 'f', true⟩, ⟨"delta", 'd', true⟩, ⟨"operation", 'p', true⟩]

/-- The message against a log file that is not named. -/
def fileMessage : String := "A log file is required (-f/--file)"

/-- Checks the values of the options. -/
def ofValue (values? : Option Value) : Validated ReportOptions := do
  let values ← checkRecord values?
  (validate values "file" (required fileMessage) (refuse [fileMessage])).map ReportOptions.mk
    |> (Validated.and · (validate values "delta" count (.ok (.ofNat Series.defaultDelta))))
    |> (Validated.and · (validate values "operation"
        (choice (Operation.all.map (·.name)) Operation.ofName?) (.ok Series.defaultOperation)))

/-- Reads the options from arguments. -/
def ofArguments (arguments : List String) :
    Except ArgumentError (Validated ReportOptions) :=
  (CommandLine.values specs arguments).map fun fields => ofValue (some (.record fields))

end ReportOptions

/-! ## Generating -/

/-- The options of the generating tool. -/
structure GenerateOptions where
  recordCount : Binary64
  operationCount : Binary64
  insertCount : Binary64
  hosts : String
  threadCount : Binary64
  template : String
  output : String
  yes : Bool

namespace GenerateOptions

/-- The names and letters of the options. -/
def specs : List OptionSpec :=
  [⟨"recordcount", 'r', true⟩, ⟨"operationcount", 'o', true⟩, ⟨"insertcount", 'i', true⟩,
    ⟨"hosts", 'n', true⟩, ⟨"threadcount", 'c', true⟩, ⟨"template", 't', true⟩,
    ⟨"output", 'f', true⟩, ⟨"yes", 'y', false⟩]

/-- The message against a template that is not named. -/
def templateMessage : String := "A template file is required (-t/--template)"

/-- Checks the values of the options. -/
def ofValue (values? : Option Value) : Validated GenerateOptions := do
  let values ← checkRecord values?
  let counted (name : String) (default : Nat) :=
    validate values name count (.ok (Binary64.ofNat default))
  let texted (name default : String) := validate values name nonEmpty (.ok default)
  (counted "recordcount" 500000000).map GenerateOptions.mk
    |> (Validated.and · (counted "operationcount" 10000000))
    |> (Validated.and · (counted "insertcount" 25000000))
    |> (Validated.and · (texted "hosts" "queenbee"))
    |> (Validated.and · (counted "threadcount" 100))
    |> (Validated.and · (validate values "template" (required templateMessage)
        (refuse [templateMessage])))
    |> (Validated.and · (texted "output" "workload"))
    |> (Validated.and · (validate values "yes" flag (.ok false)))

/-- Reads the options from arguments. -/
def ofArguments (arguments : List String) :
    Except ArgumentError (Validated GenerateOptions) :=
  (CommandLine.values specs arguments).map fun fields => ofValue (some (.record fields))

/-- The request that the options make. -/
def toRequest (o : GenerateOptions) : Request :=
  { recordCount := some (.number o.recordCount)
    operationCount := some (.number o.operationCount)
    insertCountPerPartition := some (.number o.insertCount)
    hosts := some (.text o.hosts)
    threadCount := some (.number o.threadCount)
    templatePath := o.template
    outputPathPrefix := o.output }

end GenerateOptions

end CommandLine

end LoadTest

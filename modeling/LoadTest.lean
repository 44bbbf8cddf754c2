import LoadTest.CommandLine.Program
import LoadTest.Log.Line
import LoadTest.Main
import LoadTest.Proofs.Binary64.Rounding
import LoadTest.Proofs.Binary64.Whole
import LoadTest.Proofs.Series.ExpectedTime
import LoadTest.Proofs.Series.ClosedForm
import LoadTest.Proofs.Series.Order
import LoadTest.Proofs.Series.Density
import LoadTest.Proofs.Series.Gaps
import LoadTest.Proofs.Series.Growth
import LoadTest.Proofs.Series.Stopping
import LoadTest.Proofs.Series.Operations
import LoadTest.Proofs.Partition.Tiling
import LoadTest.Proofs.Files.Frame
import LoadTest.Proofs.Files.Siblings
import LoadTest.Proofs.Template.BuiltIns
import LoadTest.Proofs.Template.Failing
import LoadTest.Proofs.Template.Pieces
import LoadTest.Proofs.Template.Filling
import LoadTest.Proofs.Template.Missing
import LoadTest.Proofs.Workload.ExactOutput
import LoadTest.Proofs.Workload.NoPartialOutput
import LoadTest.Proofs.Workload.WriteFailure
import LoadTest.Proofs.Report.Outcome
import LoadTest.Proofs.CommandLine.Accepted
import LoadTest.Proofs.Workload.Repetition
import LoadTest.Proofs.Files.Exchange
import LoadTest.Proofs.Workload.Independence
import LoadTest.Proofs.CommandLine.ExitStatus
import LoadTest.Proofs.StatusLog.Numeral
import LoadTest.Proofs.StatusLog.Grammar
import LoadTest.Proofs.StatusLog.Printing
import LoadTest.Proofs.Text.Search
import LoadTest.Proofs.StatusLog.Timestamp
import LoadTest.Proofs.Series.Ending
import LoadTest.Proofs.Template.Scan
import LoadTest.Proofs.Template.Occurrences
import LoadTest.Proofs.Template.Listed
import LoadTest.Proofs.Text.Lines
import LoadTest.Proofs.Text.Utf8
import LoadTest.Proofs.Console.FirstLine
import LoadTest.Proofs.Report.LineEnds
import LoadTest.Proofs.Binary64.NumberText
import LoadTest.Proofs.Series.Rows
import LoadTest.Proofs.CommandLine.Settings
import LoadTest.Proofs.CommandLine.Judgement
import LoadTest.Proofs.CommandLine.Faithful

import LoadTest.Partition
import LoadTest.Template.Context
/-!
# Workload requests

What a workload is generated from, and the context in which the template of one partition is
rendered.
-/

namespace LoadTest

/-- A request for workload files.  The number of records and that of records per partition are
checked when the request is planned; all parameters are passed to the template as they are. -/
structure Request where
  recordCount : Option Value
  operationCount : Option Value
  insertCountPerPartition : Option Value
  hosts : Option Value
  threadCount : Option Value
  templatePath : String
  outputPathPrefix : String

namespace Workload

/-- Parameters that are the same in every workload. -/
def defaults : List (String × Value) :=
  [("fieldlength", .number 200),
    ("fieldcount", .number 10),
    ("workload", .text "com.yahoo.ycsb.workloads.CoreWorkload"),
    ("readallfields", .text "true"),
    ("readproportion", .number (Decimal.round false ⟨9, -1⟩)),
    ("updateproportion", .number (Decimal.round false ⟨1, -1⟩)),
    ("scanproportion", .number 0),
    ("insertproportion", .number 0),
    ("requestdistribution", .text "uniform"),
    ("readconsistencylevel", .text "QUORUM"),
    ("writeconsistencylevel", .text "QUORUM")]

/-- The parameters of the partition with a start and a count. -/
def parameters (r : Request) (insertStart insertCount : Option Value) :
    List (String × Option Value) :=
  [("recordcount", r.recordCount),
    ("operationcount", r.operationCount),
    ("insertstart", insertStart),
    ("insertcount", insertCount)]
  ++ (defaults.map fun (name, v) => (name, some v))
  ++ [("hosts", r.hosts), ("threadcount", r.threadCount)]

/-- The context of a partition: its parameters. -/
def context (r : Request) (p : Partition) : Template.Context :=
  (parameters r (some (.number p.insertStart)) (some (.number p.insertCount))).map
    fun (name, v?) => (name, .ofValue v?)

end Workload

end LoadTest

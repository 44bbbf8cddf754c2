import LoadTest.Failure
/-!
# Partition plans

The key space of a benchmark is loaded in partitions of equal size.  A plan lists them in order: the
partition of index `i` starts at record `i` times the insert count and holds that many records, so
that together they reach the record count and the last one may reach past it.
-/

namespace LoadTest

/-- One share of the key space: its number, its first record and how many records it holds. -/
structure Partition where
  index : Binary64
  insertStart : Binary64
  insertCount : Binary64
  deriving DecidableEq

/-- The partitions of a key space. -/
structure Plan where
  numPartitions : Binary64
  partitions : List Partition
  deriving DecidableEq

/-! ## Causes of failure -/

/-- Why there is no plan. -/
inductive PlanError
  /-- The value of that name is missing or is no safe integer above zero. -/
  | notPositive (name : String) (value? : Option Value)
  /-- There are fewer records than one partition holds. -/
  | tooFewRecords (recordCount insertCount : Binary64)
  /-- There are more partitions than a list can hold. -/
  | tooMany

namespace PlanError

/-- The wording of a cause. -/
def message : PlanError → String
  | notPositive name _ => name ++ " must be a positive integer"
  | tooFewRecords _ _ => "Record count must not be smaller than the insert count per partition"
  | tooMany => "Invalid array length"

/-- How a cause is reported. -/
def toFailure (e : PlanError) : Failure :=
  match e with
  | notPositive name value? =>
    .reported .invalidConfiguration e.message
      (some (.record (Value.given [(name, value?)]))) none
  | tooFewRecords recordCount insertCount =>
    .reported .invalidConfiguration e.message
      (some (.record [("recordCount", .number recordCount),
        ("insertCountPerPartition", .number insertCount)])) none
  | tooMany => .fault { sort := .outOfRange, message := e.message }

end PlanError

namespace Plan

/-! ## Making a plan -/

/-- The most partitions a plan may have. -/
def maxPartitions : Nat := Nat.pow 2 32 - 1

/-- A value as a count: a safe integer above zero. -/
def count (name : String) (value? : Option Value) : Except PlanError Binary64 :=
  match value? with
  | some (.number x) =>
    if x.isSafeInteger ∧ 0 < x then .ok x else .error (.notPositive name value?)
  | _ => .error (.notPositive name value?)

/-- The partition of an index. -/
def partition (insertCount : Binary64) (i : Nat) : Partition :=
  { index := .ofNat i, insertStart := .ofNat i * insertCount, insertCount := insertCount }

/-- The plan for a number of records and the number of records per partition: as many partitions as
it takes to reach the record count. -/
def make (recordCount insertCount : Option Value) : Except PlanError Plan := do
  let records ← count "recordCount" recordCount
  let perPartition ← count "insertCountPerPartition" insertCount
  if records < perPartition then throw (.tooFewRecords records perPartition)
  let numPartitions := (records / perPartition).ceil
  let n := (numPartitions.toInt?.getD 0).toNat
  if maxPartitions < n then throw .tooMany
  return { numPartitions := numPartitions
           partitions := (List.range n).map (partition perPartition) }

end Plan

end LoadTest

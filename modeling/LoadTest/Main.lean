import LoadTest.CommandLine.Program
import LoadTest.Log.Line
/-!
# The command line

The first argument names the tool, `report` or `generate`, and the others are its own.  The tool is
run on a tree of the places that its options name, and what changed in the tree is written back.
-/

namespace LoadTest

namespace CommandLine

/-! ## Files -/

/-- The path of a place. -/
def pathOf (place : Files.Place) : String := "/" ++ "/".intercalate place

/-- What stands at a place of the file system. -/
def itemAt? (place : Files.Place) : IO (Option Files.Item) := do
  if ← ((← IO.currentDir) / pathOf place).isDir then return some .directory
  try
    return some (.file (← IO.FS.readBinFile (pathOf place)).toList)
  catch _ => return none

/-- The tree with nothing in it but the working directory. -/
def emptyTree : IO Files.Tree := do
  return { home := (Files.Path.ofString (← IO.currentDir).toString).names }

/-- Loads what stands along a path. -/
def load (tree : Files.Tree) (path : String) : IO Files.Tree := do
  let p := Files.Path.ofString path
  let mut tree := tree
  let mut place := if p.isAbsolute then [] else tree.home
  for name in p.names do
    place :=
      if name = "." then place else if name = ".." then place.dropLast else place ++ [name]
    if let some item ← itemAt? place then tree := tree.put place item
  return tree

/-- Writes the files that a run changed. -/
def store (before after : Files.Tree) : IO Unit := do
  for (place, item) in after.items do
    if before.item? place ≠ some item then
      if let .file bytes := item then
        IO.FS.writeBinFile (pathOf place) (ByteArray.mk bytes.toArray)

/-! ## Running a tool -/

/-- Writes the records of entries, one per line. -/
def emit (logger : Logger) (entries : List Entry) : IO Unit := do
  match logger.records entries with
  | .ok records =>
    for v in records do
      IO.eprintln (String.ofList v.toLine)
  | .error f => IO.eprintln f.message

/-- Finishes a run whose first `shown` entries are on record already. -/
def finish (logger : Logger) (before : Files.Tree) (o : Outcome) (shown : Nat) : IO UInt32 := do
  store before o.tree
  IO.print o.output
  emit logger (o.entries.drop shown)
  return UInt32.ofNat o.ending.exitCode

/-- Runs the reporting tool on the file system. -/
def runReport (level : Level) (arguments : List String) : IO UInt32 := do
  let logger : Logger := { name? := some (.text reportName), level? := some level }
  let tree ← emptyTree
  let tree ←
    match accept (ReportOptions.ofArguments arguments) with
    | .ok o => load tree o.file
    | .error _ => pure tree
  finish logger tree (report tree arguments) 0

/-- Runs the generating tool on the file system.  The operator sees what was planned before the
question is put. -/
def runGenerate (level : Level) (arguments : List String) : IO UInt32 := do
  let logger : Logger := { name? := some (.text generateName), level? := some level }
  let tree ← emptyTree
  match accept (GenerateOptions.ofArguments arguments) with
  | .error _ => finish logger tree (generate tree {} arguments) 0
  | .ok o =>
    let r := o.toRequest
    let tree ← load tree r.templatePath
    let paths :=
      match (Workload.prepare tree r).2 with
      | .ok draft => draft.plan.partitions.map fun (p : Partition) =>
        Workload.filePath r.outputPathPrefix p.index
      | .error _ => []
    let tree ← paths.foldlM load tree
    let planned := (Workload.prepare tree r).1
    emit logger (planned.map Workload.Event.toEntry)
    let stdin ← IO.getStdin
    let console : Console := { isTerminal := ← stdin.isTty }
    let question := shown tree console o
    IO.eprint question
    let line ← if question = "" then pure "" else stdin.getLine
    let console := { console with input := Utf8.encode line.toList }
    finish logger tree (generate tree console arguments) planned.length

end CommandLine

end LoadTest

open LoadTest in
/-- Runs the tool that the first argument names. -/
def main (arguments : List String) : IO UInt32 := do
  let environment : Environment := { current? := ← IO.getEnv "LOG_LEVEL" }
  match environment.reload.level with
  | .error u =>
    IO.eprintln u.message
    return 1
  | .ok level =>
    match arguments with
    | "report" :: rest => CommandLine.runReport level rest
    | "generate" :: rest => CommandLine.runGenerate level rest
    | _ =>
      IO.eprintln "The first argument names a tool, report or generate."
      return 1

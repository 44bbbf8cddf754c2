import LoadTest.Workload.Config
import LoadTest.Template.Placeholder
import LoadTest.Files.Tree
import LoadTest.Log.Entry
/-!
# Generating workload files

A request is planned and its template is read; then the operator is asked, and only if the answer is
yes the files are written, one partition after the other.  A run stops at the first file that cannot
be rendered or written, and the files before it stay.
-/

namespace LoadTest

namespace Workload

/-! ## Log -/

/-- What a generation logs. -/
inductive Event
  | planned (numPartitions : Binary64) (recordCount insertCount : Option Value)
  /-- The template has placeholders that the context does not hold. -/
  | unresolved (templatePath : String) (names : List String)
  | declined (numPartitions : Binary64)
  | written (path : String) (insertStart : Binary64)
  | completed (fileCount : Nat)

/-- The log entry of an event. -/
def Event.toEntry : Event → Entry
  | planned numPartitions recordCount insertCount =>
    .note .info "Partition plan computed" (Value.given
      [("numPartitions", some (.number numPartitions)), ("recordCount", recordCount),
        ("insertCountPerPartition", insertCount)])
  | unresolved templatePath names =>
    .note .warn "Template references parameters that will render empty"
      [("templatePath", .text templatePath), ("placeholders", .list (names.map .text))]
  | declined numPartitions =>
    .note .info "Workload generation declined" [("numPartitions", .number numPartitions)]
  | written path insertStart =>
    .note .debug "Workload file written"
      [("path", .text path), ("insertStart", .number insertStart)]
  | completed fileCount =>
    .note .info "Workload files generated" [("fileCount", .number (.ofNat fileCount))]

/-! ## Question -/

/-- What the operator is asked to confirm. -/
structure Question where
  numPartitions : Binary64
  outputPathPrefix : String

/-- The report that the operator said no to a number of partitions, if that is known. -/
def declinedFailure (numPartitions? : Option Value) : Failure :=
  .reported .generationDeclined "Workload generation was declined, no files were written"
    (some (.record (Value.given [("numPartitions", numPartitions?)]))) none

/-! ## Preparation -/

/-- A request that is ready to be written: its plan and the text of its template. -/
structure Draft where
  request : Request
  plan : Plan
  template : String

/-- What the operator is asked about a draft. -/
def Draft.question (d : Draft) : Question :=
  { numPartitions := d.plan.numPartitions, outputPathPrefix := d.request.outputPathPrefix }

/-- The placeholders of a draft that the context of its first partition does not hold. -/
def Draft.unresolved (d : Draft) : List String :=
  match d.plan.partitions with
  | [] => []
  | p :: _ => Template.unresolved d.template (context d.request p)

/-- Plans a request and reads its template. -/
def prepare (tree : Files.Tree) (r : Request) : List Event × Except Failure Draft :=
  match Plan.make r.recordCount r.insertCountPerPartition with
  | .error e => ([], .error e.toFailure)
  | .ok plan =>
    let planned := Event.planned plan.numPartitions r.recordCount r.insertCountPerPartition
    match tree.readText r.templatePath with
    | .error e => ([planned], .error e.asInput)
    | .ok template =>
      let draft : Draft := { request := r, plan := plan, template := template }
      let names := draft.unresolved
      (planned :: (if names = [] then [] else [.unresolved r.templatePath names]), .ok draft)

/-! ## Writing -/

/-- The tree after some files were written, these files, and what ended the writing early. -/
structure Progress where
  tree : Files.Tree
  written : List Config
  failure? : Option Failure

/-- Writes the files of partitions after those in `done`, which come last first. -/
def writeFrom (template : String) (r : Request) (tree : Files.Tree) (done : List Config) :
    List Partition → Progress
  | [] => { tree := tree, written := done.reverse, failure? := none }
  | p :: ps =>
    match config template r p with
    | .error e => { tree := tree, written := done.reverse, failure? := some e.toFailure }
    | .ok c =>
      match tree.writeText c.path c.content with
      | .error e => { tree := tree, written := done.reverse, failure? := some e.asOutput }
      | .ok tree => writeFrom template r tree (c :: done) ps

/-! ## Result -/

/-- How a generation ended, if nothing failed. -/
inductive Outcome
  | generated (plan : Plan) (files : List String)
  | declined (plan : Plan)

/-- A generation: what it logged, how it ended and the tree it leaves. -/
structure Run where
  events : List Event
  result : Except Failure Outcome
  tree : Files.Tree

/-- Ends a draft with the operator's answer. -/
def Draft.finish (d : Draft) (tree : Files.Tree) (confirmed : Bool) : Run :=
  if confirmed then
    let progress := writeFrom d.template d.request tree [] d.plan.partitions
    let written := progress.written.map fun c => Event.written c.path c.partition.insertStart
    match progress.failure? with
    | some f => { events := written, result := .error f, tree := progress.tree }
    | none =>
      let files := progress.written.map (·.path)
      { events := written ++ [.completed files.length]
        result := .ok (.generated d.plan files), tree := progress.tree }
  else
    { events := [.declined d.plan.numPartitions], result := .ok (.declined d.plan), tree := tree }

/-- Generates the files of a request.  The operator is asked only about a draft. -/
def generate (tree : Files.Tree) (r : Request) (confirm : Question → Except Failure Bool) : Run :=
  match prepare tree r with
  | (events, .error f) => { events := events, result := .error f, tree := tree }
  | (events, .ok draft) =>
    match confirm draft.question with
    | .error f => { events := events, result := .error f, tree := tree }
    | .ok confirmed =>
      let run := draft.finish tree confirmed
      { run with events := events ++ run.events }

/-- What the operator is asked in a generation, if it comes to that. -/
def question? (tree : Files.Tree) (r : Request) : Option Question :=
  match (prepare tree r).2 with
  | .ok draft => some draft.question
  | .error _ => none

end Workload

end LoadTest

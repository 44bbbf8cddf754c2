import LoadTest.Workload.Request
import LoadTest.Template.Render
/-!
# Workload files

The file of each partition: where it stands and what is in it.
-/

namespace LoadTest

namespace Workload

/-- A path of two parts with an underscore between them. -/
def pathOf (start index : String) : String := start ++ "_" ++ index

/-- The path of the file of an index, which follows the common start of all paths. -/
def filePath (start : String) (index : Binary64) : String := pathOf start (toString index)

/-- The file of a partition. -/
structure Config where
  partition : Partition
  path : String
  content : String

/-- Renders the file of a partition. -/
def config (template : String) (r : Request) (p : Partition) : Except Template.Error Config :=
  (Template.render template (context r p)).map fun content =>
    { partition := p, path := filePath r.outputPathPrefix p.index, content := content }

/-- The files of partitions after those in `done`, which come last first, up to the first that
cannot be rendered. -/
def configsFrom (template : String) (r : Request) (done : List Config) :
    List Partition → List Config × Option Template.Error
  | [] => (done.reverse, none)
  | p :: ps =>
    match config template r p with
    | .ok c => configsFrom template r (c :: done) ps
    | .error e => (done.reverse, some e)

/-- The files of partitions in order, up to the first that cannot be rendered. -/
def configs (template : String) (r : Request) (ps : List Partition) :
    List Config × Option Template.Error :=
  configsFrom template r [] ps

end Workload

end LoadTest

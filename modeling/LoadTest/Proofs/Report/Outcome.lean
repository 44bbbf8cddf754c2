import LoadTest.Proofs.Files.Frame
import LoadTest.Proofs.Series.Stopping
import LoadTest.Series.Report

/-!
# How a report ends

A report fails for its options, for its file, or at the first status line that is rejected, and for
nothing else.

* `Series.Given`: options as they were given, with the defaults; `given_cases` says that these and
  no others are accepted.
* `table?_of_badStep`, `table?_of_unreadable`, `table?_of_lines`: the table in each case.
* `ofLines_of_rejected`: the table of a log with a rejected line.
* `Outcome`: how a report has to end; `make_outcome` says that it does.
-/

namespace LoadTest

/-! ## Options -/

namespace Series

/-- A value that can be the step of a series: a whole number above zero. -/
def IsStep (v : Value) : Prop := ∃ x, v = .number x ∧ x.isInteger = true ∧ 0 < x

/-- The options that a step and an operation stand for, each with its default if it is not given. -/
structure Given (delta? operation? : Option Value) (o : Options) : Prop where
  delta : delta?.getD (.number (.ofNat defaultDelta)) = .number o.delta
  operation : operation?.getD defaultOperation.toValue = o.operation

variable {delta? operation? : Option Value} {o : Options} {v : Value}

theorem resolve_of_given (h : Given delta? operation? o) :
    Options.resolve delta? operation? = .ok o := by
  obtain ⟨hdelta, hoperation⟩ := h
  have hstep : o.delta.isInteger = true ∧ 0 < o.delta := ⟨o.isInteger_delta, o.delta_pos⟩
  simp only [Options.resolve, hdelta, hoperation, dif_pos hstep]

theorem isStep_default : IsStep (.number (.ofNat defaultDelta)) :=
  ⟨_, rfl, by decide +kernel, by decide +kernel⟩

theorem exists_given (delta? operation? : Option Value)
    (h : IsStep (delta?.getD (.number (.ofNat defaultDelta)))) :
    ∃ o, Given delta? operation? o := by
  obtain ⟨x, hx, hinteger, hpos⟩ := h
  exact ⟨{ delta := x, operation := operation?.getD defaultOperation.toValue
           isInteger_delta := hinteger, delta_pos := hpos }, hx, rfl⟩

theorem resolve_of_not_isStep (h : ¬ IsStep v) (operation? : Option Value) :
    Options.resolve (some v) operation? = .error (.badDelta v) := by
  unfold Options.resolve
  cases v with
  | number x =>
    have hnot : ¬ (x.isInteger = true ∧ 0 < x) := fun hx => h ⟨x, rfl, hx⟩
    simp only [Option.getD_some, dif_neg hnot]
  | _ => rfl

/-- **Options are accepted or the step is none.** -/
theorem given_cases (delta? operation? : Option Value) :
    (∃ o, Given delta? operation? o) ∨ ∃ v, delta? = some v ∧ ¬ IsStep v := by
  cases delta? with
  | none => exact .inl (exists_given none operation? isStep_default)
  | some v =>
    by_cases hstep : IsStep v
    · exact .inl (exists_given (some v) operation? hstep)
    · exact .inr ⟨v, rfl, hstep⟩

/-! ## Tables -/

variable {lines before : List String} {line : String} {e : LineError}

theorem text_ofLines (o : Options) (lines : List String) :
    (Table.ofLines o lines).text = String.ofList (rows (extract o lines).1) := rfl

/-- The table of lines that can all be read ends with a summary. -/
theorem ofLines_of_inOrder (hlines : ∀ l ∈ lines, InOrder o l) :
    Table.ofLines o lines
      = { text := (Table.ofLines o lines).text
          result := .summary (Summary.ofSamples (extract o lines).1) } := by
  rw [text_ofLines]
  simp only [Table.ofLines, extract_of_inOrder hlines]

/-- **The table of a log with a rejected line** has the rows of the lines before it. -/
theorem ofLines_of_rejected (hbefore : ∀ l ∈ before, InOrder o l)
    (h : rejection? o line = some e) (rest : List String) :
    Table.ofLines o (before ++ line :: rest)
      = { text := (Table.ofLines o before).text, result := .failed e.toFailure } := by
  rw [text_ofLines]
  simp only [Table.ofLines, extract_of_rejected hbefore h]

end Series

namespace Report

open Series

variable {tree : Files.Tree} {path : String} {delta? operation? : Option Value} {o : Options}

/-! ## Tables of files -/

theorem table?_of_badStep {v : Value} (h : ¬ IsStep v) :
    table? tree path (some v) operation?
      = { text := "", result := .failed (OptionsError.badDelta v).toFailure } := by
  rw [table?, resolve_of_not_isStep h]

theorem table?_of_unreadable {e : Files.Error} (ho : Given delta? operation? o)
    (h : tree.readLines path = .error e) :
    table? tree path delta? operation? = { text := "", result := .failed e.asInput } := by
  rw [table?, resolve_of_given ho]
  simp only [h]

theorem table?_of_lines {lines : List String} (ho : Given delta? operation? o)
    (h : tree.readLines path = .ok lines) :
    table? tree path delta? operation? = .ofLines o lines := by
  rw [table?, resolve_of_given ho]
  simp only [h]

/-! ## Reports -/

/-- A report that failed after some text was written.  Only its start is logged. -/
def failed (path text : String) (f : Failure) : Report :=
  { table := { text := text, result := .failed f }, events := [.started path] }

/-- A report that was completed, which is logged with its summary. -/
def completed (path text : String) (s : Summary) : Report :=
  { table := { text := text, result := .summary s }
    events := [.started path, .completed path s] }

theorem make_of_failed {text : String} {f : Failure}
    (h : table? tree path delta? operation? = { text := text, result := .failed f }) :
    make tree path delta? operation? = failed path text f := by
  simp only [make, h]
  rfl

theorem make_of_summary {text : String} {s : Summary}
    (h : table? tree path delta? operation? = { text := text, result := .summary s }) :
    make tree path delta? operation? = completed path text s := by
  simp only [make, h]
  rfl

/-- A report on lines that are all in order is completed. -/
theorem make_of_inOrder {lines : List String} (ho : Given delta? operation? o)
    (h : tree.readLines path = .ok lines) (hlines : ∀ l ∈ lines, InOrder o l) :
    make tree path delta? operation?
      = completed path (Table.ofLines o lines).text (Summary.ofSamples (extract o lines).1) :=
  make_of_summary ((table?_of_lines ho h).trans (ofLines_of_inOrder hlines))

/-- **How a report has to end.**  Each field names what it is about, with what is written, how it
ends and what is logged. -/
structure Outcome (tree : Files.Tree) (path : String) (delta? operation? : Option Value)
    (r : Report) : Prop where
  /-- The step is checked before the file is looked at. -/
  badStep : ∀ v, delta? = some v → ¬ IsStep v →
    r = failed path "" (.reported .invalidConfiguration
      "Delta must be a positive number of seconds" (some (.record [("deltaSeconds", v)])) none)
  missing : ∀ o, Given delta? operation? o → ∀ e, tree.readLines path = .error e →
    e.cause = .notFound →
      r = failed path "" (.reported .inputFileNotFound
        ("Input file \"" ++ path ++ "\" does not exist") (some (.record [("filePath", .text path)]))
        (some (.fault e.toFault)))
  unreadable : ∀ o, Given delta? operation? o → ∀ e, tree.readLines path = .error e →
    e.cause ≠ .notFound → r = failed path "" (.fault e.toFault)
  /-- The first line that is rejected, whatever follows it.  What was written is what a report on
  the lines before it writes, and that one is completed.  The error has the line in it; only for an
  operation without a text it cannot be worded. -/
  rejected : ∀ o, Given delta? operation? o → ∀ lines, tree.readLines path = .ok lines →
    ∀ before line rest e, lines = before ++ line :: rest →
      (∀ l ∈ before, rejection? o l = none) → rejection? o line = some e →
        ∃ s, r = failed path (Table.ofLines o before).text e.toFailure ∧
          (∀ cut : Files.Tree, cut.readLines path = .ok before →
            make cut path delta? operation? = completed path (Table.ofLines o before).text s) ∧
          (o.operation.toText?.isSome = true → e.toFailure
            = .reported .logParse e.fault.message (some (.record [("line", .text line)])) none)
  /-- No other line makes a report fail. -/
  complete : ∀ o, Given delta? operation? o → ∀ lines, tree.readLines path = .ok lines →
    (∀ l ∈ lines, rejection? o l = none) →
      r = completed path (Table.ofLines o lines).text (Summary.ofSamples (extract o lines).1)

/-- **A report ends as it has to**, if the timestamps of its file are safe integers where they can
be read.  The options and the file may be any. -/
theorem make_outcome (tree : Files.Tree) (path : String) (delta? operation? : Option Value)
    (htimes : ∀ lines, tree.readLines path = .ok lines → ∀ l ∈ lines, SafeTime l) :
    ((∃ o, Given delta? operation? o) ∨ ∃ v, delta? = some v ∧ ¬ IsStep v) ∧
      Outcome tree path delta? operation? (make tree path delta? operation?) := by
  refine ⟨given_cases delta? operation?, ?_, ?_, ?_, ?_, ?_⟩
  · rintro v rfl hstep
    exact make_of_failed (table?_of_badStep hstep)
  · intro o ho e he hcause
    rw [make_of_failed (table?_of_unreadable ho he), Files.Error.asInput, if_pos hcause,
      Files.Tree.path_of_readLines he]
  · intro o ho e he hcause
    rw [make_of_failed (table?_of_unreadable ho he), Files.Error.asInput, if_neg hcause]
  · rintro o ho lines hlines before line rest e rfl hbefore hline
    have horder : ∀ l ∈ before, InOrder o l := fun l hl =>
      inOrder_of_safeTime (htimes _ hlines l (List.mem_append_left _ hl)) (hbefore l hl)
    obtain ⟨hat, hname⟩ := StatusLine.fault_of_read (rejection?_eq_some_iff.1 hline).2
    refine ⟨_, ?_, fun cut hcut => make_of_inOrder ho hcut horder, ?_⟩
    · exact make_of_failed
        ((table?_of_lines ho hlines).trans (ofLines_of_rejected horder hline rest))
    · intro hsome
      rw [LineError.toFailure, if_neg (hname hsome), hat]
  · intro o ho lines hlines hall
    exact make_of_inOrder ho hlines fun l hl =>
      inOrder_of_safeTime (htimes _ hlines l hl) (hall l hl)

/-- A log with lines of three kinds of ends, a failure that is no status line, and two lines that
cannot be read. -/
def brokenTree : Files.Tree :=
  { items := [(["run.log"], .file (Utf8.encode (
      "Command line: -load\n" ++
      "20 sec: 9 operations; 9 current ops/sec; [READ AverageLatency(us)=80]\r\n" ++
      "? sec: 9 operations; 9 current ops/sec; 3 failed\r" ++
      "50 sec: 18 operations; 9 current ops/sec; [READ AverageLatency(us)=x]\n" ++
      "no time; 9 current ops/sec;").toList))] }

/-- The report stops at the fourth line, whichever faults come after it. -/
theorem make_outcome_brokenTree :
    (∀ lines, brokenTree.readLines "run.log" = .ok lines → ∀ l ∈ lines, SafeTime l) ∧
      ((∃ o, Given none none o) ∨ ∃ v, none = some v ∧ ¬ IsStep v) ∧
      Outcome brokenTree "run.log" none none (make brokenTree "run.log" none none) := by
  have hlines : brokenTree.readLines "run.log" = .ok
      ["Command line: -load",
        "20 sec: 9 operations; 9 current ops/sec; [READ AverageLatency(us)=80]",
        "? sec: 9 operations; 9 current ops/sec; 3 failed",
        "50 sec: 18 operations; 9 current ops/sec; [READ AverageLatency(us)=x]",
        "no time; 9 current ops/sec;"] := by
    decide +kernel
  have htimes : ∀ lines, brokenTree.readLines "run.log" = .ok lines → ∀ l ∈ lines, SafeTime l := by
    intro lines h
    rw [hlines] at h
    cases h
    decide +kernel
  exact ⟨htimes, make_outcome brokenTree "run.log" none none htimes⟩

end Report

end LoadTest

import LoadTest.Series.Basic
/-!
# A series, line by line

A series is made in passes that carry what they have found so far.  Here the passes are undone: what
was found before only stands in front (`walk_eq`, `extractBlocks_eq`), and so the
series from an expected time on, `extractFrom`, has one equation for each thing a line can be:

* `extractFrom_skipped` — the expected time moves on and nothing is added;
* `extractFrom_unreadable` — the series stops;
* `extractFrom_endless` — the steps up to the line never end;
* `extractFrom_read` — the samples of one block, then the series from the time after it.
-/

namespace LoadTest

namespace Series

/-! ## What was found before -/

theorem walk_eq (o : Options) (expected : Binary64) (done : List Block) (lines : List String) :
    walk o expected done lines
      = (done.reverse ++ (walk o expected [] lines).1, (walk o expected [] lines).2) := by
  induction lines generalizing expected done with
  | nil => simp [walk]
  | cons line lines ih =>
    simp only [walk]
    split
    · split
      · simp
      · rename_i sample _
        rw [ih _ (_ :: done), ih _ [_]]
        simp
    · exact ih _ done

theorem extractBlocks_eq (delta : Binary64) (atEnd : Ending) (done : List Sample)
    (bs : List Block) :
    extractBlocks delta atEnd done bs
      = (done.reverse ++ (extractBlocks delta atEnd [] bs).1,
          (extractBlocks delta atEnd [] bs).2) := by
  induction bs generalizing done with
  | nil => simp [extractBlocks]
  | cons b bs ih =>
    simp only [extractBlocks]
    split
    · rename_i samples _
      rw [ih (samples.reverse ++ done), ih (samples.reverse ++ [])]
      simp
    · simp

/-! ## Missed steps, one at a time -/

theorem stepsFrom?_of_not_lt {delta stop time : Binary64} {done : List Binary64}
    (h : ¬ time < stop) : stepsFrom? delta stop done time = some done.reverse := by
  rw [stepsFrom?, if_neg h]

theorem stepsFrom?_of_lt {delta stop time : Binary64} {done : List Binary64} (h : time < stop)
    (hmove : time < time + delta) :
    stepsFrom? delta stop done time = stepsFrom? delta stop (time :: done) (time + delta) := by
  rw [stepsFrom?, if_pos h, dif_pos hmove]

theorem stepsFrom?_of_stuck {delta stop time : Binary64} {done : List Binary64} (h : time < stop)
    (hstuck : ¬ time < time + delta) : stepsFrom? delta stop done time = none := by
  rw [stepsFrom?, if_pos h, dif_neg hstuck]

/-! ## The series from an expected time on -/

/-- The time expected after a status line: that of the line, unless it was the expected one. -/
def timeAfter (now : Binary64) (sample : Sample) : Binary64 :=
  if sample.time.eq now then now else sample.time

/-- The samples of lines before which a time was expected, and how they end. -/
def extractFrom (o : Options) (expected : Binary64) (lines : List String) : List Sample × Ending :=
  let (bs, error?) := walk o expected [] lines
  extractBlocks o.delta (match error? with | some e => .stopped e | none => .complete) [] bs

theorem extract_eq_extractFrom (o : Options) (lines : List String) :
    extract o lines = extractFrom o (0 - o.delta) lines := rfl

variable {o : Options} {expected : Binary64} {line : String} {lines : List String}

/-- **A skipped line** only moves the expected time on. -/
theorem extractFrom_skipped (h : StatusLine.isThroughput line.toList = false) :
    extractFrom o expected (line :: lines) = extractFrom o (expected + o.delta) lines := by
  simp only [extractFrom, walk, h, Bool.false_eq_true, if_false]

/-- **A status line that cannot be read** ends the series, whatever comes after it. -/
theorem extractFrom_unreadable {e : LineError} (h : StatusLine.isThroughput line.toList = true)
    (he : StatusLine.read o.operation line = .error e) :
    extractFrom o expected (line :: lines) = ([], .stopped e) := by
  simp only [extractFrom, walk, h, he, if_true, List.reverse_nil]
  rfl

/-- **A status line before which the steps never end** is not reached. -/
theorem extractFrom_endless {sample : Sample}
    (h : StatusLine.isThroughput line.toList = true)
    (hread : StatusLine.read o.operation line = .ok sample)
    (hblock : Block.samples? o.delta ⟨expected + o.delta, sample⟩ = none) :
    extractFrom o expected (line :: lines) = ([], .endless) := by
  simp only [extractFrom, walk, h, hread, if_true]
  rw [walk_eq]
  simp only [List.reverse_cons, List.reverse_nil, List.nil_append, List.singleton_append,
    extractBlocks, hblock]

/-- **A status line that is read** adds its block, if that ends, and sets the expected time. -/
theorem extractFrom_read {sample : Sample} {samples : List Sample}
    (h : StatusLine.isThroughput line.toList = true)
    (hread : StatusLine.read o.operation line = .ok sample)
    (hblock : Block.samples? o.delta ⟨expected + o.delta, sample⟩ = some samples) :
    extractFrom o expected (line :: lines)
      = (samples ++ (extractFrom o (timeAfter (expected + o.delta) sample) lines).1,
          (extractFrom o (timeAfter (expected + o.delta) sample) lines).2) := by
  simp only [extractFrom, walk, h, hread, if_true]
  rw [walk_eq]
  simp only [List.reverse_cons, List.reverse_nil, List.nil_append, List.singleton_append,
    extractBlocks, hblock, List.append_nil]
  rw [extractBlocks_eq]
  simp only [List.reverse_reverse, timeAfter]

end Series

end LoadTest

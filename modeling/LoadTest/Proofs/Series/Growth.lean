import LoadTest.Proofs.Series.ClosedForm

/-!
# The series of a log that grows

A log is written while the benchmark runs, so a series may be read from the log of now and again
from the longer log of later.  What was in it stays, and what is added depends on little of what was
there.

* `expectedAfter`: the time that lines hand on to the line after them.
* `extractFrom_append`, `readFrom_append`: the samples of some lines are followed by those of the
  lines after them, from that time on.
* `Output`: all that can be seen of a series, as a whole and up to any number of samples;
  `outputFrom_append` says the same of it.
* `outputFrom_congr`: of the time that is handed on only the next step counts.
* `output_resumes`: after a status line its time is all that counts of the log so far.
-/

namespace LoadTest

namespace Series

open Binary64

variable {o : Options} {x y : Binary64} {line : String} {before after lines : List String}
  {samples own : List Sample} {sample : Sample} {n : Nat}

/-! ## The time that is handed on -/

/-- The time that lines hand on to the line after them. -/
def expectedAfter (o : Options) : Binary64 → List String → Binary64
  | x, [] => x
  | x, line :: lines =>
    match lineSample? o line with
    | none => expectedAfter o (x + o.delta) lines
    | some sample => expectedAfter o (timeAfter (x + o.delta) sample) lines

@[simp] theorem expectedAfter_nil (o : Options) (x : Binary64) : expectedAfter o x [] = x := rfl

theorem expectedAfter_of_none (h : lineSample? o line = none) :
    expectedAfter o x (line :: lines) = expectedAfter o (x + o.delta) lines := by
  rw [expectedAfter, h]

theorem expectedAfter_of_some (h : lineSample? o line = some sample) :
    expectedAfter o x (line :: lines)
      = expectedAfter o (timeAfter (x + o.delta) sample) lines := by
  rw [expectedAfter, h]

theorem expectedAfter_append (before after : List String) (x : Binary64) :
    expectedAfter o x (before ++ after) = expectedAfter o (expectedAfter o x before) after := by
  induction before generalizing x with
  | nil => rfl
  | cons line before ih =>
    rw [List.cons_append]
    cases hsample : lineSample? o line with
    | none => rw [expectedAfter_of_none hsample, expectedAfter_of_none hsample, ih]
    | some sample => rw [expectedAfter_of_some hsample, expectedAfter_of_some hsample, ih]

/-- What lines hand on after a status line is that line's own time, as an integer. -/
theorem toInt?_expectedAfter {t : Int} (h : lineSample? o line = some sample)
    (ht : sample.time.toInt? = some t) (before : List String) (x : Binary64) :
    (expectedAfter o x (before ++ [line])).toInt? = some t := by
  rw [expectedAfter_append, expectedAfter_of_some h, expectedAfter_nil]
  exact toInt?_timeAfter _ ht

/-! ## A series that ended with its lines -/

/-- **What the first line of a series that ended with its lines can be**: one that is skipped, or a
status line whose block ends. -/
theorem complete_cases (h : extractFrom o x (line :: lines) = (samples, .complete)) :
    (StatusLine.isThroughput line.toList = false ∧
        extractFrom o (x + o.delta) lines = (samples, .complete)) ∨
      ∃ sample own rest, StatusLine.isThroughput line.toList = true ∧
        StatusLine.read o.operation line = .ok sample ∧
        Block.samples? o.delta ⟨x + o.delta, sample⟩ = some own ∧ samples = own ++ rest ∧
        extractFrom o (timeAfter (x + o.delta) sample) lines = (rest, .complete) := by
  cases hskip : StatusLine.isThroughput line.toList with
  | false =>
    rw [extractFrom_skipped hskip] at h
    exact .inl ⟨rfl, h⟩
  | true =>
    right
    cases hread : StatusLine.read o.operation line with
    | error e =>
      rw [extractFrom_unreadable hskip hread] at h
      cases h
    | ok sample =>
      cases hblock : Block.samples? o.delta ⟨x + o.delta, sample⟩ with
      | none =>
        rw [extractFrom_endless hskip hread hblock] at h
        cases h
      | some own =>
        rw [extractFrom_read hskip hread hblock, Prod.mk.injEq] at h
        obtain ⟨rfl, hend⟩ := h
        exact ⟨sample, own, _, rfl, rfl, hblock, rfl, Prod.ext rfl hend⟩

/-- **A series goes on where its lines ended**: more lines only add what they give from the time
that was handed on. -/
theorem extractFrom_append (after : List String) :
    ∀ (before : List String) (x : Binary64) (samples : List Sample),
      extractFrom o x before = (samples, .complete) →
        extractFrom o x (before ++ after)
          = (samples ++ (extractFrom o (expectedAfter o x before) after).1,
              (extractFrom o (expectedAfter o x before) after).2) := by
  intro before
  induction before with
  | nil =>
    intro x samples h
    cases h
    rfl
  | cons line before ih =>
    intro x samples h
    rw [List.cons_append]
    rcases complete_cases h with ⟨hskip, hrest⟩ |
      ⟨sample, own, rest, hline, hread, hblock, rfl, hrest⟩
    · rw [extractFrom_skipped hskip, expectedAfter_of_none (lineSample?_of_skipped hskip)]
      exact ih _ _ hrest
    · rw [extractFrom_read hline hread hblock, ih _ _ hrest,
        expectedAfter_of_some (lineSample?_of_read hline hread), List.append_assoc]

/-! ## Reading up to a number of samples -/

theorem stepsFrom?_eq (delta stop : Binary64) (done : List Binary64) (time : Binary64) :
    stepsFrom? delta stop done time
      = (stepsFrom? delta stop [] time).map fun steps => done.reverse ++ steps := by
  by_cases hlt : time < stop
  · by_cases hmove : time < time + delta
    · have hroom := room_lt_of_lt hmove
      rw [stepsFrom?_of_lt hlt hmove, stepsFrom?_of_lt hlt hmove,
        stepsFrom?_eq delta stop (_ :: done), stepsFrom?_eq delta stop [_]]
      cases stepsFrom? delta stop [] (time + delta) <;> simp
    · rw [stepsFrom?_of_stuck hlt hmove, stepsFrom?_of_stuck hlt hmove]
      rfl
  · rw [stepsFrom?_of_not_lt hlt, stepsFrom?_of_not_lt hlt]
    simp
termination_by room time

/-- The first steps of those that end are some of them. -/
theorem stepsUpTo_eq_take {delta stop : Binary64} (n : Nat) :
    ∀ {time : Binary64} {steps : List Binary64}, stepsFrom? delta stop [] time = some steps →
      stepsUpTo delta stop n time = steps.take n := by
  induction n with
  | zero => intro time steps _; rfl
  | succ n ih =>
    intro time steps h
    rw [stepsUpTo]
    by_cases hlt : time < stop
    · by_cases hmove : time < time + delta
      · rw [stepsFrom?_of_lt hlt hmove, stepsFrom?_eq] at h
        obtain ⟨rest, hrest, rfl⟩ := Option.map_eq_some_iff.1 h
        rw [if_pos hlt, ih hrest]
        rfl
      · rw [stepsFrom?_of_stuck hlt hmove] at h
        cases h
    · rw [stepsFrom?_of_not_lt hlt] at h
      cases h
      rw [if_neg hlt]
      rfl

/-- **The first samples of a block that ends** are some of its samples. -/
theorem Block.first_eq_take {delta : Binary64} {b : Block} (h : b.samples? delta = some own)
    (n : Nat) : b.first delta n = own.take n := by
  obtain ⟨steps, hsteps, rfl⟩ := Option.map_eq_some_iff.1 h
  have hfirst : (stepsUpTo delta b.own.time n b.expected).map missed
      = (steps.map missed).take n := by
    rw [stepsUpTo_eq_take n hsteps, List.map_take]
  simp only [Block.first, hfirst, List.length_take]
  split
  · have hall : (steps.map missed).length ≤ n := by omega
    have hown : (steps.map missed ++ [b.own]).length ≤ n := by
      rw [List.length_append, List.length_singleton]
      omega
    rw [List.take_of_length_le hall, List.take_of_length_le hown]
  · have hall : n ≤ (steps.map missed).length := by omega
    rw [List.take_append_of_le_length hall]

theorem readBlocks_eq (delta : Binary64) (bs : List Block) (n : Nat) (done : List Sample) :
    readBlocks delta n done bs
      = (done.reverse ++ (readBlocks delta n [] bs).1, (readBlocks delta n [] bs).2) := by
  induction bs generalizing n done with
  | nil => cases n <;> simp [readBlocks]
  | cons b bs ih =>
    cases n with
    | zero => simp [readBlocks]
    | succ n =>
      simp only [readBlocks]
      rw [ih _ (_ ++ done), ih _ (_ ++ [])]
      simp

/-- The first samples of lines before which a time was expected, and the line that could not be read
if it comes before the last of them. -/
def readFrom (n : Nat) (o : Options) (x : Binary64) (lines : List String) :
    List Sample × Option LineError :=
  let (bs, error?) := walk o x [] lines
  let (samples, gaveOut) := readBlocks o.delta n [] bs
  (samples, if gaveOut then error? else none)

theorem read_eq_readFrom (n : Nat) (o : Options) (lines : List String) :
    read n o lines = readFrom n o (0 - o.delta) lines := rfl

theorem readFrom_zero (o : Options) (x : Binary64) (lines : List String) :
    readFrom 0 o x lines = ([], none) := by
  simp [readFrom, readBlocks]

theorem readFrom_skipped (h : StatusLine.isThroughput line.toList = false) :
    readFrom n o x (line :: lines) = readFrom n o (x + o.delta) lines := by
  simp only [readFrom, walk, h, Bool.false_eq_true, if_false]

/-- A status line whose block ends gives the samples of its block first, as far as wanted. -/
theorem readFrom_read (h : StatusLine.isThroughput line.toList = true)
    (hread : StatusLine.read o.operation line = .ok sample)
    (hblock : Block.samples? o.delta ⟨x + o.delta, sample⟩ = some own) :
    readFrom n o x (line :: lines)
      = (own.take n ++ (readFrom (n - own.length) o (timeAfter (x + o.delta) sample) lines).1,
          (readFrom (n - own.length) o (timeAfter (x + o.delta) sample) lines).2) := by
  cases n with
  | zero => simp [readFrom_zero]
  | succ n =>
    have hrest : n + 1 - (own.take (n + 1)).length = n + 1 - own.length := by
      rw [List.length_take]
      omega
    simp only [readFrom, walk, h, hread, if_true]
    rw [walk_eq]
    simp only [List.reverse_cons, List.reverse_nil, List.nil_append, List.singleton_append,
      readBlocks, Block.first_eq_take hblock, List.append_nil, hrest]
    rw [readBlocks_eq]
    simp only [List.reverse_reverse]
    rfl

/-- **Reading goes on where the lines ended.** -/
theorem readFrom_append (after : List String) :
    ∀ (before : List String) (x : Binary64) (samples : List Sample) (n : Nat),
      extractFrom o x before = (samples, .complete) →
        readFrom n o x (before ++ after)
          = (samples.take n
                ++ (readFrom (n - samples.length) o (expectedAfter o x before) after).1,
              (readFrom (n - samples.length) o (expectedAfter o x before) after).2) := by
  intro before
  induction before with
  | nil =>
    intro x samples n h
    cases h
    simp
  | cons line before ih =>
    intro x samples n h
    rw [List.cons_append]
    rcases complete_cases h with ⟨hskip, hrest⟩ |
      ⟨sample, own, rest, hline, hread, hblock, rfl, hrest⟩
    · rw [readFrom_skipped hskip, expectedAfter_of_none (lineSample?_of_skipped hskip)]
      exact ih _ _ _ hrest
    · rw [readFrom_read hline hread hblock, ih _ _ _ hrest,
        expectedAfter_of_some (lineSample?_of_read hline hread), List.take_append,
        List.length_append, Nat.sub_sub, List.append_assoc]

/-! ## Outputs -/

/-- All that can be seen of a series: its samples and how they end, and its first samples up to any
number, which also show a series without end. -/
@[ext] structure Output where
  whole : List Sample × Ending
  upTo : Nat → List Sample × Option LineError

/-- The output of a log. -/
def output (o : Options) (lines : List String) : Output :=
  { whole := extract o lines, upTo := fun n => read n o lines }

/-- The output of lines before which a time was expected. -/
def outputFrom (o : Options) (x : Binary64) (lines : List String) : Output :=
  { whole := extractFrom o x lines, upTo := fun n => readFrom n o x lines }

theorem output_eq_outputFrom (o : Options) (lines : List String) :
    output o lines = outputFrom o (0 - o.delta) lines := by
  simp only [output, outputFrom, extract_eq_extractFrom, read_eq_readFrom]

/-- Some samples, followed by an output. -/
def Output.prepend (samples : List Sample) (rest : Output) : Output :=
  { whole := (samples ++ rest.whole.1, rest.whole.2)
    upTo := fun n =>
      (samples.take n ++ (rest.upTo (n - samples.length)).1,
        (rest.upTo (n - samples.length)).2) }

/-- **The output of a log that goes on** is that of the log so far, followed by an output that
depends on the time that was handed on. -/
theorem outputFrom_append (after : List String)
    (h : extractFrom o x before = (samples, .complete)) :
    outputFrom o x (before ++ after)
      = (outputFrom o (expectedAfter o x before) after).prepend samples := by
  apply Output.ext
  · exact extractFrom_append after before x samples h
  · funext n
    exact readFrom_append after before x samples n h

/-! ## Resuming at a status line -/

theorem walk_congr (h : x + o.delta = y + o.delta) (done : List Block) (lines : List String) :
    walk o x done lines = walk o y done lines := by
  cases lines with
  | nil => rfl
  | cons line lines => simp only [walk, h]

/-- **Of the time that is handed on only the next step counts.** -/
theorem outputFrom_congr (h : x + o.delta = y + o.delta) (lines : List String) :
    outputFrom o x lines = outputFrom o y lines := by
  apply Output.ext
  · show extractFrom o x lines = extractFrom o y lines
    simp only [extractFrom, walk_congr h]
  · funext n
    show readFrom n o x lines = readFrom n o y lines
    simp only [readFrom, walk_congr h]

/-- The two zeros lead to the same step, and other integers are one number each. -/
theorem add_delta_congr {t : Int} (hx : x.toInt? = some t) (hy : y.toInt? = some t) :
    x + o.delta = y + o.delta := by
  obtain ⟨hd, hpos⟩ := toInt?_delta o
  rw [add_eq_ofInt hx hd (fun _ => hpos), add_eq_ofInt hy hd (fun _ => hpos)]

/-- The output of a log after a status line is that of the lines after it, from its time on. -/
theorem output_append_of_time {t : Int} (h : lineSample? o line = some sample)
    (ht : sample.time.toInt? = some t) (hx : x.toInt? = some t)
    (hbefore : extract o (before ++ [line]) = (samples, .complete)) (after : List String) :
    output o (before ++ line :: after) = (outputFrom o x after).prepend samples := by
  have hhanded : expectedAfter o (0 - o.delta) (before ++ [line]) + o.delta = x + o.delta :=
    add_delta_congr (toInt?_expectedAfter h ht before _) hx
  have hsplit : before ++ line :: after = (before ++ [line]) ++ after := by simp
  rw [extract_eq_extractFrom] at hbefore
  rw [output_eq_outputFrom, hsplit, outputFrom_append after hbefore, outputFrom_congr hhanded]

/-- **After a status line its time is all that counts of a log.**  Two logs that were read up to
status lines of one time, and go on with the same lines, have outputs that go on in the same way,
however these end. -/
theorem output_resumes {before before' : List String} {line line' : String}
    {sample sample' : Sample} (hline : lineSample? o line = some sample)
    (hline' : lineSample? o line' = some sample')
    (htime : sample.time.integer = sample'.time.integer)
    (hbefore : ∀ l ∈ before ++ [line], InOrder o l)
    (hbefore' : ∀ l ∈ before' ++ [line'], InOrder o l) (after : List String) :
    ∃ (first first' : List Sample) (rest : Output),
      extract o (before ++ [line]) = (first, .complete) ∧
      extract o (before' ++ [line']) = (first', .complete) ∧
      output o (before ++ line :: after) = rest.prepend first ∧
      output o (before' ++ line' :: after) = rest.prepend first' := by
  have ht := (time_of_lineSample? (hbefore line (by simp)) hline).1
  have ht' := (time_of_lineSample? (hbefore' line' (by simp)) hline').1
  have hfirst := extract_of_inOrder hbefore
  have hfirst' := extract_of_inOrder hbefore'
  refine ⟨_, _, outputFrom o sample.time after, hfirst, hfirst', ?_, ?_⟩
  · exact output_append_of_time hline ht ht hfirst after
  · rw [htime] at ht
    exact output_append_of_time hline' ht' ht hfirst' after

/-- Status lines at zero seconds, with a minus sign and without. -/
def zeroLines : String × String :=
  (" -0 sec: 0 operations; 0 current ops/sec; [READ AverageLatency(us)=1e3]",
    "0 sec: 0 operations; 0 current ops/sec;")

/-- One line sets the expected time back from ten to minus zero, the other one comes when zero is
expected and leaves it. -/
theorem output_resumes_zeroLines :
    lineSample? tenSeconds zeroLines.1 = some ⟨.zero true, .ofNat 1000⟩ ∧
      lineSample? tenSeconds zeroLines.2 = some ⟨0, noLatency⟩ ∧
      (∀ l ∈ ["Command line: -load"] ++ [zeroLines.1], InOrder tenSeconds l) ∧
      (∀ l ∈ [] ++ [zeroLines.2], InOrder tenSeconds l) ∧
      ∃ (first first' : List Sample) (rest : Output),
        extract tenSeconds (["Command line: -load"] ++ [zeroLines.1]) = (first, .complete) ∧
        extract tenSeconds ([] ++ [zeroLines.2]) = (first', .complete) ∧
        output tenSeconds (["Command line: -load"] ++ zeroLines.1 :: unevenLog)
          = rest.prepend first ∧
        output tenSeconds ([] ++ zeroLines.2 :: unevenLog) = rest.prepend first' := by
  have hminus : lineSample? tenSeconds zeroLines.1 = some ⟨.zero true, .ofNat 1000⟩ := by
    decide +kernel
  have hplain : lineSample? tenSeconds zeroLines.2 = some ⟨0, noLatency⟩ := by decide +kernel
  have hbefore : ∀ l ∈ ["Command line: -load"] ++ [zeroLines.1], InOrder tenSeconds l := by
    decide +kernel
  have hbefore' : ∀ l ∈ [] ++ [zeroLines.2], InOrder tenSeconds l := by decide +kernel
  exact ⟨hminus, hplain, hbefore, hbefore',
    output_resumes hminus hplain (by decide +kernel) hbefore hbefore' unevenLog⟩

end Series

end LoadTest

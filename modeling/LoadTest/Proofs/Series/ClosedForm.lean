import LoadTest.Proofs.Series.ExpectedTime
/-!
# The closed form of a series

A series is made by a loop that carries an expected time from line to line.  Here it is described
without one: what the line of an index adds depends on that line, on the status line before it and on
how many lines lie between.

* `observed?`, `previous?` — what the line of an index is read as, and the status line before it;
* `expectedAt` — the time that is expected at an index, as an exact integer;
* `samplesAt` — the samples that the line of an index adds;
* `exactFrom` — the loop with the exact time; `extract_of_inOrder` says that it is the same loop;
* `extract_eq_samplesAt` — the series of a log is what its lines add, in order, although the expected
  time of the loop is a rounded number.
-/

namespace LoadTest

namespace Series

open Binary64

/-! ## What the lines say -/

/-- A line is **in order** if it is skipped, or read with a safe integer as its time. -/
def InOrder (o : Options) (line : String) : Prop :=
  StatusLine.isThroughput line.toList = true →
    ∃ sample, StatusLine.read o.operation line = .ok sample ∧ sample.time.isSafeInteger = true

/-- The check that a line is in order. -/
def inOrder (o : Options) (line : String) : Bool :=
  !StatusLine.isThroughput line.toList ||
    match StatusLine.read o.operation line with
    | .ok sample => sample.time.isSafeInteger
    | .error _ => false

theorem inOrder_iff {o : Options} {line : String} : inOrder o line = true ↔ InOrder o line := by
  unfold inOrder InOrder
  cases StatusLine.isThroughput line.toList with
  | false => simp
  | true => cases StatusLine.read o.operation line <;> simp

instance (o : Options) (line : String) : Decidable (InOrder o line) :=
  decidable_of_iff _ inOrder_iff

/-- What a line is read as, if it is not skipped. -/
def lineSample? (o : Options) (line : String) : Option Sample :=
  if StatusLine.isThroughput line.toList then (StatusLine.read o.operation line).toOption else none

/-- What the line of an index is read as, if it is not skipped. -/
def observed? (o : Options) (lines : List String) (i : Nat) : Option Sample :=
  (lines[i]?).bind (lineSample? o)

/-- The last status line before an index, by its own index and what it is read as. -/
def previous? (o : Options) (lines : List String) (i : Nat) : Option (Nat × Sample) :=
  (List.range i).reverse.findSome? fun j => (observed? o lines j).map fun sample => (j, sample)

/-- The exact time that is expected at an index: as many steps after the status line before it as it
is lines after it, or as many steps after zero as there are lines before the index. -/
def expectedAt (o : Options) (lines : List String) (i : Nat) : Int :=
  match previous? o lines i with
  | none => i * o.delta.integer
  | some (j, sample) => sample.time.integer + ((i : Int) - j) * o.delta.integer

/-- What the line of an index adds to the series: a sample without a latency for every time that was
expected and missed before its own, and its own.  A line that is skipped adds nothing. -/
def samplesAt (o : Options) (lines : List String) (i : Nat) : List Sample :=
  match observed? o lines i with
  | none => []
  | some sample =>
    (missedTimes o.delta.integer (expectedAt o lines i) sample.time.integer).map
      (fun z => missed (ofInt z)) ++ [sample]

/-! ## The expected time at the next line -/

variable {o : Options} {lines : List String}

theorem previous?_succ_of_none {i : Nat} (h : observed? o lines i = none) :
    previous? o lines (i + 1) = previous? o lines i := by
  rw [previous?, List.range_succ, List.reverse_append, List.reverse_singleton,
    List.singleton_append, List.findSome?_cons, h]
  rfl

theorem previous?_succ_of_some {i : Nat} {sample : Sample}
    (h : observed? o lines i = some sample) : previous? o lines (i + 1) = some (i, sample) := by
  rw [previous?, List.range_succ, List.reverse_append, List.reverse_singleton,
    List.singleton_append, List.findSome?_cons, h]
  rfl

/-- The step is an integer above zero, though it need not be a safe one. -/
theorem toInt?_delta (o : Options) :
    o.delta.toInt? = some o.delta.integer ∧ 0 < o.delta.integer := by
  obtain ⟨d, hd⟩ := Option.isSome_iff_exists.1 o.isInteger_delta
  have hd' : o.delta.toInt? = some o.delta.integer := by
    rw [integer_of_toInt? hd, hd]
  exact ⟨hd', (lt_iff_of_toInt? toInt?_zero hd').1 o.delta_pos⟩

theorem integer_delta_pos (hsafe : o.delta.isSafeInteger = true) : 0 < o.delta.integer := by
  obtain ⟨hd, -⟩ := toInt?_eq_integer hsafe
  exact (lt_iff_of_toInt? toInt?_zero hd).1 o.delta_pos

theorem expectedAt_zero : expectedAt o lines 0 = 0 := by
  simp [expectedAt, previous?]

/-- A line that is skipped moves the expected time on by a step. -/
theorem expectedAt_succ_of_none {i : Nat} (h : observed? o lines i = none) :
    expectedAt o lines (i + 1) = expectedAt o lines i + o.delta.integer := by
  rw [expectedAt, expectedAt, previous?_succ_of_none h]
  cases previous? o lines i with
  | none =>
    push_cast
    ring
  | some p =>
    push_cast
    ring

/-- A status line sets it to a step after its own time. -/
theorem expectedAt_succ_of_some {i : Nat} {sample : Sample}
    (h : observed? o lines i = some sample) :
    expectedAt o lines (i + 1) = sample.time.integer + o.delta.integer := by
  rw [expectedAt, previous?_succ_of_some h]
  push_cast
  ring

/-! ## One line -/

theorem lineSample?_of_skipped {line : String} (h : StatusLine.isThroughput line.toList = false) :
    lineSample? o line = none := by
  rw [lineSample?, h]
  rfl

theorem lineSample?_of_read {line : String} {sample : Sample}
    (h : StatusLine.isThroughput line.toList = true)
    (hread : StatusLine.read o.operation line = .ok sample) : lineSample? o line = some sample := by
  rw [lineSample?, h, hread]
  rfl

theorem inOrder_of_skipped {line : String} (h : StatusLine.isThroughput line.toList = false) :
    InOrder o line := by
  intro hnot
  rw [h] at hnot
  cases hnot

/-- What a status line that is in order is read as is a safe integer. -/
theorem time_of_lineSample? {line : String} {sample : Sample} (hline : InOrder o line)
    (h : lineSample? o line = some sample) :
    sample.time.toInt? = some sample.time.integer ∧ sample.time.integer.natAbs ≤ maxSafe := by
  cases hskip : StatusLine.isThroughput line.toList with
  | false =>
    rw [lineSample?_of_skipped hskip] at h
    cases h
  | true =>
    obtain ⟨sample', hread, htime⟩ := hline hskip
    rw [lineSample?_of_read hskip hread] at h
    cases h
    exact toInt?_eq_integer htime

theorem samplesAt_of_none {i : Nat} (h : observed? o lines i = none) :
    samplesAt o lines i = [] := by
  rw [samplesAt, h]

theorem samplesAt_of_some {i : Nat} {sample : Sample} (h : observed? o lines i = some sample) :
    samplesAt o lines i
      = (missedTimes o.delta.integer (expectedAt o lines i) sample.time.integer).map
          (fun z => missed (ofInt z)) ++ [sample] := by
  rw [samplesAt, h]

/-! ## The loop with the exact time -/

/-- The samples of lines before which an exact time was expected. -/
def exactFrom (o : Options) : Int → List String → List Sample
  | _, [] => []
  | e, line :: lines =>
    match lineSample? o line with
    | none => exactFrom o (e + o.delta.integer) lines
    | some sample =>
      (missedTimes o.delta.integer e sample.time.integer).map (fun z => missed (ofInt z))
        ++ sample :: exactFrom o (sample.time.integer + o.delta.integer) lines

theorem exactFrom_nil (o : Options) (e : Int) : exactFrom o e [] = [] := rfl

theorem exactFrom_of_none {e : Int} {line : String} (h : lineSample? o line = none) :
    exactFrom o e (line :: lines) = exactFrom o (e + o.delta.integer) lines := by
  rw [exactFrom, h]

theorem exactFrom_of_some {e : Int} {line : String} {sample : Sample}
    (h : lineSample? o line = some sample) :
    exactFrom o e (line :: lines)
      = (missedTimes o.delta.integer e sample.time.integer).map (fun z => missed (ofInt z))
          ++ sample :: exactFrom o (sample.time.integer + o.delta.integer) lines := by
  rw [exactFrom, h]

/-- **The loop is that of the exact time, from any line on.**  The invariant is that the exact time is
expected at the next line. -/
theorem extractFrom_eq_exactFrom :
    ∀ (lines : List String) (x : Binary64) (e : Int), (∀ line ∈ lines, InOrder o line) →
      Expects (x + o.delta) e → extractFrom o x lines = (exactFrom o e lines, .complete) := by
  obtain ⟨hd, hpos⟩ := toInt?_delta o
  intro lines
  induction lines with
  | nil => intro x e _ _; rfl
  | cons line lines ih =>
    intro x e hlines hx
    obtain ⟨hline, hrest⟩ := List.forall_mem_cons.1 hlines
    cases hskip : StatusLine.isThroughput line.toList with
    | false =>
      rw [extractFrom_skipped hskip, exactFrom_of_none (lineSample?_of_skipped hskip)]
      exact ih _ _ hrest (hx.toTracks.expects_add hd hpos)
    | true =>
      obtain ⟨sample, hread, htime⟩ := hline hskip
      obtain ⟨ht, htsafe⟩ := toInt?_eq_integer htime
      have hblock := samples?_eq_missedTimes hd hpos ht (by omega) hx
      have hafter := tracks_of_toInt? (toInt?_timeAfter (x + o.delta) ht) htsafe
      rw [extractFrom_read hskip hread hblock, ih _ _ hrest (hafter.expects_add hd hpos),
        exactFrom_of_some (lineSample?_of_read hskip hread), List.append_assoc,
        List.singleton_append]

/-- **The series of a log whose lines are in order** is that of the exact time, which starts at zero.
The step itself may be beyond the safe integers. -/
theorem extract_of_inOrder (hlines : ∀ line ∈ lines, InOrder o line) :
    extract o lines = (exactFrom o 0 lines, .complete) := by
  obtain ⟨hd, hpos⟩ := toInt?_delta o
  exact extractFrom_eq_exactFrom lines _ 0 hlines (expects_first hd hpos)

/-! ## The series of a log -/

/-- **The loop adds line by line** what the index of each line says, whatever lines come after. -/
theorem exactFrom_eq_samplesAt (rest : List String) :
    ∀ (after before : List String), lines = before ++ (after ++ rest) →
      exactFrom o (expectedAt o lines before.length) after
        = (List.range' before.length after.length).flatMap (samplesAt o lines) := by
  intro after
  induction after with
  | nil => intro before _; rfl
  | cons line after ih =>
    intro before hsplit
    have hat : observed? o lines before.length = lineSample? o line := by
      rw [observed?, hsplit, List.getElem?_append_right (Nat.le_refl _), Nat.sub_self,
        List.cons_append, List.getElem?_cons_zero, Option.bind_some]
    have hnext := ih (before ++ [line])
    rw [List.append_assoc, List.singleton_append, List.length_append, List.length_singleton] at hnext
    rw [List.length_cons, List.range'_succ, List.flatMap_cons, ← hnext hsplit]
    cases hobs : lineSample? o line with
    | none =>
      rw [hobs] at hat
      rw [exactFrom_of_none hobs, samplesAt_of_none hat, List.nil_append,
        expectedAt_succ_of_none hat]
    | some sample =>
      rw [hobs] at hat
      rw [exactFrom_of_some hobs, samplesAt_of_some hat, expectedAt_succ_of_some hat,
        List.append_assoc, List.singleton_append]

/-- The loop from any line on. -/
theorem extractFrom_eq_samplesAt (hsafe : o.delta.isSafeInteger = true)
    (hlines : ∀ line ∈ lines, InOrder o line) :
    ∀ (after before : List String) (x : Binary64), lines = before ++ after →
      Tracks x (expectedAt o lines before.length - o.delta.integer) →
      extractFrom o x after
        = ((List.range' before.length after.length).flatMap (samplesAt o lines), .complete) := by
  intro after before x hsplit hx
  have hafter : ∀ line ∈ after, InOrder o line := by
    intro line hline
    refine hlines line ?_
    rw [hsplit]
    exact List.mem_append_right _ hline
  have hnow := hx.expects_add (toInt?_eq_integer hsafe).1 (integer_delta_pos hsafe)
  rw [Int.sub_add_cancel] at hnow
  rw [extractFrom_eq_exactFrom after x _ hafter hnow,
    exactFrom_eq_samplesAt [] after before (by rwa [List.append_nil])]

/-- **The closed form of a series.**  If the step is a safe integer and every line is in order, the
series is what the lines add, in order, and it ends with the log. -/
theorem extract_eq_samplesAt (hsafe : o.delta.isSafeInteger = true)
    (hlines : ∀ line ∈ lines, InOrder o line) :
    extract o lines = ((List.range lines.length).flatMap (samplesAt o lines), .complete) := by
  obtain ⟨hd, hdsafe⟩ := toInt?_eq_integer hsafe
  have hpos := integer_delta_pos hsafe
  have hstart := tracks_start hd hpos (by omega)
  rw [extract_eq_extractFrom, List.range_eq_range']
  refine extractFrom_eq_samplesAt hsafe hlines lines [] _ rfl ?_
  rwa [List.length_nil, expectedAt_zero, Int.zero_sub]

/-- A log with a header, a line about a failure, a gap and a clock that went back. -/
def unevenLog : List String :=
  ["Command line: -load",
    "20 sec: 4520 operations; 452 current ops/sec; [READ AverageLatency(us)=120.5]",
    "30 sec: 9000 operations; 448 current ops/sec; 3 failed",
    "60 sec: 9520 operations; 17 current ops/sec; [UPDATE AverageLatency(us)=9]",
    " -0 sec: 0 operations; 0 current ops/sec; [READ AverageLatency(us)=1e3]"]

/-- The options of a series of steps of ten seconds. -/
def tenSeconds : Options :=
  { delta := .ofNat 10, operation := defaultOperation.toValue
    isInteger_delta := by decide +kernel, delta_pos := by decide +kernel }

example : ((List.range unevenLog.length).flatMap (samplesAt tenSeconds unevenLog)).map
    (fun sample => sample.time.integer) = [10, 20, 40, 50, 60, 0] := by decide +kernel

theorem extract_unevenLog :
    tenSeconds.delta.isSafeInteger = true ∧ (∀ line ∈ unevenLog, InOrder tenSeconds line) ∧
      extract tenSeconds unevenLog
        = ((List.range unevenLog.length).flatMap (samplesAt tenSeconds unevenLog), .complete) := by
  have hsafe : tenSeconds.delta.isSafeInteger = true := by decide +kernel
  have hlines : ∀ line ∈ unevenLog, InOrder tenSeconds line := by decide +kernel
  exact ⟨hsafe, hlines, extract_eq_samplesAt hsafe hlines⟩

end Series

end LoadTest

import LoadTest.Series.Options
/-!
# The series of a log

Every line of a log stands for one step of the series, so the expected time moves on by the step
with each line, also with those that are skipped.  A status line that is later than expected is
preceded by samples without a latency for the steps that were missed; after it the expected time is
its own.

The samples that one status line adds are a **block**, and a log is a list of blocks, ended perhaps
by a line that cannot be read.  The missed steps of a block can be more than one cares to list, or
without end where the step is too small to move the time, so a series can be read up to any number
of samples (`read`) as well as to its end (`extract`).
-/

namespace LoadTest

namespace Series

/-! ## Blocks -/

/-- The samples of one status line: the expected time, from which missed steps are counted, and the
line's own sample. -/
structure Block where
  expected : Binary64
  own : Sample
  deriving DecidableEq

/-- The blocks of lines, and the line that could not be read, if one ended them.  `done` holds the
blocks before these lines, last first. -/
def walk (o : Options) (expected : Binary64) (done : List Block) :
    List String → List Block × Option LineError
  | [] => (done.reverse, none)
  | line :: lines =>
    let now := expected + o.delta
    if StatusLine.isThroughput line.toList then
      match StatusLine.read o.operation line with
      | .error e => (done.reverse, some e)
      | .ok sample =>
        let next := if sample.time.eq now then now else sample.time
        walk o next (⟨now, sample⟩ :: done) lines
    else walk o now done lines

/-- The blocks of a log.  The first line is expected at time zero. -/
def blocks (o : Options) (lines : List String) : List Block × Option LineError :=
  walk o (0 - o.delta) [] lines

/-! ## Missed steps -/

/-- The first `limit` steps from a time up to, but without, another. -/
def stepsUpTo (delta stop : Binary64) : Nat → Binary64 → List Binary64
  | 0, _ => []
  | limit + 1, time => if time < stop then time :: stepsUpTo delta stop limit (time + delta) else []

/-- How far a number is from the end of the line, in units. -/
def room (x : Binary64) : Nat := ((Binary64.overflow : Int) - x.place?.getD 0).toNat

theorem place?_le {x : Binary64} {a : Int} (h : x.place? = some a) :
    a ≤ (Binary64.overflow : Int) := by
  unfold Binary64.place? at h
  split at h
  · simp at h
  · simp only [Option.some.injEq] at h
    split at h <;> omega
  · rename_i small
    simp only [Option.some.injEq] at h
    split at h <;> omega

theorem room_lt_of_lt {x y : Binary64} (h : x < y) : room y < room x := by
  have h' : Binary64.lt x y = true := h
  unfold Binary64.lt at h'
  split at h'
  · rename_i a b ha hb
    have hab : a < b := by simpa using h'
    have := place?_le hb
    simp only [room, ha, hb, Option.getD_some]
    omega
  · simp at h'

/-- All steps from a time up to, but without, another, after those in `done`, which come last first;
`none` if they never end because the step does not move the time. -/
def stepsFrom? (delta stop : Binary64) (done : List Binary64) (time : Binary64) :
    Option (List Binary64) :=
  if time < stop then
    if _ : time < time + delta then stepsFrom? delta stop (time :: done) (time + delta)
    else none
  else some done.reverse
termination_by room time
decreasing_by exact room_lt_of_lt ‹_›

/-- The sample of a missed step. -/
def missed (time : Binary64) : Sample := ⟨time, noLatency⟩

namespace Block

/-- The first `limit` samples of a block. -/
def first (delta : Binary64) (limit : Nat) (b : Block) : List Sample :=
  let steps := (stepsUpTo delta b.own.time limit b.expected).map missed
  if steps.length < limit then steps ++ [b.own] else steps

/-- All samples of a block, if they end. -/
def samples? (delta : Binary64) (b : Block) : Option (List Sample) :=
  (stepsFrom? delta b.own.time [] b.expected).map fun steps => steps.map missed ++ [b.own]

end Block

/-! ## Reading up to a number of samples -/

/-- The first `limit` samples of blocks after those in `done`, which come last first, and whether
the blocks gave out before that. -/
def readBlocks (delta : Binary64) : Nat → List Sample → List Block → List Sample × Bool
  | 0, done, _ => (done.reverse, false)
  | _ + 1, done, [] => (done.reverse, true)
  | limit + 1, done, b :: bs =>
    let samples := b.first delta (limit + 1)
    readBlocks delta (limit + 1 - samples.length) (samples.reverse ++ done) bs

/-- The first `limit` samples of a log, and the line that could not be read if it comes before
that. -/
def read (limit : Nat) (o : Options) (lines : List String) : List Sample × Option LineError :=
  let (bs, error?) := blocks o lines
  let (samples, gaveOut) := readBlocks o.delta limit [] bs
  (samples, if gaveOut then error? else none)

/-! ## Reading to the end -/

/-- How a series ends. -/
inductive Ending
  /-- With the log. -/
  | complete
  /-- At a line that cannot be read. -/
  | stopped (e : LineError)
  /-- It does not: the step is too small to cross a gap. -/
  | endless

/-- The samples of blocks after those in `done`, which come last first.  Before a gap without end
the series stops being listed. -/
def extractBlocks (delta : Binary64) (atEnd : Ending) (done : List Sample) :
    List Block → List Sample × Ending
  | [] => (done.reverse, atEnd)
  | b :: bs =>
    match b.samples? delta with
    | some samples => extractBlocks delta atEnd (samples.reverse ++ done) bs
    | none => (done.reverse, .endless)

/-- All samples of a log, and how they end. -/
def extract (o : Options) (lines : List String) : List Sample × Ending :=
  let (bs, error?) := blocks o lines
  extractBlocks o.delta (match error? with | some e => .stopped e | none => .complete) [] bs

end Series

end LoadTest

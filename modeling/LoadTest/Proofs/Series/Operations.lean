import LoadTest.Proofs.Series.Stopping

/-!
# Series of one log for several operations

The operation of a series is looked for in every status line, and may stop the series where its
field is malformed.  The times of the series do not depend on it, so the series of several
operations can be joined row by row.

* `Options.showing`: the same options for another operation.
* `map_time_exactFrom`: the loop gives the same times where all lines can be read for both
  operations.
* `exactFrom_isPrefix`: it gives fewer samples where it stops earlier.
* `times_showing`: two series of one log have the same times as far as both go.
-/

namespace LoadTest

namespace Series

open Binary64

/-- The same step, with the latencies of another operation. -/
def Options.showing (o : Options) (operation : Value) : Options := { o with operation := operation }

@[simp] theorem delta_showing (o : Options) (operation : Value) :
    (o.showing operation).delta = o.delta := rfl

/-- The times of a series. -/
def times (o : Options) (lines : List String) : List Binary64 :=
  (extract o lines).1.map fun sample => sample.time

variable {o : Options} {p q : Value} {line : String} {lines before : List String} {e : LineError}

/-! ## One line -/

/-- A line that is not rejected is read with its timestamp, whichever operation is asked for. -/
theorem map_time_lineSample? (h : rejection? o line = none) :
    (lineSample? o line).map (fun sample => sample.time)
      = if StatusLine.isThroughput line.toList then StatusLine.time? line else none := by
  cases hline : StatusLine.isThroughput line.toList with
  | false =>
    rw [lineSample?_of_skipped hline]
    rfl
  | true =>
    rw [rejection?, if_pos hline] at h
    cases hread : StatusLine.read o.operation line with
    | error e =>
      rw [hread] at h
      cases h
    | ok sample =>
      rw [lineSample?_of_read hline hread, Option.map_some, StatusLine.time?_of_read hread]
      rfl

/-- A line with a fault in its timestamp is rejected for every operation, for the same reason. -/
theorem rejection?_of_isAboutTime (h : rejection? (o.showing p) line = some e)
    (htime : e.fault.isAboutTime = true) (q : Value) :
    rejection? (o.showing q) line = some e := by
  obtain ⟨hthroughput, hread⟩ := rejection?_eq_some_iff.1 h
  exact rejection?_eq_some_iff.2 ⟨hthroughput, StatusLine.read_of_isAboutTime hread htime q⟩

/-! ## The loop -/

/-- **The loop gives the same times for both operations** on lines that are rejected for neither. -/
theorem map_time_exactFrom :
    ∀ (lines : List String) (x : Int), (∀ l ∈ lines, rejection? (o.showing p) l = none) →
      (∀ l ∈ lines, rejection? (o.showing q) l = none) →
        (exactFrom (o.showing p) x lines).map (fun sample => sample.time)
          = (exactFrom (o.showing q) x lines).map fun sample => sample.time := by
  intro lines
  induction lines with
  | nil => intro x _ _; rfl
  | cons line lines ih =>
    intro x hp hq
    obtain ⟨hpline, hprest⟩ := List.forall_mem_cons.1 hp
    obtain ⟨hqline, hqrest⟩ := List.forall_mem_cons.1 hq
    have hsame := (map_time_lineSample? hpline).trans (map_time_lineSample? hqline).symm
    cases hpsample : lineSample? (o.showing p) line with
    | none =>
      rw [hpsample, Option.map_none, eq_comm, Option.map_eq_none_iff] at hsame
      rw [exactFrom_of_none hpsample, exactFrom_of_none hsame]
      exact ih _ hprest hqrest
    | some a =>
      rw [hpsample, Option.map_some, eq_comm] at hsame
      obtain ⟨b, hqsample, htime⟩ := Option.map_eq_some_iff.1 hsame
      rw [exactFrom_of_some hpsample, exactFrom_of_some hqsample, htime]
      simp only [List.map_append, List.map_cons, htime, delta_showing]
      rw [ih _ hprest hqrest]

/-- **The loop gives fewer samples** where it stops earlier. -/
theorem exactFrom_isPrefix (after : List String) :
    ∀ (before : List String) (x : Int),
      exactFrom o x before <+: exactFrom o x (before ++ after) := by
  intro before
  induction before with
  | nil => intro x; exact List.nil_prefix
  | cons line before ih =>
    intro x
    rw [List.cons_append]
    cases hsample : lineSample? o line with
    | none =>
      rw [exactFrom_of_none hsample, exactFrom_of_none hsample]
      exact ih _
    | some sample =>
      rw [exactFrom_of_some hsample, exactFrom_of_some hsample, List.prefix_append_right_inj,
        List.cons_prefix_cons]
      exact ⟨rfl, ih _⟩

/-! ## Two series of one log -/

theorem times_eq_readable (hlines : ∀ l ∈ lines, SafeTime l) :
    times o lines = (exactFrom o 0 (readable o lines)).map fun sample => sample.time := by
  rw [times, extract_eq_readable hlines]

/-- The series that stops first has the first of the times of the other one. -/
theorem times_isPrefix (hlines : ∀ l ∈ lines, SafeTime l)
    (h : readable (o.showing p) lines <+: readable (o.showing q) lines) :
    times (o.showing p) lines <+: times (o.showing q) lines := by
  obtain ⟨more, hmore⟩ := h
  have hp : ∀ l ∈ readable (o.showing p) lines, rejection? (o.showing p) l = none :=
    fun l => rejection?_of_mem_readable
  have hq : ∀ l ∈ readable (o.showing p) lines, rejection? (o.showing q) l = none := by
    intro l hl
    have hmem : l ∈ readable (o.showing q) lines := by
      rw [← hmore]
      exact List.mem_append_left _ hl
    exact rejection?_of_mem_readable hmem
  rw [times_eq_readable hlines, times_eq_readable hlines, map_time_exactFrom _ 0 hp hq, ← hmore]
  exact (exactFrom_isPrefix more _ 0).map _

theorem times_eq_of_readable (hlines : ∀ l ∈ lines, SafeTime l)
    (h : readable (o.showing p) lines = readable (o.showing q) lines) :
    times (o.showing p) lines = times (o.showing q) lines :=
  (times_isPrefix hlines (h ▸ List.prefix_rfl)).eq_of_length_le
    (times_isPrefix hlines (h ▸ List.prefix_rfl)).length_le

/-- A series that ends with its log has read all of it. -/
theorem readable_of_complete (h : endingOf o lines = .complete) : readable o lines = lines := by
  rcases rejected_cases o lines with hall | ⟨before, line, rest, e, rfl, hbefore, hline⟩
  · exact readable_of_forall hall
  · rw [endingOf_of_rejected hbefore hline] at h
    cases h

/-- **Two series of one log have the same times as far as both go.**  Neither is endless; where both
end with the log, all times are the same; where one of them stops, the times of one are the first
times of the other; and where the first line that either rejects has a fault in its timestamp, both
stop there. -/
structure SameTimes (o : Options) (p q : Value) (lines : List String) : Prop where
  ends_left : (extract (o.showing p) lines).2 ≠ .endless
  ends_right : (extract (o.showing q) lines).2 ≠ .endless
  complete : (extract (o.showing p) lines).2 = .complete →
    (extract (o.showing q) lines).2 = .complete →
      times (o.showing p) lines = times (o.showing q) lines
  stopped : times (o.showing p) lines <+: times (o.showing q) lines ∨
    times (o.showing q) lines <+: times (o.showing p) lines
  timestamp : ∀ before line rest e, lines = before ++ line :: rest →
    (∀ l ∈ before, rejection? (o.showing p) l = none ∧ rejection? (o.showing q) l = none) →
    rejection? (o.showing p) line = some e ∨ rejection? (o.showing q) line = some e →
    e.fault.isAboutTime = true →
      (extract (o.showing p) lines).2 = .stopped e ∧ (extract (o.showing q) lines).2 = .stopped e ∧
        times (o.showing p) lines = times (o.showing q) lines

theorem ending_eq (hlines : ∀ l ∈ lines, SafeTime l) : (extract o lines).2 = endingOf o lines := by
  rw [extract_eq_readable hlines]

theorem endingOf_ne_endless (o : Options) (lines : List String) : endingOf o lines ≠ .endless := by
  unfold endingOf
  split <;> simp

/-- **The times of a series do not depend on its operation**, if the timestamps of its log are safe
integers where they can be read. -/
theorem times_showing (o : Options) (p q : Value) (hlines : ∀ l ∈ lines, SafeTime l) :
    SameTimes o p q lines where
  ends_left := by
    rw [ending_eq hlines]
    exact endingOf_ne_endless _ _
  ends_right := by
    rw [ending_eq hlines]
    exact endingOf_ne_endless _ _
  complete := by
    intro hp hq
    rw [ending_eq hlines] at hp hq
    exact times_eq_of_readable hlines
      ((readable_of_complete hp).trans (readable_of_complete hq).symm)
  stopped := by
    rcases List.prefix_or_prefix_of_prefix (readable_isPrefix (o.showing p) lines)
      (readable_isPrefix (o.showing q) lines) with hpq | hqp
    · exact .inl (times_isPrefix hlines hpq)
    · exact .inr (times_isPrefix hlines hqp)
  timestamp := by
    rintro before line rest e rfl hbefore hline htime
    have hall : ∀ v, rejection? (o.showing v) line = some e := by
      intro v
      rcases hline with hp | hq
      · exact rejection?_of_isAboutTime hp htime v
      · exact rejection?_of_isAboutTime hq htime v
    have hp : ∀ l ∈ before, rejection? (o.showing p) l = none := fun l hl => (hbefore l hl).1
    have hq : ∀ l ∈ before, rejection? (o.showing q) l = none := fun l hl => (hbefore l hl).2
    refine ⟨?_, ?_, times_eq_of_readable hlines ?_⟩
    · rw [ending_eq hlines, endingOf_of_rejected hp (hall p)]
    · rw [ending_eq hlines, endingOf_of_rejected hq (hall q)]
    · rw [readable_of_rejected hp (hall p), readable_of_rejected hq (hall q)]

/-- A log with a latency that is malformed for updates only, and later a timestamp that is none. -/
def mixedLog : List String :=
  ["10 sec: 9 operations; 9 current ops/sec; [READ AverageLatency(us)=80] [UPDATE AverageLatency(us)=7]",
    "30 sec: 18 operations; 9 current ops/sec; [READ AverageLatency(us)=81] [UPDATE AverageLatency(us)=]",
    "4x sec: 27 operations; 9 current ops/sec; [READ AverageLatency(us)=82]"]

theorem times_showing_mixedLog :
    (∀ l ∈ mixedLog, SafeTime l) ∧
      SameTimes tenSeconds Operation.read.toValue Operation.update.toValue mixedLog := by
  have hlines : ∀ l ∈ mixedLog, SafeTime l := by decide +kernel
  exact ⟨hlines, times_showing tenSeconds _ _ hlines⟩

end Series

end LoadTest

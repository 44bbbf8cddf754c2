import LoadTest.Proofs.Series.ClosedForm
/-!
# The order of a series

The expected time runs ahead of the log on lines that are skipped and is set back by a status line
that is early, so it does not grow along the log.  The times of a series do, as long as those of the
status lines do.

* `mem_exactFrom`: what a sample of a series can be, and when.
* `lt_of_mem_exactFrom`: what lies before the expected time and all status lines to come lies before
  all samples to come.
* `pairwise_exactFrom`: so the samples of one line lie before those of all later lines.
* `extract_pairwise_time`: the times of a series strictly increase.
-/

namespace LoadTest

namespace Series

open Binary64

variable {o : Options} {lines : List String} {e b : Int}

/-! ## The samples to come -/

/-- **A sample of a series** is the own one of a status line, or it is for a missed step, which is not
before the time expected at first or comes after some status line. -/
theorem mem_exactFrom (hpos : 0 < o.delta.integer) :
    ∀ (lines : List String) (e : Int), (∀ line ∈ lines, InOrder o line) → -(maxSafe : Int) ≤ e →
      ∀ x ∈ exactFrom o e lines, x ∈ lines.filterMap (lineSample? o) ∨
        ∃ z : Int, x.time.toInt? = some z ∧ z.natAbs ≤ maxSafe ∧
          (e ≤ z ∨ ∃ y ∈ lines.filterMap (lineSample? o), y.time.integer < z) := by
  intro lines
  induction lines with
  | nil =>
    intro e _ _ x hx
    cases hx
  | cons line lines ih =>
    intro e hlines he x hx
    obtain ⟨hline, hrest⟩ := List.forall_mem_cons.1 hlines
    cases hsample : lineSample? o line with
    | none =>
      rw [exactFrom_of_none hsample] at hx
      rw [List.filterMap_cons_none hsample]
      rcases ih _ hrest (by omega) x hx with hown | ⟨z, hz, hsafe, hle | hafter⟩
      · exact .inl hown
      · exact .inr ⟨z, hz, hsafe, .inl (by omega)⟩
      · exact .inr ⟨z, hz, hsafe, .inr hafter⟩
    | some sample =>
      obtain ⟨-, hown⟩ := time_of_lineSample? hline hsample
      rw [exactFrom_of_some hsample, List.mem_append, List.mem_cons] at hx
      rw [List.filterMap_cons_some hsample]
      rcases hx with hmissed | rfl | hx
      · obtain ⟨z, hz, rfl⟩ := List.mem_map.1 hmissed
        obtain ⟨hint, hle, hlt⟩ := toInt?_of_mem_missedTimes hpos he (by omega) hz
        exact .inr ⟨z, hint, by omega, .inl hle⟩
      · exact .inl (List.mem_cons_self ..)
      · rcases ih _ hrest (by omega) x hx with hlater | ⟨z, hz, hsafe, hle | ⟨y, hy, hlt⟩⟩
        · exact .inl (List.mem_cons_of_mem _ hlater)
        · -- a step after this status line's own time
          exact .inr ⟨z, hz, hsafe, .inr ⟨sample, List.mem_cons_self .., by omega⟩⟩
        · exact .inr ⟨z, hz, hsafe, .inr ⟨y, List.mem_cons_of_mem _ hy, hlt⟩⟩

/-- What the lines of a log are read as has safe integers as its times. -/
theorem isSafeInteger_of_mem_samples (hlines : ∀ line ∈ lines, InOrder o line) :
    ∀ x ∈ lines.filterMap (lineSample? o), x.time.isSafeInteger = true := by
  intro x hx
  obtain ⟨line, hline, hsample⟩ := List.mem_filterMap.1 hx
  exact isSafeInteger_iff.2 ⟨_, time_of_lineSample? (hlines line hline) hsample⟩

/-- All times of a series are safe integers. -/
theorem isSafeInteger_of_mem_exactFrom (hpos : 0 < o.delta.integer)
    (hlines : ∀ line ∈ lines, InOrder o line) (he : -(maxSafe : Int) ≤ e) :
    ∀ x ∈ exactFrom o e lines, x.time.isSafeInteger = true := by
  intro x hx
  rcases mem_exactFrom hpos lines e hlines he x hx with hown | ⟨z, hz, hsafe, -⟩
  · exact isSafeInteger_of_mem_samples hlines x hown
  · exact isSafeInteger_iff.2 ⟨z, hz, hsafe⟩

/-- **What lies before the expected time** and before all status lines lies before all samples.  The
status lines themselves may be in any order. -/
theorem lt_of_mem_exactFrom (hpos : 0 < o.delta.integer) (hlines : ∀ line ∈ lines, InOrder o line)
    (he : -(maxSafe : Int) ≤ e) (hb : b < e)
    (hsamples : ∀ y ∈ lines.filterMap (lineSample? o), b < y.time.integer) :
    ∀ x ∈ exactFrom o e lines, b < x.time.integer := by
  intro x hx
  rcases mem_exactFrom hpos lines e hlines he x hx with hown | ⟨z, hz, -, hle | ⟨y, hy, hlt⟩⟩
  · exact hsamples x hown
  · rw [integer_of_toInt? hz]
    omega
  · rw [integer_of_toInt? hz]
    exact (hsamples y hy).trans hlt

/-- **The samples of a line lie before those of later lines** if its own time does. -/
theorem pairwise_exactFrom (hpos : 0 < o.delta.integer) :
    ∀ (lines : List String) (e : Int), (∀ line ∈ lines, InOrder o line) → -(maxSafe : Int) ≤ e →
      (lines.filterMap (lineSample? o)).Pairwise (fun x y => x.time.integer < y.time.integer) →
        (exactFrom o e lines).Pairwise fun x y => x.time.integer < y.time.integer := by
  intro lines
  induction lines with
  | nil =>
    intro e _ _ _
    exact .nil
  | cons line lines ih =>
    intro e hlines he hsamples
    obtain ⟨hline, hrest⟩ := List.forall_mem_cons.1 hlines
    cases hsample : lineSample? o line with
    | none =>
      rw [List.filterMap_cons_none hsample] at hsamples
      rw [exactFrom_of_none hsample]
      exact ih _ hrest (by omega) hsamples
    | some sample =>
      rw [List.filterMap_cons_some hsample] at hsamples
      obtain ⟨hfirst, hlater⟩ := List.pairwise_cons.1 hsamples
      obtain ⟨-, hsafe⟩ := time_of_lineSample? hline hsample
      have hafter : ∀ x ∈ exactFrom o (sample.time.integer + o.delta.integer) lines,
          sample.time.integer < x.time.integer :=
        lt_of_mem_exactFrom hpos hrest (by omega) (by omega) hfirst
      rw [exactFrom_of_some hsample, List.pairwise_append, List.pairwise_cons]
      refine ⟨?_, ⟨hafter, ih _ hrest (by omega) hlater⟩, ?_⟩
      · rw [List.pairwise_map]
        refine (pairwise_missedTimes hpos _ _).imp_of_mem ?_
        intro y z hy hz hlt
        have hy' := toInt?_of_mem_missedTimes hpos he (by omega) hy
        have hz' := toInt?_of_mem_missedTimes hpos he (by omega) hz
        rwa [integer_of_toInt? hy'.1, integer_of_toInt? hz'.1]
      · -- a missed step lies before the line's own sample, and so before what comes after it
        intro x hx y hy
        obtain ⟨z, hz, rfl⟩ := List.mem_map.1 hx
        obtain ⟨hint, -, hlt⟩ := toInt?_of_mem_missedTimes hpos he (by omega) hz
        rw [integer_of_toInt? hint]
        rcases List.mem_cons.1 hy with rfl | hy
        · exact hlt
        · exact hlt.trans (hafter y hy)

/-! ## The series of a log -/

/-- **The times of a series strictly increase** if those of its status lines do, whatever lines are
skipped between them and wherever they lie between the steps. -/
theorem extract_pairwise_time (hsafe : o.delta.isSafeInteger = true)
    (hlines : ∀ line ∈ lines, InOrder o line)
    (hincreasing : (lines.filterMap (lineSample? o)).Pairwise fun x y => x.time < y.time) :
    ∃ samples, extract o lines = (samples, .complete) ∧
      samples.Pairwise fun x y => x.time < y.time := by
  have hpos := integer_delta_pos hsafe
  have hstart : -(maxSafe : Int) ≤ 0 := by omega
  refine ⟨_, extract_of_inOrder hlines, ?_⟩
  have hread := isSafeInteger_of_mem_samples hlines
  have hmade := isSafeInteger_of_mem_exactFrom hpos hlines hstart
  have hordered : (lines.filterMap (lineSample? o)).Pairwise
      fun x y => x.time.integer < y.time.integer := by
    refine hincreasing.imp_of_mem ?_
    intro x y hx hy hlt
    exact (lt_iff_integer_lt (hread x hx) (hread y hy)).1 hlt
  refine (pairwise_exactFrom hpos lines 0 hlines hstart hordered).imp_of_mem ?_
  intro x y hx hy hlt
  exact (lt_iff_integer_lt (hmade x hx) (hmade y hy)).2 hlt

/-- A log whose status lines are late after a header, early after skipped lines, and off the steps. -/
def driftingLog : List String :=
  ["Command line: -load",
    "23 sec: 90 operations; 9 current ops/sec; [READ AverageLatency(us)=80.5]",
    "33 sec: 180 operations; 9 current ops/sec; 2 failed",
    "java.net.ConnectException: Connection refused",
    "37 sec: 200 operations; 2 current ops/sec;",
    "61 sec: 290 operations; 4 current ops/sec; [READ AverageLatency(us)=91]",
    "Shutting down"]

example : (exactFrom tenSeconds 0 driftingLog).map (fun sample => sample.time.integer)
    = [10, 20, 23, 37, 47, 57, 61] := by decide +kernel

theorem extract_pairwise_driftingLog :
    tenSeconds.delta.isSafeInteger = true ∧ (∀ line ∈ driftingLog, InOrder tenSeconds line) ∧
      (driftingLog.filterMap (lineSample? tenSeconds)).Pairwise (fun x y => x.time < y.time) ∧
      ∃ samples, extract tenSeconds driftingLog = (samples, .complete) ∧
        samples.Pairwise fun x y => x.time < y.time := by
  have hsafe : tenSeconds.delta.isSafeInteger = true := by decide +kernel
  have hlines : ∀ line ∈ driftingLog, InOrder tenSeconds line := by decide +kernel
  have hincreasing : (driftingLog.filterMap (lineSample? tenSeconds)).Pairwise
      fun x y => x.time < y.time := by decide +kernel
  exact ⟨hsafe, hlines, hincreasing, extract_pairwise_time hsafe hlines hincreasing⟩

end Series

end LoadTest

import Mathlib.Data.List.Induction
import Mathlib.Data.List.Perm.Basic
import LoadTest.Series.Table
import LoadTest.Proofs.Binary64.NumberText
import LoadTest.Proofs.Series.ClosedForm
import LoadTest.Proofs.StatusLog.Numeral
/-!
# The rows of a series and its summary

A table and its summary are made side by side: the rows are written, and the counts and times are
kept in variables.  Here they are shown to agree for every log whose series ends with it, whatever
its timestamps.

* `Summary.ofSamples_append`, `Summary.ofSamples_eq`: what one sample changes in a summary, and what
  a summary holds after all of them.
* `Sample.firstField_row`, `Sample.secondField_row`: a row can be taken apart again at its tab.
* `StatusLine.latency_of_read`: a latency is read as missing where its field is missing, and never
  where it is there.
* `extract_perm`: a series consists of the samples of missed steps and of those of the status lines.
* `Table.summary_agrees_rows`: the table and the summary agree.
-/

namespace LoadTest

open Binary64

-- Numbers of hundreds of digits: they are used through lemmas only.
attribute [local irreducible] unitsPerOne overflow

/-! ## Taking a row apart -/

namespace Sample

/-- The text before the first tab of a row. -/
def firstField (row : List Char) : List Char := row.takeWhile fun c => c != '\t'

/-- The text after the first tab of a row. -/
def secondField (row : List Char) : List Char := (row.dropWhile fun c => c != '\t').drop 1

variable (s : Sample)

/-- The text of a number has no blanks in it. -/
theorem notMem_toText {c : Char} (hc : isNumberChar c = false) (x : Binary64) : c ∉ x.toText := by
  intro hmem
  rw [isNumberChar_of_mem_toText hmem] at hc
  cases hc

theorem ne_tab_of_mem_toText (x : Binary64) : ∀ c ∈ x.toText, (c != '\t') = true := by
  intro c hc
  rw [bne_iff_ne]
  rintro rfl
  exact notMem_toText (by decide) x hc

theorem firstField_row : firstField s.row = s.time.toText := by
  rw [firstField, row, rowOf, List.takeWhile_append_of_pos (ne_tab_of_mem_toText s.time),
    List.takeWhile_cons_of_neg (by simp), List.append_nil]

theorem secondField_row : secondField s.row = s.latency.toText := by
  rw [secondField, row, rowOf, List.dropWhile_append_of_pos (ne_tab_of_mem_toText s.time),
    List.dropWhile_cons_of_neg (by simp), List.drop_one, List.tail_cons]

theorem count_tab_row : s.row.count '\t' = 1 := by
  have htime : s.time.toText.count '\t' = 0 :=
    List.count_eq_zero.2 (notMem_toText (by decide) s.time)
  have hlatency : s.latency.toText.count '\t' = 0 :=
    List.count_eq_zero.2 (notMem_toText (by decide) s.latency)
  rw [row, rowOf, List.count_append, List.count_cons_self, htime, hlatency]

theorem newline_notMem_row : '\n' ∉ s.row := by
  rw [row, rowOf, List.mem_append, List.mem_cons]
  rintro (htime | htab | hlatency)
  · exact notMem_toText (by decide) s.time htime
  · cases htab
  · exact notMem_toText (by decide) s.latency hlatency

/-! ## Missing latencies -/

/-- The latency of a sample is missing, or a number at zero or above it. -/
def IsReported : Prop := s.latency = noLatency ∨ ∃ p, s.latency.place? = some p ∧ 0 ≤ p

variable {s}

/-- **A missing latency is known by its text**: no latency that is reported has the same. -/
theorem IsReported.toText_eq_iff (h : s.IsReported) :
    s.latency.toText = "-1".toList ↔ s.latency.eq noLatency = true := by
  rcases h with hmissing | ⟨p, hplace, hpos⟩
  · rw [hmissing]
    exact iff_of_true (by decide +kernel) (by decide +kernel)
  · have hne : s.latency.toText ≠ "-1".toList := by
      intro htext
      refine ne_minus_of_toText hplace hpos (c := '-') ?_ rfl
      rw [htext]
      rfl
    rw [StatusLine.eq_noLatency_of_place? hplace hpos]
    exact iff_of_false hne Bool.false_ne_true

end Sample

/-! ## Latencies of status lines -/

namespace StatusLine

/-- No latency of the operation stands after the time of a line. -/
def lacksLatency (operation : Value) (line : List Char) : Bool :=
  match Text.splitFirst? timeMarker line, operation.toText? with
  | some (_, after), some name => !Text.contains (latencyMarker name) after
  | _, _ => true

/-- **A latency is read as missing where its field is missing**, and where the field is there a
number at zero or above it is read. -/
theorem latency_of_read {operation : Value} {line : String} {s : Sample}
    (h : read operation line = .ok s) :
    lacksLatency operation line.toList = true ∧ s.latency = noLatency ∨
      lacksLatency operation line.toList = false ∧ ∃ p, s.latency.place? = some p ∧ 0 ≤ p := by
  unfold read at h
  unfold lacksLatency
  split at h
  · cases h
  · rename_i before after hcut
    split at h
    · cases h
    · split at h
      · cases h
      · rename_i name hname
        simp only [hcut, hname, Text.contains]
        split at h
        · rename_i hnone
          cases h
          exact .inl ⟨by rw [hnone]; rfl, rfl⟩
        · rename_i seen field hfield
          split at h
          · cases h
          · rename_i latency hlatency
            cases h
            exact .inr ⟨by rw [hfield]; rfl, exists_of_latency? hlatency⟩

theorem isReported_of_read {operation : Value} {line : String} {s : Sample}
    (h : read operation line = .ok s) : s.IsReported := by
  rcases latency_of_read h with ⟨-, hmissing⟩ | ⟨-, hplace⟩
  · exact .inl hmissing
  · exact .inr hplace

/-- The mark of a missing latency is read from the lines that lack one, and from no other. -/
theorem eq_noLatency_of_read {operation : Value} {line : String} {s : Sample}
    (h : read operation line = .ok s) :
    s.latency.eq noLatency = lacksLatency operation line.toList := by
  rcases latency_of_read h with ⟨hlacks, hmissing⟩ | ⟨hlacks, p, hplace, hpos⟩
  · rw [hlacks, hmissing]
    decide +kernel
  · rw [hlacks, eq_noLatency_of_place? hplace hpos]

end StatusLine

namespace Series

/-- **The rows of missing latencies** are those with the mark of one after their tab. -/
theorem countP_secondField {samples : List Sample} (h : ∀ s ∈ samples, s.IsReported) :
    ((samples.map Sample.row).countP fun row => Sample.secondField row = "-1".toList)
      = samples.countP fun s => s.latency.eq noLatency := by
  rw [List.countP_map]
  refine List.countP_congr fun s hs => ?_
  rw [Function.comp_apply, decide_eq_true_iff, s.secondField_row, (h s hs).toText_eq_iff]

/-! ## Keeping a summary -/

/-- **One sample more** changes the summary by what is kept for it. -/
theorem Summary.ofSamples_append (samples : List Sample) (x : Sample) :
    Summary.ofSamples (samples ++ [x]) = (Summary.ofSamples samples).add x :=
  List.foldl_concat ..

/-- **What a summary holds** after all samples. -/
theorem Summary.ofSamples_eq (samples : List Sample) :
    Summary.ofSamples samples =
      { sampleCount := samples.length
        sentinelCount := samples.countP fun s => s.latency.eq noLatency
        firstTime? := samples.head?.map (·.time)
        lastTime? := samples.getLast?.map (·.time) } := by
  -- the samples come one by one at the end, as the loop takes them
  induction samples using List.reverseRecOn with
  | nil => rfl
  | append_singleton samples x ih =>
    have hfirst : (samples.head?.map (·.time)).or (some x.time)
        = (samples ++ [x]).head?.map (·.time) := by
      cases samples <;> rfl
    have hcount : (if x.latency.eq noLatency then
          (samples.countP fun s => s.latency.eq noLatency) + 1
        else samples.countP fun s => s.latency.eq noLatency)
        = (samples ++ [x]).countP fun s => s.latency.eq noLatency := by
      rw [List.countP_append, List.countP_singleton]
      split <;> rfl
    rw [Summary.ofSamples_append, ih, Summary.add]
    simp only [hfirst, hcount, List.length_append, List.length_singleton, List.getLast?_concat,
      Option.map_some]

/-! ## Samples of missed steps -/

/-- The samples of the steps that were missed before a status line. -/
def Block.fillers (delta : Binary64) (b : Block) : List Sample :=
  ((stepsFrom? delta b.own.time [] b.expected).getD []).map missed

/-- The samples of a series that no line of the log stands for. -/
def synthesized (o : Options) (lines : List String) : List Sample :=
  (blocks o lines).1.flatMap (Block.fillers o.delta)

theorem latency_of_mem_synthesized {o : Options} {lines : List String} {s : Sample}
    (h : s ∈ synthesized o lines) : s.latency = noLatency := by
  obtain ⟨b, -, hs⟩ := List.mem_flatMap.1 h
  obtain ⟨time, -, rfl⟩ := List.mem_map.1 hs
  rfl

/-- None of them has a latency. -/
theorem countP_synthesized (o : Options) (lines : List String) :
    ((synthesized o lines).countP fun s => s.latency.eq noLatency)
      = (synthesized o lines).length := by
  refine List.countP_eq_length.2 fun s hs => ?_
  rw [latency_of_mem_synthesized hs]
  decide +kernel

theorem Block.samples_of_some {delta : Binary64} {b : Block} {samples : List Sample}
    (h : b.samples? delta = some samples) : samples = b.fillers delta ++ [b.own] := by
  obtain ⟨steps, hsteps, rfl⟩ := Option.map_eq_some_iff.1 h
  rw [Block.fillers, hsteps, Option.getD_some]

/-- Blocks that are listed to the end give the samples of all of them. -/
theorem extractBlocks_of_complete {delta : Binary64} {atEnd : Ending} {bs : List Block} :
    ∀ {done : List Sample}, (extractBlocks delta atEnd done bs).2 = .complete →
      atEnd = .complete ∧ (extractBlocks delta atEnd done bs).1
        = done.reverse ++ bs.flatMap fun b => b.fillers delta ++ [b.own] := by
  -- a block that does not end would leave another ending, so each step adds all of its block
  induction bs with
  | nil =>
    intro done h
    exact ⟨h, by simp [extractBlocks]⟩
  | cons b bs ih =>
    intro done h
    rw [extractBlocks] at h ⊢
    cases hb : b.samples? delta with
    | none =>
      rw [hb] at h
      cases h
    | some samples =>
      rw [hb] at h
      obtain ⟨hend, hsamples⟩ := ih h
      refine ⟨hend, hsamples.trans ?_⟩
      rw [Block.samples_of_some hb, List.reverse_append, List.reverse_reverse, List.flatMap_cons,
        List.append_assoc]

/-! ## Samples of status lines -/

variable {o : Options} {lines : List String}

/-- Blocks to which no line put an end are those of all status lines, each with what it is read
as. -/
theorem map_own_walk :
    ∀ {lines : List String} {expected : Binary64} {done : List Block},
      (walk o expected done lines).2 = none →
        (walk o expected done lines).1.map Block.own
            = done.reverse.map Block.own ++ lines.filterMap (lineSample? o) ∧
          ∀ line ∈ lines, StatusLine.isThroughput line.toList = true →
            ∃ s, StatusLine.read o.operation line = .ok s := by
  intro lines
  induction lines with
  | nil =>
    intro expected done _
    refine ⟨?_, fun line h => absurd h List.not_mem_nil⟩
    rw [List.filterMap_nil, List.append_nil]
    rfl
  | cons line lines ih =>
    intro expected done h
    cases hskip : StatusLine.isThroughput line.toList with
    | false =>
      simp only [walk, hskip, Bool.false_eq_true, if_false] at h ⊢
      obtain ⟨hown, hread⟩ := ih h
      refine ⟨?_, List.forall_mem_cons.2 ⟨fun hnot => ?_, hread⟩⟩
      · rw [hown, List.filterMap_cons_none (lineSample?_of_skipped hskip)]
      · rw [hskip] at hnot
        cases hnot
    | true =>
      cases hline : StatusLine.read o.operation line with
      | error e =>
        simp only [walk, hskip, hline, if_true] at h
        cases h
      | ok s =>
        simp only [walk, hskip, hline, if_true] at h ⊢
        obtain ⟨hown, hread⟩ := ih h
        refine ⟨?_, List.forall_mem_cons.2 ⟨fun _ => ⟨s, hline⟩, hread⟩⟩
        rw [hown, List.filterMap_cons_some (lineSample?_of_read hskip hline), List.reverse_cons,
          List.map_append, List.append_assoc]
        rfl

/-- **What a series consists of** that ends with its log: the samples of missed steps and what the
status lines are read as, all of which can be read. -/
theorem extract_perm (h : (extract o lines).2 = .complete) :
    ((extract o lines).1.Perm (synthesized o lines ++ lines.filterMap (lineSample? o))) ∧
      ∀ line ∈ lines, StatusLine.isThroughput line.toList = true →
        ∃ s, StatusLine.read o.operation line = .ok s := by
  obtain ⟨hend, hsamples⟩ := extractBlocks_of_complete h
  have hnone : (walk o (0 - o.delta) [] lines).2 = none := by
    split at hend
    · cases hend
    · assumption
  obtain ⟨hown, hread⟩ := map_own_walk hnone
  rw [List.reverse_nil, List.map_nil, List.nil_append] at hown
  refine ⟨?_, hread⟩
  have hperm := List.flatMap_append_perm (blocks o lines).1 (Block.fillers o.delta)
    fun b => [b.own]
  rw [← List.map_eq_flatMap] at hperm
  rw [show (extract o lines).1 = _ from hsamples, List.reverse_nil, List.nil_append, synthesized,
    ← hown]
  exact hperm.symm

/-- Every sample of a series that ends with its log has a latency that is missing or not below
zero. -/
theorem isReported_of_mem_extract (h : (extract o lines).2 = .complete) :
    ∀ s ∈ (extract o lines).1, s.IsReported := by
  intro s hs
  rcases List.mem_append.1 ((extract_perm h).1.mem_iff.1 hs) with hs | hs
  · exact .inl (latency_of_mem_synthesized hs)
  · obtain ⟨line, -, hline⟩ := List.mem_filterMap.1 hs
    rw [lineSample?] at hline
    split at hline
    · cases hread : StatusLine.read o.operation line with
      | error e =>
        rw [hread] at hline
        cases hline
      | ok s' =>
        rw [hread] at hline
        cases hline
        exact StatusLine.isReported_of_read hread
    · cases hline

/-- How many samples of a series satisfy a property, if all lines can be read: those of missed steps
and those of the status lines are counted one by one. -/
theorem countP_extract (h : (extract o lines).2 = .complete) (p : Sample → Bool)
    {q : String → Bool}
    (hq : ∀ line ∈ lines, ∀ s, StatusLine.read o.operation line = .ok s → p s = q line) :
    (extract o lines).1.countP p = (synthesized o lines).countP p
      + lines.countP fun line => StatusLine.isThroughput line.toList && q line := by
  obtain ⟨hperm, hread⟩ := extract_perm h
  rw [hperm.countP_eq, List.countP_append, List.countP_filterMap]
  congr 1
  refine List.countP_congr fun line hline => ?_
  cases hskip : StatusLine.isThroughput line.toList with
  | false => simp [lineSample?_of_skipped hskip]
  | true =>
    obtain ⟨s, hs⟩ := hread line hline hskip
    simp [lineSample?_of_read hskip hs, hq line hline s hs]

/-! ## The table and its summary -/

/-- A table has a summary if its series ends with its log, and it is that of the samples. -/
theorem Table.summary_of_result {s : Summary} (h : (Table.ofLines o lines).result = .summary s) :
    (extract o lines).2 = .complete ∧ s = Summary.ofSamples (extract o lines).1 := by
  simp only [Table.ofLines] at h
  split at h
  · rename_i hend
    cases h
    exact ⟨hend, rfl⟩
  · cases h
  · cases h

/-- **The summary agrees with the rows.**  If a table has a summary, its text consists of as many
rows as there are samples, each ended by a line feed and with one tab in it, between the time and
the latency of its sample.  The sentinel count is that of the rows with `-1` after the tab, which
are those of missed steps and of status lines without a latency.  The times at both ends are those
of the first and the last row, and are left out only if there is no row. -/
theorem Table.summary_agrees_rows (o : Options) (lines : List String) (s : Summary)
    (h : (Table.ofLines o lines).result = .summary s) :
    let samples := (extract o lines).1
    let rows := samples.map Sample.row
    ((Table.ofLines o lines).text = String.ofList (rows.flatMap fun row => row ++ ['\n']) ∧
      rows.length = s.sampleCount ∧
      (∀ row ∈ rows, '\n' ∉ row ∧ row.count '\t' = 1) ∧
      ∀ n : Nat, rows[n]? = samples[n]?.map fun x => x.time.toText ++ '\t' :: x.latency.toText) ∧
    (s.sentinelCount = (rows.countP fun row => Sample.secondField row = "-1".toList) ∧
      s.sentinelCount = (synthesized o lines).length + (lines.countP fun line =>
        StatusLine.isThroughput line.toList
          && StatusLine.lacksLatency o.operation line.toList) ∧
      s.sampleCount = (synthesized o lines).length + (lines.countP fun line =>
        StatusLine.isThroughput line.toList)) ∧
    (s.firstTime? = samples.head?.map (·.time) ∧ s.lastTime? = samples.getLast?.map (·.time) ∧
      s.firstTime?.map toText = rows.head?.map Sample.firstField ∧
      s.lastTime?.map toText = rows.getLast?.map Sample.firstField ∧
      (s.firstTime? = none ↔ rows = []) ∧ (s.lastTime? = none ↔ rows = [])) := by
  obtain ⟨hend, rfl⟩ := Table.summary_of_result h
  intro samples rows
  have hsentinels := countP_extract hend (fun x => x.latency.eq noLatency)
    fun line _ x hx => StatusLine.eq_noLatency_of_read hx
  have hall := countP_extract hend (fun _ => true) (q := fun _ => true) fun _ _ _ _ => rfl
  have hfield : ∀ x : Sample, Sample.firstField x.row = x.time.toText := Sample.firstField_row
  rw [Summary.ofSamples_eq]
  refine ⟨⟨?_, ?_, ?_, ?_⟩, ⟨?_, ?_, ?_⟩, rfl, rfl, ?_, ?_, ?_, ?_⟩
  · rw [List.flatMap_map]
    rfl
  · exact List.length_map ..
  · intro row hrow
    obtain ⟨x, -, rfl⟩ := List.mem_map.1 hrow
    exact ⟨x.newline_notMem_row, x.count_tab_row⟩
  · intro n
    exact List.getElem?_map ..
  · exact (countP_secondField (isReported_of_mem_extract hend)).symm
  · exact hsentinels.trans (by rw [countP_synthesized])
  · simpa using hall
  · simp [rows, samples, List.head?_map, Function.comp_def, hfield]
  · simp [rows, samples, List.getLast?_map, Function.comp_def, hfield]
  · simp [rows, samples]
  · simp [rows, samples]

/-- A log that starts at time zero, with a line without a latency and a step that was missed. -/
def promptLog : List String :=
  ["0 sec: 45 operations; 4 current ops/sec; [READ AverageLatency(us)=120.5]",
    "10 sec: 90 operations; 4 current ops/sec; [UPDATE AverageLatency(us)=9]",
    "30 sec: 99 operations; 2 current ops/sec; [READ AverageLatency(us)=1.5e3]"]

theorem Table.summary_promptLog :
    ∃ s, (Table.ofLines tenSeconds promptLog).result = .summary s ∧
      (Table.ofLines tenSeconds promptLog).text = "0\t120.5\n10\t-1\n20\t-1\n30\t1500\n" ∧
      s.sampleCount = 4 ∧ s.sentinelCount = 2 ∧
      s.firstTime?.map toText = some "0".toList ∧ s.lastTime?.map toText = some "30".toList := by
  have hlines : ∀ line ∈ promptLog, InOrder tenSeconds line := by decide +kernel
  have hrows : (extract tenSeconds promptLog).1.map Sample.row
      = ["0\t120.5".toList, "10\t-1".toList, "20\t-1".toList, "30\t1500".toList] := by
    decide +kernel
  have hresult : (Table.ofLines tenSeconds promptLog).result
      = .summary (Summary.ofSamples (extract tenSeconds promptLog).1) := by
    simp only [Table.ofLines, extract_of_inOrder hlines]
  obtain ⟨⟨htext, hcount, -⟩, ⟨hsentinels, -⟩, -, -, hfirst, hlast, -⟩ :=
    Table.summary_agrees_rows tenSeconds promptLog _ hresult
  rw [hrows] at htext hcount hsentinels hfirst hlast
  exact ⟨_, hresult, htext, hcount.symm, hsentinels, hfirst, hlast⟩

end Series

end LoadTest

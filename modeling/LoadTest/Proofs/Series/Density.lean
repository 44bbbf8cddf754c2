import LoadTest.Proofs.Series.Order
/-!
# The density of a regular series

The status lines of a log that is not disturbed stand one after the other, with a header before them
and whatever a benchmark says when it ends after them, and their times are multiples of the step.
The series of such a log has a sample at every step from the first to the last.

* `Regular`: samples that are whole steps apart, from an expected time on.
* `time_of_regular`, `length_of_regular`: filled up they are one step apart.
* `GapFree`: a series with a sample at every step; `extract_gapFree` says that a regular log has one.
-/

namespace LoadTest

namespace Series

open Binary64

variable {o : Options} {delta e stop : Int} {own : List Sample}

/-! ## Filling up -/

/-- Samples with the steps that were missed before each of them, from an expected time on. -/
def filled (delta : Int) : Int → List Sample → List Sample
  | _, [] => []
  | e, y :: ys =>
    (missedTimes delta e y.time.integer).map (fun z => missed (ofInt z))
      ++ y :: filled delta (y.time.integer + delta) ys

/-- Samples are whole steps apart, at least one and each from the step that follows the one before.
The first one may be any number of steps after the expected time; `stop` is a step after the last. -/
inductive Regular (delta : Int) : Int → List Sample → Int → Prop
  | nil (e : Int) : Regular delta e [] e
  | cons {e stop : Int} {y : Sample} {ys : List Sample} (n : Nat)
      (time : y.time.toInt? = some (e + n * delta)) (safe : e + n * delta ≤ maxSafe)
      (rest : Regular delta (e + n * delta + delta) ys stop) : Regular delta e (y :: ys) stop

theorem filled_of_time (hdelta : 0 < delta) {y : Sample} {ys : List Sample} {n : Nat}
    (hy : y.time.toInt? = some (e + n * delta)) :
    filled delta e (y :: ys) = ((List.range n).map fun (k : Nat) => missed (ofInt (e + k * delta)))
      ++ y :: filled delta (e + n * delta + delta) ys := by
  rw [filled, integer_of_toInt? hy, missedTimes_add hdelta, List.map_map]
  rfl

/-- **There is a sample for every step.** -/
theorem length_of_regular (hdelta : 0 < delta) (h : Regular delta e own stop) :
    e + ((filled delta e own).length : Int) * delta = stop := by
  induction h with
  | nil e => simp [filled]
  | @cons e stop y ys n hy _ _ ih =>
    rw [filled_of_time hdelta hy, List.length_append, List.length_map, List.length_range,
      List.length_cons, ← ih]
    push_cast
    ring

/-- **Each sample is at its step.** -/
theorem time_of_regular (hdelta : 0 < delta) (h : Regular delta e own stop)
    (he : -(maxSafe : Int) ≤ e) :
    ∀ {k : Nat} {x : Sample}, (filled delta e own)[k]? = some x →
      x.time.toInt? = some (e + k * delta) := by
  induction h with
  | nil e =>
    intro k x hx
    cases hx
  | @cons e stop y ys n hy hsafe _ ih =>
    intro k x hx
    have hn : 0 ≤ (n : Int) * delta := Int.mul_nonneg (by omega) hdelta.le
    rw [filled_of_time hdelta hy] at hx
    rcases Nat.lt_trichotomy k n with hlt | rfl | hgt
    · rw [List.getElem?_append_left (by simpa using hlt), List.getElem?_map,
        List.getElem?_range hlt] at hx
      obtain rfl := Option.some.inj hx
      have hmem : e + k * delta ∈ missedTimes delta e (e + n * delta) := by
        rw [missedTimes_add hdelta]
        exact List.mem_map.2 ⟨k, List.mem_range.2 hlt, rfl⟩
      exact (toInt?_of_mem_missedTimes hdelta he hsafe hmem).1
    · rw [List.getElem?_append_right (by simp)] at hx
      simp only [List.length_map, List.length_range, Nat.sub_self, List.getElem?_cons_zero,
        Option.some.injEq] at hx
      rwa [← hx]
    · -- past the sample itself the steps are counted from the one after it
      obtain ⟨j, rfl⟩ := Nat.exists_eq_add_of_lt hgt
      rw [List.getElem?_append_right (by simp; omega)] at hx
      have hj : n + j + 1 - n = j + 1 := by omega
      simp only [List.length_map, List.length_range, hj, List.getElem?_cons_succ] at hx
      rw [ih (by omega) hx]
      push_cast
      congr 1
      ring

theorem mem_filled_of_mem : ∀ (own : List Sample) (e : Int),
    ∀ y ∈ own, y ∈ filled delta e own := by
  intro own
  induction own with
  | nil =>
    intro e y hy
    cases hy
  | cons first own ih =>
    intro e y hy
    rw [filled, List.mem_append, List.mem_cons]
    rcases List.mem_cons.1 hy with rfl | hy
    · exact .inr (.inl rfl)
    · exact .inr (.inr (ih _ y hy))

theorem mem_or_missed_of_mem_filled : ∀ (own : List Sample) (e : Int),
    ∀ x ∈ filled delta e own, x ∈ own ∨ x.latency = noLatency := by
  intro own
  induction own with
  | nil =>
    intro e x hx
    cases hx
  | cons first own ih =>
    intro e x hx
    rw [filled, List.mem_append, List.mem_cons] at hx
    rcases hx with hmissed | rfl | hx
    · obtain ⟨z, -, rfl⟩ := List.mem_map.1 hmissed
      exact .inr rfl
    · exact .inl (List.mem_cons_self ..)
    · exact (ih _ x hx).imp_left (List.mem_cons_of_mem _)

/-! ## Gap-free series -/

/-- **A series without gaps**: a sample at every step from `start` to `last`.  Those of the status
lines, `own`, are among them at their times, and all others have no latency. -/
structure GapFree (delta start last : Int) (own samples : List Sample) : Prop where
  length : (samples.length : Int) = (last - start) / delta + 1
  time : ∀ (k : Nat) (x : Sample), samples[k]? = some x → x.time.toInt? = some (start + k * delta)
  reaches : start + ((samples.length : Int) - 1) * delta = last
  observed : ∀ y ∈ own, ∃ k : Nat, samples[k]? = some y ∧ start + k * delta = y.time.integer
  others : ∀ (k : Nat) (x : Sample), samples[k]? = some x →
    (∀ y ∈ own, y.time.integer ≠ start + k * delta) → x.latency = noLatency

theorem gapFree_of_regular {last : Int} (hdelta : 0 < delta) (he : -(maxSafe : Int) ≤ e)
    (h : Regular delta e own (last + delta)) : GapFree delta e last own (filled delta e own) := by
  have hlength := length_of_regular hdelta h
  have hlast : e + (((filled delta e own).length : Int) - 1) * delta = last := by
    rw [Int.sub_mul, Int.one_mul]
    omega
  have htime : ∀ (k : Nat) (x : Sample), (filled delta e own)[k]? = some x →
      x.time.toInt? = some (e + k * delta) := fun k x hx => time_of_regular hdelta h he hx
  refine ⟨?_, htime, hlast, ?_, ?_⟩
  · have hspan : last - e = (((filled delta e own).length : Int) - 1) * delta := by omega
    rw [hspan, Int.mul_ediv_cancel _ hdelta.ne', Int.sub_add_cancel]
  · intro y hy
    obtain ⟨k, hk⟩ := List.mem_iff_getElem?.1 (mem_filled_of_mem own e y hy)
    exact ⟨k, hk, (integer_of_toInt? (htime k y hk)).symm⟩
  · intro k x hx hother
    rcases mem_or_missed_of_mem_filled own e x (List.mem_of_getElem? hx) with hown | hmissed
    · exact absurd (integer_of_toInt? (htime k x hx)) (hother x hown)
    · exact hmissed

/-! ## Regular logs -/

/-- A line is a status line and is read as a sample at a safe integer. -/
structure ReadAs (o : Options) (line : String) (sample : Sample) : Prop where
  throughput : StatusLine.isThroughput line.toList = true
  read : StatusLine.read o.operation line = .ok sample
  safe : sample.time.isSafeInteger = true

theorem ReadAs.lineSample? {line : String} {sample : Sample} (h : ReadAs o line sample) :
    lineSample? o line = some sample :=
  lineSample?_of_read h.throughput h.read

theorem ReadAs.inOrder {line : String} {sample : Sample} (h : ReadAs o line sample) :
    InOrder o line :=
  fun _ => ⟨sample, h.read, h.safe⟩

theorem inOrder_of_readAs {status : List String} (h : List.Forall₂ (ReadAs o) status own) :
    ∀ line ∈ status, InOrder o line := by
  induction h with
  | nil => simp
  | cons hline _ ih => exact List.forall_mem_cons.2 ⟨hline.inOrder, ih⟩

theorem isSafeInteger_of_readAs {status : List String} (h : List.Forall₂ (ReadAs o) status own) :
    ∀ y ∈ own, y.time.isSafeInteger = true := by
  induction h with
  | nil => simp
  | cons hline _ ih => exact List.forall_mem_cons.2 ⟨hline.safe, ih⟩

/-- Lines that are skipped move the expected time on by a step each. -/
theorem exactFrom_skipped {skipped rest : List String} :
    ∀ {e : Int}, (∀ line ∈ skipped, StatusLine.isThroughput line.toList = false) →
      exactFrom o e (skipped ++ rest) = exactFrom o (e + skipped.length * o.delta.integer) rest := by
  induction skipped with
  | nil => intro e _; simp
  | cons line skipped ih =>
    intro e h
    obtain ⟨hline, hrest⟩ := List.forall_mem_cons.1 h
    rw [List.cons_append, exactFrom_of_none (lineSample?_of_skipped hline), ih hrest,
      List.length_cons]
    congr 1
    push_cast
    ring

/-- Status lines are filled up, and nothing comes of the lines after them. -/
theorem exactFrom_statusLines {status trailer : List String}
    (hstatus : List.Forall₂ (ReadAs o) status own)
    (htrailer : ∀ line ∈ trailer, StatusLine.isThroughput line.toList = false) :
    ∀ {e : Int}, exactFrom o e (status ++ trailer) = filled o.delta.integer e own := by
  induction hstatus with
  | nil =>
    intro e
    have hskipped : exactFrom o e (trailer ++ []) = exactFrom o _ [] := exactFrom_skipped htrailer
    rwa [List.append_nil, exactFrom_nil] at hskipped
  | cons hline _ ih =>
    intro e
    rw [List.cons_append, exactFrom_of_some hline.lineSample?, filled, ih]

theorem exists_steps (hdelta : 0 < delta) {t : Int} (he : delta ∣ e) (ht : delta ∣ t) (hle : e ≤ t) :
    ∃ n : Nat, t = e + n * delta := by
  obtain ⟨m, hm⟩ := Int.dvd_sub ht he
  have hm0 : 0 ≤ m := by
    by_contra hneg
    have := Int.mul_neg_of_pos_of_neg hdelta (Int.not_le.1 hneg)
    omega
  obtain ⟨n, rfl⟩ := Int.eq_ofNat_of_zero_le hm0
  exact ⟨n, by rw [Int.mul_comm, ← hm]; omega⟩

/-- Increasing multiples of the step are regular from any earlier multiple on. -/
theorem regular_of_increasing (hdelta : 0 < delta) :
    ∀ (rest : List Sample) (first : Sample) (e : Int),
      (∀ y ∈ first :: rest, y.time.isSafeInteger = true) →
      (∀ y ∈ first :: rest, delta ∣ y.time.integer) →
      (first :: rest).Pairwise (fun x y => x.time < y.time) →
      delta ∣ e → e ≤ first.time.integer →
        Regular delta e (first :: rest)
          (((first :: rest).getLast (List.cons_ne_nil _ _)).time.integer + delta) := by
  intro rest
  induction rest with
  | nil =>
    intro first e hsafe hgrid _ he hle
    have hmem : first ∈ [first] := List.mem_singleton_self first
    obtain ⟨htime, hbound⟩ := toInt?_eq_integer (hsafe first hmem)
    obtain ⟨n, hn⟩ := exists_steps hdelta he (hgrid first hmem) hle
    rw [List.getLast_singleton, hn]
    rw [hn] at htime
    exact .cons n htime (by omega) (.nil _)
  | cons second rest ih =>
    intro first e hsafe hgrid hincreasing he hle
    obtain ⟨hfirstSafe, hrestSafe⟩ := List.forall_mem_cons.1 hsafe
    obtain ⟨hfirstGrid, hrestGrid⟩ := List.forall_mem_cons.1 hgrid
    obtain ⟨hbefore, hrest⟩ := List.pairwise_cons.1 hincreasing
    have hmem : second ∈ second :: rest := List.mem_cons_self ..
    -- the next multiple of the step is not later than the second sample
    have hnext : first.time.integer + delta ≤ second.time.integer := by
      have hlt := (lt_iff_integer_lt hfirstSafe (hrestSafe second hmem)).1 (hbefore second hmem)
      have := Int.le_of_dvd (by omega) (Int.dvd_sub (hrestGrid second hmem) hfirstGrid)
      omega
    have htail := ih second (first.time.integer + delta) hrestSafe hrestGrid hrest
      (Int.dvd_add hfirstGrid (Int.dvd_refl delta)) hnext
    obtain ⟨htime, hbound⟩ := toInt?_eq_integer hfirstSafe
    obtain ⟨n, hn⟩ := exists_steps hdelta he hfirstGrid hle
    rw [List.getLast_cons (List.cons_ne_nil _ _)]
    rw [hn] at htime htail
    exact .cons n htime (by omega) htail

/-- If the first sample is earlier than expected, nothing was missed before it. -/
theorem filled_min (hdelta : 0 < delta) (e : Int) (first : Sample) (rest : List Sample) :
    filled delta (min e first.time.integer) (first :: rest) = filled delta e (first :: rest) := by
  rcases Int.le_total e first.time.integer with hle | hle
  · rw [Int.min_eq_left hle]
  · rw [Int.min_eq_right hle, filled, filled, missedTimes_of_le hdelta (Int.le_refl _),
      missedTimes_of_le hdelta hle]

/-- **The series of a regular log has no gaps.**  After a header the first sample is that of the step
with as many steps before it as the header has lines, or the first status line's own if that is
earlier; the last sample is that of the last status line. -/
theorem extract_gapFree {header status trailer : List String} {first : Sample} {rest : List Sample}
    (hsafe : o.delta.isSafeInteger = true)
    (hheader : ∀ line ∈ header, StatusLine.isThroughput line.toList = false)
    (hstatus : List.Forall₂ (ReadAs o) status (first :: rest))
    (htrailer : ∀ line ∈ trailer, StatusLine.isThroughput line.toList = false)
    (hgrid : ∀ y ∈ first :: rest, o.delta.integer ∣ y.time.integer)
    (hincreasing : (first :: rest).Pairwise fun x y => x.time < y.time) :
    ∃ samples, extract o (header ++ status ++ trailer) = (samples, .complete) ∧
      GapFree o.delta.integer (min (header.length * o.delta.integer) first.time.integer)
        ((first :: rest).getLast (List.cons_ne_nil _ _)).time.integer (first :: rest) samples := by
  have hpos := integer_delta_pos hsafe
  have hread := isSafeInteger_of_readAs hstatus
  have hlines : ∀ line ∈ header ++ status ++ trailer, InOrder o line := by
    intro line hline
    rw [List.append_assoc, List.mem_append, List.mem_append] at hline
    rcases hline with hline | hline | hline
    · exact inOrder_of_skipped (hheader line hline)
    · exact inOrder_of_readAs hstatus line hline
    · exact inOrder_of_skipped (htrailer line hline)
  have hfirst := toInt?_eq_integer (hread first (List.mem_cons_self ..))
  have hnonneg : 0 ≤ (header.length : Int) * o.delta.integer :=
    Int.mul_nonneg (by omega) hpos.le
  have hgridStart : o.delta.integer ∣ min (header.length * o.delta.integer) first.time.integer := by
    rcases Int.le_total (header.length * o.delta.integer) first.time.integer with hle | hle
    · rw [Int.min_eq_left hle]
      exact Int.dvd_mul_left _ _
    · rw [Int.min_eq_right hle]
      exact hgrid first (List.mem_cons_self ..)
  have hregular := regular_of_increasing hpos rest first _ hread hgrid hincreasing hgridStart
    (Int.min_le_right _ _)
  refine ⟨_, extract_of_inOrder hlines, ?_⟩
  rw [List.append_assoc, exactFrom_skipped hheader, exactFrom_statusLines hstatus htrailer,
    Int.zero_add, ← filled_min hpos]
  exact gapFree_of_regular hpos (by omega) hregular

/-- What stands before the status lines of an undisturbed run. -/
def shortHeader : List String := ["Command line: -load", "YCSB Client 0.17.0"]

/-- Its status lines, the last of them after two that are missing. -/
def shortStatus : List String :=
  ["30 sec: 90 operations; 9 current ops/sec; [READ AverageLatency(us)=80.5]",
    "40 sec: 180 operations; 9 current ops/sec; [READ AverageLatency(us)=91]",
    "70 sec: 190 operations; 1 current ops/sec; [UPDATE AverageLatency(us)=85]"]

/-- What stands after them. -/
def shortTrailer : List String := ["[OVERALL], RunTime(ms), 71021", ""]

/-- The first of its status lines, as it is read. -/
def shortFirst : Sample := ⟨.ofNat 30, .ofText "80.5".toList⟩

/-- The others. -/
def shortRest : List Sample := [⟨.ofNat 40, .ofNat 91⟩, ⟨.ofNat 70, noLatency⟩]

example : (exactFrom tenSeconds 0 (shortHeader ++ shortStatus ++ shortTrailer)).map
    (fun sample => sample.time.integer) = [20, 30, 40, 50, 60, 70] := by decide +kernel

theorem extract_gapFree_short :
    tenSeconds.delta.isSafeInteger = true ∧
      (∀ line ∈ shortHeader, StatusLine.isThroughput line.toList = false) ∧
      List.Forall₂ (ReadAs tenSeconds) shortStatus (shortFirst :: shortRest) ∧
      (∀ line ∈ shortTrailer, StatusLine.isThroughput line.toList = false) ∧
      (∀ y ∈ shortFirst :: shortRest, tenSeconds.delta.integer ∣ y.time.integer) ∧
      (shortFirst :: shortRest).Pairwise (fun x y => x.time < y.time) ∧
      ∃ samples, extract tenSeconds (shortHeader ++ shortStatus ++ shortTrailer)
          = (samples, .complete) ∧
        GapFree 10 20 70 (shortFirst :: shortRest) samples := by
  have hsafe : tenSeconds.delta.isSafeInteger = true := by decide +kernel
  have hheader : ∀ line ∈ shortHeader, StatusLine.isThroughput line.toList = false := by
    decide +kernel
  have htrailer : ∀ line ∈ shortTrailer, StatusLine.isThroughput line.toList = false := by
    decide +kernel
  have hstatus : List.Forall₂ (ReadAs tenSeconds) shortStatus (shortFirst :: shortRest) := by
    refine .cons ⟨?_, ?_, ?_⟩ (.cons ⟨?_, ?_, ?_⟩ (.cons ⟨?_, ?_, ?_⟩ .nil))
    all_goals decide +kernel
  have hgrid : ∀ y ∈ shortFirst :: shortRest, tenSeconds.delta.integer ∣ y.time.integer := by
    decide +kernel
  have hincreasing : (shortFirst :: shortRest).Pairwise fun x y => x.time < y.time := by
    decide +kernel
  have hdelta : tenSeconds.delta.integer = 10 := by decide +kernel
  have hstart : min ((shortHeader.length : Int) * 10) shortFirst.time.integer = 20 := by decide +kernel
  have hlast : ((shortFirst :: shortRest).getLast (List.cons_ne_nil _ _)).time.integer = 70 := by
    decide +kernel
  obtain ⟨samples, hseries, hgapFree⟩ :=
    extract_gapFree hsafe hheader hstatus htrailer hgrid hincreasing
  rw [hdelta, hstart, hlast] at hgapFree
  exact ⟨hsafe, hheader, hstatus, htrailer, hgrid, hincreasing, samples, hseries, hgapFree⟩

end Series

end LoadTest

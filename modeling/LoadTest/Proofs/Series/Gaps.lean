import LoadTest.Proofs.Series.Order
/-!
# The gaps of a series

The series of a log that was disturbed can have gaps: a status line that comes after skipped lines is
expected as many steps later, and the steps in between are not filled up.  Here each sample of a
series is traced to the line that adds it, and neighbouring samples are compared.

* `MissedAt`, `OwnAt`: a line adds samples for steps that were missed, and then its own.
* `expectedAt_of_skipped`: the expected time after lines that are skipped.
* `Neighbours`: where two samples in a row can come from, and how far apart they are;
  `extract_neighbours` says that there are no other cases.
-/

namespace LoadTest

namespace Series

open Binary64

variable {o : Options} {lines : List String} {i j k p : Nat} {a b x sample : Sample}

/-! ## Where a sample comes from -/

/-- How many samples a log has given before the line of an index. -/
def givenBefore (o : Options) (lines : List String) (i : Nat) : Nat :=
  (extract o (lines.take i)).1.length

/-- The sample at a position of the series is for a step that was missed before the line of an index:
the line adds it, and others after it. -/
structure MissedAt (o : Options) (lines : List String) (i p : Nat) (x : Sample) : Prop where
  after : givenBefore o lines i ≤ p
  before : p + 1 < givenBefore o lines (i + 1)
  latency : x.latency = noLatency

/-- The sample at a position is the own sample of the line of an index: the last one that it adds,
and what it is read as. -/
structure OwnAt (o : Options) (lines : List String) (i p : Nat) (x : Sample) : Prop where
  after : givenBefore o lines i ≤ p
  last : p + 1 = givenBefore o lines (i + 1)
  read : observed? o lines i = some x

/-- All lines between those of two indexes are skipped. -/
def SkippedBetween (lines : List String) (j i : Nat) : Prop :=
  ∀ k, j < k → k < i → ∃ line, lines[k]? = some line ∧ StatusLine.isThroughput line.toList = false

/-- **Two samples in a row**, at a position and the next one, and how far apart they are. -/
inductive Neighbours (o : Options) (lines : List String) (p : Nat) (a b : Sample) : Prop
  /-- Both are steps that were missed before one line. -/
  | missed (i : Nat) (first : MissedAt o lines i p a) (second : MissedAt o lines i (p + 1) b)
      (gap : b.time.integer - a.time.integer = o.delta.integer)
  /-- A line's own sample comes after the last step that was missed before it. -/
  | reached (i : Nat) (first : MissedAt o lines i p a) (second : OwnAt o lines i (p + 1) b)
      (later : 0 < b.time.integer - a.time.integer)
      (gap : b.time.integer - a.time.integer ≤ o.delta.integer)
  /-- The first step that was missed before a line comes after the own sample of the status line
  before it. -/
  | resumed (j i : Nat) (first : OwnAt o lines j p a) (second : MissedAt o lines i (p + 1) b)
      (start : givenBefore o lines i = p + 1) (lt : j < i) (skipped : SkippedBetween lines j i)
      (gap : b.time.integer - a.time.integer = ((i : Int) - j) * o.delta.integer)
  /-- No step was missed between two status lines. -/
  | joined (j i : Nat) (first : OwnAt o lines j p a) (second : OwnAt o lines i (p + 1) b)
      (start : givenBefore o lines i = p + 1) (lt : j < i) (skipped : SkippedBetween lines j i)
      (gap : b.time.integer - a.time.integer ≤ ((i : Int) - j) * o.delta.integer)

/-! ## Positions -/

theorem length_flatMap_range_succ {α : Type} (f : Nat → List α) (i : Nat) :
    ((List.range (i + 1)).flatMap f).length = ((List.range i).flatMap f).length + (f i).length := by
  rw [List.range_succ, List.flatMap_append, List.length_append, List.flatMap_singleton]

/-- A position in lists laid end to end is a position in one of them. -/
theorem exists_of_getElem?_flatMap_range {α : Type} {f : Nat → List α} {x : α} {p : Nat} :
    ∀ {n : Nat}, ((List.range n).flatMap f)[p]? = some x →
      ∃ i < n, ∃ k, p = ((List.range i).flatMap f).length + k ∧ (f i)[k]? = some x := by
  intro n
  induction n with
  | zero =>
    intro h
    cases h
  | succ n ih =>
    intro h
    rw [List.range_succ, List.flatMap_append, List.flatMap_singleton] at h
    rcases Nat.lt_or_ge p ((List.range n).flatMap f).length with hlt | hge
    · rw [List.getElem?_append_left hlt] at h
      obtain ⟨i, hi, hk⟩ := ih h
      exact ⟨i, by omega, hk⟩
    · rw [List.getElem?_append_right hge] at h
      exact ⟨n, by omega, _, (Nat.add_sub_cancel' hge).symm, h⟩

/-- The series of the lines before an index is what they add to the series of the log. -/
theorem extract_take (hlines : ∀ line ∈ lines, InOrder o line) (hi : i ≤ lines.length) :
    extract o (lines.take i) = ((List.range i).flatMap (samplesAt o lines), .complete) := by
  have htake : ∀ line ∈ lines.take i, InOrder o line := fun line hline =>
    hlines line (List.mem_of_mem_take hline)
  have hsplit : lines = [] ++ (lines.take i ++ lines.drop i) := by
    rw [List.nil_append, List.take_append_drop]
  have hloop := exactFrom_eq_samplesAt (o := o) (lines.drop i) (lines.take i) [] hsplit
  rw [List.length_nil, expectedAt_zero, List.length_take, Nat.min_eq_left hi,
    ← List.range_eq_range'] at hloop
  rw [extract_of_inOrder htake, hloop]

theorem givenBefore_eq (hlines : ∀ line ∈ lines, InOrder o line) (hi : i ≤ lines.length) :
    givenBefore o lines i = ((List.range i).flatMap (samplesAt o lines)).length := by
  rw [givenBefore, extract_take hlines hi]

theorem givenBefore_succ (hlines : ∀ line ∈ lines, InOrder o line) (hi : i < lines.length) :
    givenBefore o lines (i + 1) = givenBefore o lines i + (samplesAt o lines i).length := by
  rw [givenBefore_eq hlines hi, givenBefore_eq hlines hi.le, length_flatMap_range_succ]

theorem givenBefore_mono (hlines : ∀ line ∈ lines, InOrder o line) (hij : i ≤ j)
    (hj : j ≤ lines.length) : givenBefore o lines i ≤ givenBefore o lines j := by
  induction j, hij using Nat.le_induction with
  | base => exact Nat.le_refl _
  | succ j _ ih =>
    rw [givenBefore_succ hlines hj]
    exact Nat.le_add_right_of_le (ih (Nat.le_of_succ_le hj))

/-- Every sample of a series is added by one of its lines. -/
theorem exists_line_of_getElem? (hlines : ∀ line ∈ lines, InOrder o line)
    (hx : (extract o lines).1[p]? = some x) :
    ∃ i < lines.length, ∃ k, p = givenBefore o lines i + k ∧
      (samplesAt o lines i)[k]? = some x := by
  have hall := extract_take hlines (Nat.le_refl lines.length)
  rw [List.take_length] at hall
  rw [hall] at hx
  obtain ⟨i, hi, k, hp, hk⟩ := exists_of_getElem?_flatMap_range hx
  exact ⟨i, hi, k, by rw [givenBefore_eq hlines hi.le, hp], hk⟩

/-! ## The samples of one line -/

theorem lt_length_of_observed? (h : observed? o lines i = some sample) : i < lines.length := by
  obtain ⟨line, hline, -⟩ := Option.bind_eq_some_iff.1 h
  exact (List.getElem?_eq_some_iff.1 hline).1

theorem time_of_observed? (hlines : ∀ line ∈ lines, InOrder o line)
    (h : observed? o lines i = some sample) : sample.time.integer.natAbs ≤ maxSafe := by
  obtain ⟨line, hline, hsample⟩ := Option.bind_eq_some_iff.1 h
  exact (time_of_lineSample? (hlines line (List.mem_of_getElem? hline)) hsample).2

/-- A line that is in order and adds nothing is skipped. -/
theorem skipped_of_observed? (hlines : ∀ line ∈ lines, InOrder o line) (hi : i < lines.length)
    (h : observed? o lines i = none) :
    ∃ line, lines[i]? = some line ∧ StatusLine.isThroughput line.toList = false := by
  have hline := List.getElem?_eq_getElem hi
  refine ⟨lines[i], hline, ?_⟩
  rw [observed?, hline, Option.bind_some] at h
  by_contra hnot
  have hthroughput := Bool.eq_true_of_not_eq_false hnot
  obtain ⟨sample, hread, -⟩ := hlines _ (List.getElem_mem hi) hthroughput
  rw [lineSample?_of_read hthroughput hread] at h
  cases h

theorem neg_maxSafe_le_expectedAt (hpos : 0 < o.delta.integer)
    (hlines : ∀ line ∈ lines, InOrder o line) (i : Nat) :
    -(maxSafe : Int) ≤ expectedAt o lines i := by
  induction i with
  | zero =>
    rw [expectedAt_zero]
    omega
  | succ i ih =>
    cases h : observed? o lines i with
    | none =>
      rw [expectedAt_succ_of_none h]
      omega
    | some sample =>
      have := time_of_observed? hlines h
      rw [expectedAt_succ_of_some h]
      omega

theorem length_samplesAt (h : observed? o lines i = some sample) :
    (samplesAt o lines i).length
      = missedSteps o.delta.integer (expectedAt o lines i) sample.time.integer + 1 := by
  rw [samplesAt_of_some h, List.length_append, List.length_map, missedTimes, List.length_map,
    List.length_range, List.length_singleton]

/-- **What a line adds**: first the steps from the expected time on that come before its own, then
its own sample. -/
theorem samplesAt_cases (hpos : 0 < o.delta.integer) (hlines : ∀ line ∈ lines, InOrder o line)
    (hx : (samplesAt o lines i)[k]? = some x) :
    ∃ sample, observed? o lines i = some sample ∧
      ((k < missedSteps o.delta.integer (expectedAt o lines i) sample.time.integer ∧
          x.time.integer = expectedAt o lines i + k * o.delta.integer ∧ x.latency = noLatency) ∨
        (k = missedSteps o.delta.integer (expectedAt o lines i) sample.time.integer ∧
          x = sample)) := by
  cases h : observed? o lines i with
  | none =>
    rw [samplesAt_of_none h] at hx
    cases hx
  | some sample =>
    refine ⟨sample, rfl, ?_⟩
    rw [samplesAt_of_some h] at hx
    have hsafe := time_of_observed? hlines h
    have hlength : ((missedTimes o.delta.integer (expectedAt o lines i) sample.time.integer).map
        fun z => missed (ofInt z)).length
          = missedSteps o.delta.integer (expectedAt o lines i) sample.time.integer := by
      rw [List.length_map, missedTimes, List.length_map, List.length_range]
    rcases Nat.lt_or_ge k
      (missedSteps o.delta.integer (expectedAt o lines i) sample.time.integer) with hlt | hge
    · rw [List.getElem?_append_left (by omega), List.getElem?_map] at hx
      obtain ⟨z, hz, rfl⟩ := Option.map_eq_some_iff.1 hx
      have htime := (toInt?_of_mem_missedTimes hpos (neg_maxSafe_le_expectedAt hpos hlines i)
        (by omega) (List.mem_of_getElem? hz)).1
      rw [missedTimes, List.getElem?_map, List.getElem?_range hlt] at hz
      exact .inl ⟨hlt, by rw [integer_of_toInt? htime, ← Option.some.inj hz], rfl⟩
    · rw [List.getElem?_append_right (by omega), hlength, List.getElem?_singleton] at hx
      split at hx
      · exact .inr ⟨by omega, (Option.some.inj hx).symm⟩
      · cases hx

/-! ## The expected time after skipped lines -/

/-- **Each skipped line moves the expected time on by a step** from that of the status line before. -/
theorem expectedAt_of_skipped (hj : observed? o lines j = some sample) (hij : j < i)
    (hskipped : ∀ k, j < k → k < i → observed? o lines k = none) :
    expectedAt o lines i = sample.time.integer + ((i : Int) - j) * o.delta.integer := by
  induction i, hij using Nat.le_induction with
  | base =>
    rw [expectedAt_succ_of_some hj]
    push_cast
    ring
  | succ i hij ih =>
    rw [expectedAt_succ_of_none (hskipped i hij (by omega)),
      ih fun k hjk hki => hskipped k hjk (by omega)]
    push_cast
    ring

/-- Lines that add nothing are skipped. -/
theorem observed?_eq_none_of_givenBefore (hlines : ∀ line ∈ lines, InOrder o line)
    (hi : i < lines.length) (h : givenBefore o lines (i + 1) ≤ givenBefore o lines i) :
    observed? o lines i = none := by
  cases hobs : observed? o lines i with
  | none => rfl
  | some sample =>
    rw [givenBefore_succ hlines hi, length_samplesAt hobs] at h
    omega

/-! ## Neighbours -/

/-- A sample is added by one line only. -/
theorem line_unique (hlines : ∀ line ∈ lines, InOrder o line) (hi : i < lines.length)
    (hj : j < lines.length) (hip : givenBefore o lines i ≤ p) (hpi : p < givenBefore o lines (i + 1))
    (hjp : givenBefore o lines j ≤ p) (hpj : p < givenBefore o lines (j + 1)) : i = j := by
  rcases Nat.lt_trichotomy i j with hlt | heq | hgt
  · have : givenBefore o lines (i + 1) ≤ givenBefore o lines j :=
      givenBefore_mono hlines hlt hj.le
    omega
  · exact heq
  · have : givenBefore o lines (j + 1) ≤ givenBefore o lines i :=
      givenBefore_mono hlines hgt hi.le
    omega

theorem lt_givenBefore_succ (hlines : ∀ line ∈ lines, InOrder o line) (hi : i < lines.length)
    (hk : (samplesAt o lines i)[k]? = some x) :
    givenBefore o lines i + k < givenBefore o lines (i + 1) := by
  have := (List.getElem?_eq_some_iff.1 hk).1
  rw [givenBefore_succ hlines hi]
  omega

/-- **In the samples of one line** a missed step is followed by the next one or by the line's own
sample. -/
theorem neighbours_of_missed (hsafe : o.delta.isSafeInteger = true)
    (hlines : ∀ line ∈ lines, InOrder o line) (hobs : observed? o lines i = some sample)
    (ha : (samplesAt o lines i)[k]? = some a) (hb : (samplesAt o lines i)[k + 1]? = some b) :
    Neighbours o lines (givenBefore o lines i + k) a b := by
  have hpos := integer_delta_pos hsafe
  have hsucc := givenBefore_succ hlines (lt_length_of_observed? hobs)
  rw [length_samplesAt hobs] at hsucc
  obtain ⟨sample', hobs', hacase⟩ := samplesAt_cases hpos hlines ha
  obtain rfl := Option.some.inj (hobs.symm.trans hobs')
  obtain ⟨sample', hobs', hbcase⟩ := samplesAt_cases hpos hlines hb
  obtain rfl := Option.some.inj (hobs.symm.trans hobs')
  rcases hbcase with ⟨hblt, hbtime, hblatency⟩ | ⟨hbeq, rfl⟩
  · rcases hacase with ⟨halt, hatime, halatency⟩ | ⟨haeq, -⟩
    · refine .missed i ⟨by omega, by omega, halatency⟩ ⟨by omega, by omega, hblatency⟩ ?_
      rw [hatime, hbtime]
      push_cast
      ring
    · omega
  · rcases hacase with ⟨halt, hatime, halatency⟩ | ⟨haeq, -⟩
    · -- the step before the line's own sample is the last one that lies before it
      have hbefore := (lt_missedSteps_iff hpos _ _ _).1 halt
      have hafter := (missedSteps_le_iff hpos _ _ _).1 hbeq.ge
      refine .reached i ⟨by omega, by omega, halatency⟩ ⟨by omega, by omega, hobs⟩ ?_ ?_
      · omega
      · push_cast at hafter
        rw [Int.add_mul, Int.one_mul] at hafter
        omega
    · omega

/-- **Between two lines** the own sample of the first is followed by the first sample of the next
status line, which is at the expected time or the line's own. -/
theorem neighbours_of_own (hsafe : o.delta.isSafeInteger = true)
    (hlines : ∀ line ∈ lines, InOrder o line) (hfirst : OwnAt o lines j p a) (hij : j < i)
    (hi : i < lines.length) (hstart : givenBefore o lines i = p + 1)
    (hb : (samplesAt o lines i)[0]? = some b) : Neighbours o lines p a b := by
  have hpos := integer_delta_pos hsafe
  have hnone : ∀ k, j < k → k < i → observed? o lines k = none := by
    intro k hjk hki
    have hlast := hfirst.last
    have hle : givenBefore o lines (j + 1) ≤ givenBefore o lines k :=
      givenBefore_mono hlines hjk (by omega)
    have hge : givenBefore o lines (k + 1) ≤ givenBefore o lines i :=
      givenBefore_mono hlines hki hi.le
    exact observed?_eq_none_of_givenBefore hlines (by omega) (by omega)
  have hskipped : SkippedBetween lines j i := fun k hjk hki =>
    skipped_of_observed? hlines (by omega) (hnone k hjk hki)
  have hexpected := expectedAt_of_skipped hfirst.read hij hnone
  obtain ⟨sample, hobs, hcase⟩ := samplesAt_cases hpos hlines hb
  have hsucc := givenBefore_succ hlines hi
  rw [length_samplesAt hobs] at hsucc
  rcases hcase with ⟨hlt, htime, hlatency⟩ | ⟨hzero, rfl⟩
  · refine .resumed j i hfirst ⟨by omega, by omega, hlatency⟩ hstart hij hskipped ?_
    rw [htime, hexpected]
    push_cast
    ring
  · have hearly := (missedSteps_le_iff hpos _ _ _).1 hzero.ge
    refine .joined j i hfirst ⟨by omega, by omega, hobs⟩ hstart hij hskipped ?_
    push_cast at hearly
    omega

theorem neighbours_of_getElem? (hsafe : o.delta.isSafeInteger = true)
    (hlines : ∀ line ∈ lines, InOrder o line) (ha : (extract o lines).1[p]? = some a)
    (hb : (extract o lines).1[p + 1]? = some b) : Neighbours o lines p a b := by
  obtain ⟨j, hj, k, rfl, hak⟩ := exists_line_of_getElem? hlines ha
  obtain ⟨i, hi, k', hp, hbk⟩ := exists_line_of_getElem? hlines hb
  obtain ⟨sample, hobs, hcase⟩ := samplesAt_cases (integer_delta_pos hsafe) hlines hak
  have hsucc := givenBefore_succ hlines hj
  have hlt := lt_givenBefore_succ hlines hi hbk
  rw [length_samplesAt hobs] at hsucc
  rcases hcase with ⟨hmissed, -, -⟩ | ⟨hown, rfl⟩
  · obtain rfl := line_unique (p := givenBefore o lines j + k + 1) hlines hi hj (by omega)
      (by omega) (by omega) (by omega)
    obtain rfl : k' = k + 1 := by omega
    exact neighbours_of_missed hsafe hlines hobs hak hbk
  · have hij : j < i := by
      by_contra hge
      have : givenBefore o lines (i + 1) ≤ givenBefore o lines (j + 1) :=
        givenBefore_mono hlines (by omega) hj
      omega
    have hmono : givenBefore o lines (j + 1) ≤ givenBefore o lines i :=
      givenBefore_mono hlines hij hi.le
    obtain rfl : k' = 0 := by omega
    exact neighbours_of_own hsafe hlines ⟨by omega, by omega, hobs⟩ hij hi (by omega) hbk

/-- More than a step in as many steps as there are lines takes more than one line. -/
theorem lt_of_gap {gap : Int} (hij : j < i)
    (hle : gap ≤ ((i : Int) - j) * o.delta.integer) (hjump : o.delta.integer < gap) : j + 1 < i := by
  by_contra hnot
  have hone : (i : Int) - j = 1 := by omega
  rw [hone, Int.one_mul] at hle
  omega

/-- **Gaps come only from skipped lines.**  Neighbours in a series are as `Neighbours` says; the time
goes back only between the own samples of two lines, and it jumps by more than a step only between
status lines with skipped lines between them. -/
theorem extract_neighbours (hsafe : o.delta.isSafeInteger = true)
    (hlines : ∀ line ∈ lines, InOrder o line) {p : Nat} {a b : Sample}
    (ha : (extract o lines).1[p]? = some a) (hb : (extract o lines).1[p + 1]? = some b) :
    a.time.isSafeInteger = true ∧ b.time.isSafeInteger = true ∧ Neighbours o lines p a b ∧
      (b.time.integer ≤ a.time.integer →
        ∃ j i, j < i ∧ OwnAt o lines j p a ∧ OwnAt o lines i (p + 1) b) ∧
      (o.delta.integer < b.time.integer - a.time.integer →
        ∃ j i, OwnAt o lines j p a ∧ givenBefore o lines i = p + 1 ∧ j + 1 < i ∧
          SkippedBetween lines j i) := by
  have hpos := integer_delta_pos hsafe
  have hneighbours := neighbours_of_getElem? hsafe hlines ha hb
  have hall : ∀ x ∈ (extract o lines).1, x.time.isSafeInteger = true := by
    rw [extract_of_inOrder hlines]
    exact isSafeInteger_of_mem_exactFrom hpos hlines (by omega)
  refine ⟨hall a (List.mem_of_getElem? ha), hall b (List.mem_of_getElem? hb), hneighbours, ?_, ?_⟩
  · intro hback
    cases hneighbours with
    | missed i _ _ hgap => omega
    | reached i _ _ hlater _ => omega
    | resumed j i _ _ _ hlt _ hgap =>
      have hlines : (0 : Int) < (i : Int) - j := by omega
      have := Int.mul_pos hlines hpos
      omega
    | joined j i hfirst hsecond _ hlt _ _ => exact ⟨j, i, hlt, hfirst, hsecond⟩
  · intro hjump
    cases hneighbours with
    | missed i _ _ hgap => omega
    | reached i _ _ _ hgap => omega
    | resumed j i hfirst _ hstart hlt hskipped hgap =>
      exact ⟨j, i, hfirst, hstart, lt_of_gap hlt hgap.le hjump, hskipped⟩
    | joined j i hfirst _ hstart hlt hskipped hgap =>
      exact ⟨j, i, hfirst, hstart, lt_of_gap hlt hgap hjump, hskipped⟩

/-- The first two samples of `unevenLog` after the step before its first status line. -/
def unevenPair : Sample × Sample := (⟨.ofNat 20, .ofText "120.5".toList⟩, missed (.ofNat 40))

/-- The line about a failure accounts for the twenty seconds between them. -/
theorem extract_neighbours_unevenLog :
    tenSeconds.delta.isSafeInteger = true ∧ (∀ line ∈ unevenLog, InOrder tenSeconds line) ∧
      (extract tenSeconds unevenLog).1[1]? = some unevenPair.1 ∧
      (extract tenSeconds unevenLog).1[2]? = some unevenPair.2 ∧
      Neighbours tenSeconds unevenLog 1 unevenPair.1 unevenPair.2 ∧
      tenSeconds.delta.integer < unevenPair.2.time.integer - unevenPair.1.time.integer ∧
      ∃ j i, OwnAt tenSeconds unevenLog j 1 unevenPair.1 ∧
        givenBefore tenSeconds unevenLog i = 2 ∧ j + 1 < i ∧ SkippedBetween unevenLog j i := by
  have hsafe : tenSeconds.delta.isSafeInteger = true := by decide +kernel
  have hlines : ∀ line ∈ unevenLog, InOrder tenSeconds line := by decide +kernel
  have hseries : (extract tenSeconds unevenLog).1 = exactFrom tenSeconds 0 unevenLog := by
    rw [extract_of_inOrder hlines]
  have ha : (extract tenSeconds unevenLog).1[1]? = some unevenPair.1 := by
    rw [hseries]
    decide +kernel
  have hb : (extract tenSeconds unevenLog).1[2]? = some unevenPair.2 := by
    rw [hseries]
    decide +kernel
  have hgap : tenSeconds.delta.integer < unevenPair.2.time.integer - unevenPair.1.time.integer := by
    decide +kernel
  obtain ⟨-, -, hneighbours, -, hjump⟩ := extract_neighbours hsafe hlines ha hb
  exact ⟨hsafe, hlines, ha, hb, hneighbours, hgap, hjump hgap⟩

end Series

end LoadTest

import LoadTest.Proofs.Binary64.Reach
import LoadTest.Proofs.Series.Growth
/-!
# Whether a series ends

The missed steps before a status line are counted by adding the step to the expected time until the
line's own time is reached.  The times are numbers of the binary64 format and the timestamps of a
log may have any number of digits, so the count can come to a number that the step is too small to
move: then the same sample is given again and again.

* `Block.samples?_eq_none_iff`: a block has no end if its missed steps start or end beyond the reach
  of the step.
* `length_readBlocks`: how many samples blocks give, one of which perhaps has no end.
* `read_ends_iff`: a series ends just if every gap of its log lies within the reach of the step.
-/

namespace LoadTest

namespace Series

open Binary64

variable {o : Options} {x y : Binary64} {n : Nat} {b : Block} {bs : List Block}
  {lines : List String}

/-! ## The missed steps of one line -/

/-- Steps that start within the reach of the step and are to end at most at its reach do end. -/
theorem isSome_stepsFrom? (o : Options) {stop : Binary64} (hstop : ¬ o.delta.reach < stop)
    (done : List Binary64) (time : Binary64) (h : Within o.delta time) :
    (stepsFrom? o.delta stop done time).isSome = true := by
  obtain ⟨hd, hpos⟩ := toInt?_delta o
  by_cases hlt : time < stop
  · have hmove : time < time + o.delta :=
      lt_add_of_within hd hpos h (lt_reach_of_lt hd hpos hlt hstop)
    have hroom := room_lt_of_lt hmove
    rw [stepsFrom?_of_lt hlt hmove]
    exact isSome_stepsFrom? o hstop (time :: done) (time + o.delta) (h.of_lt hmove)
  · rw [stepsFrom?_of_not_lt hlt]
    rfl
termination_by room time

/-- Steps that start at most at the reach of the step and are to end beyond it do not end. -/
theorem stepsFrom?_eq_none (o : Options) {stop : Binary64} (hstop : o.delta.reach < stop)
    (done : List Binary64) (time : Binary64) (hlt : time < stop) (h : ¬ o.delta.reach < time) :
    stepsFrom? o.delta stop done time = none := by
  obtain ⟨hd, hpos⟩ := toInt?_delta o
  by_cases hmove : time < time + o.delta
  · have hroom := room_lt_of_lt hmove
    have hnext := not_reach_lt_add hd hpos h
    have hltnext : time + o.delta < stop := by
      obtain ⟨a, b, -, hb, -⟩ := exists_place?_of_lt hmove
      obtain ⟨r, s, hr, hs, hrs⟩ := exists_place?_of_lt hstop
      rw [lt_iff_of_place? hr hb] at hnext
      rw [lt_iff_of_place? hb hs]
      omega
    rw [stepsFrom?_of_lt hlt hmove]
    exact stepsFrom?_eq_none o hstop (time :: done) (time + o.delta) hltnext hnext
  · exact stepsFrom?_of_stuck hlt hmove
termination_by room time

/-- The gap before a status line can be **crossed**: if there are missed steps at all they start
within the reach of the step, and the line is not beyond it. -/
def Crossable (o : Options) (b : Block) : Prop :=
  b.expected < b.own.time → Within o.delta b.expected ∧ ¬ o.delta.reach < b.own.time

/-- The expected time of a block is a number that the step has led to. -/
theorem exists_expected_of_mem_walk (o : Options) (lines : List String) (x : Binary64) :
    ∀ b ∈ (walk o x [] lines).1, ∃ y, b.expected = y + o.delta := by
  induction lines generalizing x with
  | nil =>
    intro b hb
    simp [walk] at hb
  | cons line lines ih =>
    intro b hb
    rw [walk] at hb
    split at hb
    · split at hb
      · simp at hb
      · rw [walk_eq, List.reverse_singleton, List.singleton_append, List.mem_cons] at hb
        rcases hb with rfl | hb
        · exact ⟨x, rfl⟩
        · exact ih _ b hb
    · exact ih _ b hb

/-- **A block has no end just if its gap cannot be crossed.** -/
theorem Block.samples?_eq_none_iff (h : b.expected = y + o.delta) :
    b.samples? o.delta = none ↔ ¬ Crossable o b := by
  obtain ⟨hd, hpos⟩ := toInt?_delta o
  rw [Block.samples?, Option.map_eq_none_iff, Crossable]
  constructor
  · intro hnone hcross
    by_cases hlt : b.expected < b.own.time
    · obtain ⟨hlow, hhigh⟩ := hcross hlt
      have hsome := isSome_stepsFrom? o hhigh [] _ hlow
      rw [hnone] at hsome
      cases hsome
    · rw [stepsFrom?_of_not_lt hlt] at hnone
      cases hnone
  · intro hcross
    rw [Classical.not_imp, Classical.not_and_iff_not_or_not, Classical.not_not] at hcross
    obtain ⟨hlt, hout⟩ := hcross
    by_cases hbeyond : ¬ Within o.delta b.expected ∨ o.delta.reach < b.expected
    · rw [h] at hlt hbeyond ⊢
      exact stepsFrom?_of_stuck hlt (not_lt_add_of_beyond hd hpos hbeyond)
    · rw [not_or] at hbeyond
      exact stepsFrom?_eq_none o (hout.resolve_left hbeyond.1) [] _ hlt hbeyond.2

/-! ## Reading blocks -/

/-- Steps without end give as many as are asked for. -/
theorem length_stepsUpTo {stop : Binary64} (n : Nat) : ∀ {time : Binary64},
    stepsFrom? o.delta stop [] time = none → (stepsUpTo o.delta stop n time).length = n := by
  obtain ⟨hd, hpos⟩ := toInt?_delta o
  induction n with
  | zero => exact fun _ => rfl
  | succ n ih =>
    intro time h
    have hlt : time < stop := by
      by_contra hnot
      rw [stepsFrom?_of_not_lt hnot] at h
      cases h
    rw [stepsUpTo, if_pos hlt, List.length_cons]
    by_cases hmove : time < time + o.delta
    · rw [stepsFrom?_of_lt hlt hmove, stepsFrom?_eq, Option.map_eq_none_iff] at h
      rw [ih h]
    · rw [add_eq_self_of_not_lt hd hpos hmove, ih h]

/-- The first samples of a block without end are as many as are asked for. -/
theorem Block.length_first_of_endless (h : b.samples? o.delta = none) (n : Nat) :
    (b.first o.delta n).length = n := by
  have hlen := length_stepsUpTo n (Option.map_eq_none_iff.1 h)
  simp only [Block.first, List.length_map, hlen, Nat.lt_irrefl, if_false]

theorem length_readBlocks_cons (delta : Binary64) (n : Nat) (b : Block) (bs : List Block) :
    (readBlocks delta n [] (b :: bs)).1.length
      = (b.first delta n).length
        + (readBlocks delta (n - (b.first delta n).length) [] bs).1.length := by
  cases n with
  | zero => simp [readBlocks, Block.first, stepsUpTo]
  | succ n =>
    rw [readBlocks, readBlocks_eq]
    simp

theorem length_readBlocks_nil (delta : Binary64) (n : Nat) :
    (readBlocks delta n [] []).1.length = 0 := by
  cases n <;> rfl

/-- **Blocks that end are exhausted**: past some number reading gives no more samples. -/
theorem exists_length_readBlocks (h : ∀ b ∈ bs, (b.samples? o.delta).isSome = true) :
    ∃ total, ∀ n, (readBlocks o.delta n [] bs).1.length = min n total := by
  induction bs with
  | nil => exact ⟨0, fun n => by rw [length_readBlocks_nil, Nat.min_zero]⟩
  | cons b bs ih =>
    obtain ⟨own, hown⟩ := Option.isSome_iff_exists.1 (h b List.mem_cons_self)
    obtain ⟨total, htotal⟩ := ih fun b hb => h b (List.mem_cons_of_mem _ hb)
    refine ⟨own.length + total, fun n => ?_⟩
    rw [length_readBlocks_cons, Block.first_eq_take hown, htotal, List.length_take]
    omega

/-- **Blocks of which one has no end are never exhausted.** -/
theorem length_readBlocks_of_endless (hb : b ∈ bs) (h : b.samples? o.delta = none) (n : Nat) :
    (readBlocks o.delta n [] bs).1.length = n := by
  induction bs generalizing n with
  | nil => cases hb
  | cons b' bs ih =>
    rw [length_readBlocks_cons]
    rcases List.mem_cons.1 hb with rfl | hb
    · rw [Block.length_first_of_endless h, Nat.sub_self, readBlocks]
      rfl
    · rw [ih hb]
      cases hown : b'.samples? o.delta with
      | none => rw [Block.length_first_of_endless hown]; omega
      | some own =>
        rw [Block.first_eq_take hown, List.length_take]
        omega

/-! ## Reading a log -/

theorem read_fst (n : Nat) (o : Options) (lines : List String) :
    (read n o lines).1 = (readBlocks o.delta n [] (blocks o lines).1).1 := rfl

/-- **A series ends just if every gap of its log can be crossed.** -/
theorem read_ends_iff (o : Options) (lines : List String) :
    (∃ n, (read n o lines).1.length < n) ↔ ∀ b ∈ (blocks o lines).1, Crossable o b := by
  have hcross : ∀ b ∈ (blocks o lines).1, (b.samples? o.delta = none ↔ ¬ Crossable o b) := by
    intro b hb
    obtain ⟨y, hy⟩ := exists_expected_of_mem_walk o lines _ b hb
    exact Block.samples?_eq_none_iff hy
  constructor
  · rintro ⟨n, hn⟩ b hb
    by_contra hnot
    rw [read_fst, length_readBlocks_of_endless hb ((hcross b hb).2 hnot)] at hn
    exact Nat.lt_irrefl n hn
  · intro hall
    have hsome : ∀ b ∈ (blocks o lines).1, (b.samples? o.delta).isSome = true := by
      intro b hb
      rw [Option.isSome_iff_ne_none, Ne, hcross b hb]
      exact not_not_intro (hall b hb)
    obtain ⟨total, htotal⟩ := exists_length_readBlocks hsome
    refine ⟨total + 1, ?_⟩
    rw [read_fst, htotal]
    omega

/-- A step of ten seconds reaches `2 ^ 57` seconds, some four thousand million years. -/
example : (tenSeconds.delta.reach.eq (.ofNat 144115188075855872)) = true := by decide +kernel

/-- The options of a series of steps of one second. -/
def oneSecond : Options :=
  { delta := .ofNat 1, operation := defaultOperation.toValue
    isInteger_delta := by decide +kernel, delta_pos := by decide +kernel }

/-- A log with two timestamps just beyond the reach of a second. -/
def distantLog : List String :=
  ["-9007199254740996 sec: 0 operations; 0 current ops/sec",
    "-9007199254740994 sec: 0 operations; 0 current ops/sec"]

/-- The second line of this log is never reached: a second after the first one is rounded back to the
time of the first one. -/
theorem not_exhausted_distantLog : ¬ ∃ n, (read n oneSecond distantLog).1.length < n := by
  have hstuck : ∃ b ∈ (blocks oneSecond distantLog).1,
      b.expected < b.own.time ∧ ¬ b.expected < b.expected + oneSecond.delta := by
    decide +kernel
  obtain ⟨b, hb, hlt, hnot⟩ := hstuck
  have hendless : b.samples? oneSecond.delta = none := by
    rw [Block.samples?, stepsFrom?_of_stuck hlt hnot]
    rfl
  rintro ⟨n, hn⟩
  rw [read_fst, length_readBlocks_of_endless hb hendless] at hn
  exact Nat.lt_irrefl n hn

end Series

end LoadTest

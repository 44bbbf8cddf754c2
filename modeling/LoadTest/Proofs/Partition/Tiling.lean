import Mathlib.Tactic.Ring
import LoadTest.Proofs.Binary64.Whole
import LoadTest.Partition
/-!
# Plans tile the key space

A plan has as many partitions as the record count divided by the count per partition gives, rounded
up.  The quotient is a rounded number, and rounding could take it down to an integer that it exceeds,
which would lose the last partition.  `ceil_ofNat_div_ofNat` says that this does not happen between
safe integers: an integer below the quotient is below it by `1 / perPartition` at least, and that is
more than half the distance between numbers of the format there.

`make_tiles` is the main statement: a plan for counts in order covers every record exactly once, and
anything else is refused.
-/

namespace LoadTest

namespace Binary64

attribute [local irreducible] unitsPerOne overflow

/-- The quotient rounded up. -/
def ceilQuotient (num den : Nat) : Nat := (num + (den - 1)) / den

theorem le_ceilQuotient_mul (num : Nat) {den : Nat} (hden : 0 < den) :
    num ≤ ceilQuotient num den * den := by
  have := Nat.lt_div_mul_add (a := num + (den - 1)) hden
  rw [ceilQuotient]
  omega

theorem ceilQuotient_mul_lt (num : Nat) {den : Nat} (hden : 0 < den) :
    ceilQuotient num den * den < num + den := by
  have := Nat.div_mul_le_self (num + (den - 1)) den
  rw [ceilQuotient]
  omega

theorem ceilQuotient_pos {num den : Nat} (hnum : 0 < num) (hden : 0 < den) :
    0 < ceilQuotient num den :=
  Nat.div_pos (by omega) hden

theorem ceilQuotient_le (num : Nat) {den : Nat} (hden : 0 < den) : ceilQuotient num den ≤ num := by
  rw [ceilQuotient, Nat.div_le_iff_le_mul_add_pred hden]
  have := Nat.le_mul_of_pos_left num hden
  omega

/-! ## Rounding up a rounded quotient -/

/-- Half the distance between numbers of the format around a quotient of safe integers is less than
one part of the divisor. -/
theorem bitStep_div_mul_lt {num den : Nat} (hnum : 0 < num) (hden : 0 < den)
    (hsafe : num ≤ maxSafe) (hsafe' : den ≤ maxSafe) :
    bitStep (num * unitsPerOne / den) * den < 2 * unitsPerOne := by
  have hU := two_pow_le_unitsPerOne (s := 105) (by decide)
  rw [maxSafe_eq] at hsafe hsafe'
  have hlarge : 2 ^ 52 ≤ num * unitsPerOne / den := by
    rw [Nat.le_div_iff_mul_le hden]
    calc 2 ^ 52 * den ≤ 2 ^ 52 * 2 ^ 53 := Nat.mul_le_mul_left _ (by omega)
      _ ≤ unitsPerOne := by rwa [← pow_add]
      _ ≤ num * unitsPerOne := Nat.le_mul_of_pos_left _ hnum
  have hstep := bitStep_mul_le hlarge
  have hquot := Nat.div_mul_le_self (num * unitsPerOne) den
  refine Nat.lt_of_mul_lt_mul_left (a := 2 ^ 52) ?_
  calc 2 ^ 52 * (bitStep (num * unitsPerOne / den) * den)
      = bitStep (num * unitsPerOne / den) * 2 ^ 52 * den := by ring
    _ ≤ num * unitsPerOne / den * den := Nat.mul_le_mul_right den hstep
    _ ≤ num * unitsPerOne := hquot
    _ < 2 ^ 53 * unitsPerOne := Nat.mul_lt_mul_of_pos_right (by omega) unitsPerOne_pos
    _ = 2 ^ 52 * (2 * unitsPerOne) := by ring

/-- The rounded quotient of safe integers, in units, lies between the same integers as the exact
one. -/
theorem roundBits_div_mem {num den : Nat} (hnum : 0 < num) (hden : 0 < den)
    (hsafe : num ≤ maxSafe) (hsafe' : den ≤ maxSafe) :
    (ceilQuotient num den - 1) * unitsPerOne < roundBits (num * unitsPerOne) den ∧
      roundBits (num * unitsPerOne) den ≤ ceilQuotient num den * unitsPerOne := by
  have hstep := bitStep_div_mul_lt hnum hden hsafe hsafe'
  have hU := unitsPerOne_pos
  have hdvd : bitStep (num * unitsPerOne / den) ∣ unitsPerOne := by
    have hlt : num * unitsPerOne / den < 2 ^ (1074 + 53) := by
      rw [pow_add, ← unitsPerOne_eq, Nat.mul_comm unitsPerOne]
      rw [maxSafe_eq] at hsafe
      exact Nat.lt_of_le_of_lt (Nat.div_le_self _ _)
        (Nat.mul_lt_mul_of_pos_right (by omega) hU)
    have := bitStep_dvd_two_pow hlt
    rwa [← unitsPerOne_eq] at this
  constructor
  · refine lt_roundBits hden (Nat.dvd_mul_left_of_dvd hdvd _) ?_
    have hbelow : (ceilQuotient num den - 1) * den + 1 ≤ num := by
      have hlt := ceilQuotient_mul_lt num hden
      have hpos := ceilQuotient_pos hnum hden
      obtain ⟨k, hk⟩ := Nat.exists_eq_add_one_of_ne_zero hpos.ne'
      rw [hk, Nat.add_mul] at hlt
      rw [hk, Nat.add_sub_cancel]
      omega
    calc (2 * ((ceilQuotient num den - 1) * unitsPerOne) + bitStep (num * unitsPerOne / den)) * den
        = 2 * ((ceilQuotient num den - 1) * den * unitsPerOne)
            + bitStep (num * unitsPerOne / den) * den := by ring
      _ < 2 * ((ceilQuotient num den - 1) * den * unitsPerOne) + 2 * unitsPerOne :=
          Nat.add_lt_add_left hstep _
      _ = 2 * (((ceilQuotient num den - 1) * den + 1) * unitsPerOne) := by ring
      _ ≤ 2 * (num * unitsPerOne) := by
          exact Nat.mul_le_mul_left 2 (Nat.mul_le_mul_right _ hbelow)
  · refine roundBits_le_of_le hden (Nat.dvd_mul_left_of_dvd hdvd _) ?_
    calc num * unitsPerOne ≤ ceilQuotient num den * den * unitsPerOne :=
          Nat.mul_le_mul_right _ (le_ceilQuotient_mul num hden)
      _ = ceilQuotient num den * unitsPerOne * den := by ring

/-- **Rounding a quotient of safe integers loses no partition**: rounded up, it is the exact quotient
rounded up. -/
theorem ceil_ofNat_div_ofNat {num den : Nat} (hnum : 0 < num) (hden : 0 < den)
    (hsafe : num ≤ maxSafe) (hsafe' : den ≤ maxSafe) :
    (ofNat num / ofNat den).ceil = ofNat (ceilQuotient num den) := by
  have hU := unitsPerOne_pos
  obtain ⟨hlt, hle⟩ := roundBits_div_mem hnum hden hsafe hsafe'
  have hnum53 : num ≤ 2 ^ 53 := Nat.le_trans hsafe (by decide)
  have hden53 : den ≤ 2 ^ 53 := Nat.le_trans hsafe' (by decide)
  have hquot : roundBits (num * unitsPerOne * unitsPerOne) (den * unitsPerOne)
      = roundBits (num * unitsPerOne) den := roundBits_mul_right _ _ hU
  have hsmall : roundBits (num * unitsPerOne) den < overflow :=
    Nat.lt_of_le_of_lt hle (mul_unitsPerOne_lt_overflow
      (Nat.le_trans (ceilQuotient_le num hden) hnum53))
  have hdiv : ofNat num / ofNat den
      = .finite false (roundBits (num * unitsPerOne) den) (fits_roundBits _ _) hsmall := by
    rw [ofNat_eq_finite hnum53, ofNat_eq_finite hden53,
      finite_div_finite _ _ _ _ _ _ (Nat.mul_pos hden hU).ne', ofRatio]
    simp only [hquot, bne_self_eq_false]
    rw [dif_pos hsmall]
  have hwhole : (roundBits (num * unitsPerOne) den + (unitsPerOne - 1)) / unitsPerOne
      = ceilQuotient num den := by
    obtain ⟨k, hk⟩ := Nat.exists_eq_add_one_of_ne_zero (ceilQuotient_pos hnum hden).ne'
    rw [hk, Nat.add_sub_cancel] at hlt
    rw [hk] at hle ⊢
    refine Nat.div_eq_of_lt_le ?_ ?_
    · rw [Nat.add_one_mul]
      omega
    · rw [Nat.add_one_mul (k + 1)]
      omega
  rw [hdiv, ceil_finite, hwhole]
  rfl

end Binary64

/-! ## Ranges of records -/

/-- The partition holds the record of a number: its range starts at or before the record and ends
after it. -/
def Partition.Holds (p : Partition) (record : Nat) : Prop :=
  p.insertStart.integer ≤ record ∧ (record : Int) < p.insertStart.integer + p.insertCount.integer

namespace Plan

open Binary64

/-- The value is a count: it is the number of a safe integer above zero. -/
def IsCount (v? : Option Value) (n : Nat) : Prop :=
  v? = some (.number (.ofNat n)) ∧ 0 < n ∧ n ≤ maxSafe

/-- **The plan tiles the key space** of so many records with partitions of so many each. -/
structure Tiles (p : Plan) (records perPartition : Nat) : Prop where
  /-- There are as many partitions as the exact quotient, rounded up, says. -/
  length : p.partitions.length = ceilQuotient records perPartition
  number : p.numPartitions = .ofNat p.partitions.length
  length_pos : 0 < p.partitions.length
  /-- Where a partition starts is an exact product and a safe integer. -/
  partition : ∀ i (hi : i < p.partitions.length),
    p.partitions[i] = { index := .ofNat i, insertStart := .ofNat (i * perPartition),
                        insertCount := .ofNat perPartition } ∧ i * perPartition ≤ maxSafe
  /-- Every record is in exactly one partition. -/
  unique : ∀ r < records, ∃! i, ∃ hi : i < p.partitions.length, p.partitions[i].Holds r
  /-- No partition is without a record. -/
  inhabited : ∀ q ∈ p.partitions, ∃ r < records, q.Holds r
  /-- The last partition reaches past the records by less than a partition. -/
  reach : records ≤ p.partitions.length * perPartition ∧
    p.partitions.length * perPartition < records + perPartition

/-! ## Counts -/

variable {v? recordCount insertCount : Option Value} {name : String}

theorem count_of_isCount {n : Nat} (h : IsCount v? n) : count name v? = .ok (.ofNat n) := by
  obtain ⟨rfl, hpos, hsafe⟩ := h
  have hint := toInt?_ofNat (Nat.le_trans hsafe (by decide))
  have hlt : (0 : Binary64) < ofNat n := (lt_iff_of_toInt? toInt?_zero hint).2 (by omega)
  have hint' : (ofNat n).isSafeInteger = true :=
    isSafeInteger_iff.2 ⟨n, hint, by rwa [Int.natAbs_natCast]⟩
  simp only [count]
  rw [if_pos ⟨hint', hlt⟩]

/-- The number of a safe integer above zero is a count. -/
theorem exists_isCount_of_toInt? {x : Binary64} {z : Int} (hz : x.toInt? = some z) (hpos : 0 < z)
    (hsafe : z ≤ maxSafe) : ∃ n, IsCount (some (.number x)) n := by
  obtain ⟨n, rfl⟩ := Int.eq_ofNat_of_zero_le hpos.le
  have hx : x = ofNat n := by
    rw [eq_ofInt_of_toInt? hz hpos.ne']
    exact ofInt_natCast n
  exact ⟨n, by rw [hx], by omega, by omega⟩

/-- A value that is taken for a count is one. -/
theorem isCount_of_count {x : Binary64} (h : count name v? = .ok x) :
    ∃ n, IsCount v? n ∧ x = .ofNat n := by
  unfold count at h
  split at h
  · rename_i y
    split at h
    · rename_i hy
      obtain ⟨z, hz, hsafe⟩ := isSafeInteger_iff.1 hy.1
      have hpos := (lt_iff_of_toInt? toInt?_zero hz).1 hy.2
      obtain ⟨n, hn⟩ := exists_isCount_of_toInt? hz hpos (by omega)
      cases h
      exact ⟨n, hn, Value.number.inj (Option.some.inj hn.1)⟩
    · cases h
  · cases h

/-- A value that is no count is refused by name. -/
theorem count_of_not_isCount (h : ∀ n, ¬ IsCount v? n) :
    count name v? = .error (.notPositive name v?) := by
  cases hc : count name v? with
  | ok x =>
    obtain ⟨n, hn, -⟩ := isCount_of_count hc
    exact absurd hn (h n)
  | error e =>
    unfold count at hc
    split at hc
    · split at hc
      · cases hc
      · exact hc.symm
    · exact hc.symm

/-! ## Making a plan -/

/-- The plan of so many partitions of so many records each. -/
def regular (n perPartition : Nat) : Plan :=
  { numPartitions := .ofNat n, partitions := (List.range n).map (partition (.ofNat perPartition)) }

theorem length_regular (n perPartition : Nat) : (regular n perPartition).partitions.length = n := by
  rw [regular, List.length_map, List.length_range]

theorem getElem?_regular {i n : Nat} (perPartition : Nat) (hi : i < n) :
    (regular n perPartition).partitions[i]? = some (partition (.ofNat perPartition) i) := by
  rw [regular, List.getElem?_map, List.getElem?_range hi, Option.map_some]

/-- The first partitions of a regular plan are those of a smaller one. -/
theorem take_regular {k n : Nat} (perPartition : Nat) (hk : k ≤ n) :
    (regular n perPartition).partitions.take k = (regular k perPartition).partitions := by
  rw [regular, regular, ← List.map_take, List.take_range, Nat.min_eq_left hk]

variable {records perPartition : Nat}

theorem lt_iff_of_isCount (hR : IsCount recordCount records)
    (hC : IsCount insertCount perPartition) :
    (ofNat records < ofNat perPartition) ↔ records < perPartition := by
  rw [lt_iff_of_toInt? (toInt?_ofNat (Nat.le_trans hR.2.2 (by decide)))
    (toInt?_ofNat (Nat.le_trans hC.2.2 (by decide)))]
  omega

/-- **Counts in order** give the regular plan, unless it would have too many partitions. -/
theorem make_of_isCount (hR : IsCount recordCount records) (hC : IsCount insertCount perPartition)
    (hle : perPartition ≤ records) :
    make recordCount insertCount
      = if maxPartitions < ceilQuotient records perPartition then .error .tooMany
        else .ok (regular (ceilQuotient records perPartition) perPartition) := by
  have hquot : ceilQuotient records perPartition ≤ 2 ^ 53 :=
    Nat.le_trans (ceilQuotient_le records hC.2.1) (Nat.le_trans hR.2.2 (by decide))
  have hlt : ¬ ofNat records < ofNat perPartition := by
    rw [lt_iff_of_isCount hR hC]
    omega
  have hn : ((ofNat (ceilQuotient records perPartition)).toInt?.getD 0).toNat
      = ceilQuotient records perPartition := by
    rw [toInt?_ofNat hquot, Option.getD_some, Int.toNat_natCast]
  simp only [make, count_of_isCount hR, count_of_isCount hC, bind, Except.bind, if_neg hlt,
    ceil_ofNat_div_ofNat hR.2.1 hC.2.1 hR.2.2 hC.2.2, hn, pure, Except.pure]
  split
  · rfl
  · rfl

/-- Numbers in order give the regular plan with as many partitions as they need. -/
theorem make_ofNat {n : Nat} (hn : ceilQuotient records perPartition = n) (hpos : 0 < perPartition)
    (hle : perPartition ≤ records) (hsafe : records ≤ maxSafe) (hmax : n ≤ maxPartitions) :
    make (some (.number (.ofNat records))) (some (.number (.ofNat perPartition)))
      = .ok (regular n perPartition) := by
  have hR : IsCount (some (.number (.ofNat records))) records := ⟨rfl, hpos.trans_le hle, hsafe⟩
  have hC : IsCount (some (.number (.ofNat perPartition))) perPartition :=
    ⟨rfl, hpos, hle.trans hsafe⟩
  rw [make_of_isCount hR hC hle, hn, if_neg (Nat.not_lt.2 hmax)]

/-- Fewer records than a partition holds are refused. -/
theorem make_of_lt (hR : IsCount recordCount records) (hC : IsCount insertCount perPartition)
    (hlt : records < perPartition) :
    make recordCount insertCount = .error (.tooFewRecords (.ofNat records) (.ofNat perPartition)) := by
  have hlt' := (lt_iff_of_isCount hR hC).2 hlt
  simp only [make, count_of_isCount hR, count_of_isCount hC, bind, Except.bind, if_pos hlt']
  rfl

/-- **Counts are refused for what they are to each other**: there are fewer records than a partition
holds, or more partitions than a plan may have. -/
theorem make_eq_error_iff {e : PlanError} (hR : IsCount recordCount records)
    (hC : IsCount insertCount perPartition) :
    make recordCount insertCount = .error e ↔
      records < perPartition ∧ e = .tooFewRecords (.ofNat records) (.ofNat perPartition) ∨
        maxPartitions < ceilQuotient records perPartition ∧ e = .tooMany := by
  by_cases hlt : records < perPartition
  · have hone : ceilQuotient records perPartition ≤ 1 := by
      have hmul := ceilQuotient_mul_lt records hC.2.1
      have hpos := hR.2.1
      refine Nat.le_of_lt_succ (Nat.lt_of_mul_lt_mul_right (a := perPartition) ?_)
      omega
    have hmax : ¬ maxPartitions < ceilQuotient records perPartition :=
      Nat.not_lt.2 (hone.trans (by decide))
    rw [make_of_lt hR hC hlt]
    simp [hlt, hmax, eq_comm]
  · rw [make_of_isCount hR hC (by omega)]
    by_cases hmax : maxPartitions < ceilQuotient records perPartition
    · simp [hlt, hmax, eq_comm]
    · simp [hlt, hmax]

/-- Values that are no counts are refused, the record count first. -/
theorem make_of_not_isCount
    (h : ¬ ∃ records perPartition, IsCount recordCount records ∧ IsCount insertCount perPartition) :
    make recordCount insertCount = .error (.notPositive "recordCount" recordCount) ∨
      make recordCount insertCount
        = .error (.notPositive "insertCountPerPartition" insertCount) := by
  by_cases hR : ∃ records, IsCount recordCount records
  · obtain ⟨records, hR⟩ := hR
    have hC : ∀ n, ¬ IsCount insertCount n := fun n hC => h ⟨records, n, hR, hC⟩
    refine Or.inr ?_
    simp only [make, count_of_isCount hR, count_of_not_isCount hC, bind, Except.bind]
  · refine Or.inl ?_
    have hR : ∀ n, ¬ IsCount recordCount n := fun n hn => hR ⟨n, hn⟩
    simp only [make, count_of_not_isCount hR, bind, Except.bind]

/-- **Every plan is regular.** -/
theorem exists_regular_of_make {plan : Plan} (h : make recordCount insertCount = .ok plan) :
    ∃ records perPartition, IsCount recordCount records ∧ IsCount insertCount perPartition ∧
      perPartition ≤ records ∧ ceilQuotient records perPartition ≤ maxPartitions ∧
      plan = regular (ceilQuotient records perPartition) perPartition := by
  by_cases hcounts : ∃ records perPartition,
      IsCount recordCount records ∧ IsCount insertCount perPartition
  · obtain ⟨records, perPartition, hR, hC⟩ := hcounts
    by_cases hle : perPartition ≤ records
    · rw [make_of_isCount hR hC hle] at h
      by_cases hmax : maxPartitions < ceilQuotient records perPartition
      · rw [if_pos hmax] at h
        cases h
      · rw [if_neg hmax] at h
        exact ⟨records, perPartition, hR, hC, hle, Nat.le_of_not_lt hmax, (Except.ok.inj h).symm⟩
    · rw [make_of_lt hR hC (by omega)] at h
      cases h
  · rcases make_of_not_isCount hcounts with hmake | hmake
    · rw [hmake] at h
      cases h
    · rw [hmake] at h
      cases h

/-! ## Tiling -/

theorem partition_ofNat {i : Nat} (hi : i ≤ 2 ^ 53) (hper : perPartition ≤ 2 ^ 53) :
    partition (.ofNat perPartition) i
      = { index := .ofNat i, insertStart := .ofNat (i * perPartition),
          insertCount := .ofNat perPartition } := by
  rw [partition, ofNat_mul_ofNat hi hper]

/-- Where a partition of a regular plan starts is before the last record, so it is a safe integer. -/
theorem mul_lt_of_lt_ceilQuotient {i : Nat} (hper : 0 < perPartition)
    (hi : i < ceilQuotient records perPartition) : i * perPartition < records := by
  have hlt := ceilQuotient_mul_lt records hper
  have hle : (i + 1) * perPartition ≤ ceilQuotient records perPartition * perPartition :=
    Nat.mul_le_mul_right _ hi
  rw [Nat.add_one_mul] at hle
  omega

theorem holds_iff {i r : Nat} (hi : i ≤ 2 ^ 53) (hper : perPartition ≤ 2 ^ 53)
    (hstart : i * perPartition ≤ 2 ^ 53) :
    (partition (.ofNat perPartition) i).Holds r
      ↔ i * perPartition ≤ r ∧ r < i * perPartition + perPartition := by
  rw [partition_ofNat hi hper, Partition.Holds, integer_ofNat hstart, integer_ofNat hper]
  omega

/-- A record is in the range that division says, and in no other. -/
theorem mem_range_iff {i r : Nat} (hper : 0 < perPartition) :
    (i * perPartition ≤ r ∧ r < i * perPartition + perPartition) ↔ i = r / perPartition := by
  rw [eq_comm (a := i), Nat.div_eq_iff hper]
  omega

/-- **Regular plans tile the key space.** -/
theorem tiles_regular (hper : 0 < perPartition) (hle : perPartition ≤ records)
    (hsafe : records ≤ maxSafe) :
    Tiles (regular (ceilQuotient records perPartition) perPartition) records perPartition := by
  have hrecords : records ≤ 2 ^ 53 := Nat.le_trans hsafe (by decide)
  have hper53 : perPartition ≤ 2 ^ 53 := Nat.le_trans hle hrecords
  have hcover := le_ceilQuotient_mul records hper
  have hlen := length_regular (ceilQuotient records perPartition) perPartition
  -- an index of a partition and the start of its range stay among the exact integers
  have hbounds : ∀ i < ceilQuotient records perPartition,
      i ≤ 2 ^ 53 ∧ i * perPartition < records := by
    intro i hi
    have hindex := ceilQuotient_le records hper
    exact ⟨by omega, mul_lt_of_lt_ceilQuotient hper hi⟩
  have hholds : ∀ i < ceilQuotient records perPartition, ∀ r,
      (partition (.ofNat perPartition) i).Holds r ↔ i = r / perPartition := by
    intro i hi r
    obtain ⟨hindex, hstart⟩ := hbounds i hi
    rw [holds_iff hindex hper53 (by omega), mem_range_iff hper]
  refine ⟨hlen, by rw [hlen, regular], ?_, ?_, ?_, ?_, ?_⟩
  · rw [hlen]
    exact ceilQuotient_pos (by omega) hper
  · intro i hi
    rw [hlen] at hi
    obtain ⟨hindex, hstart⟩ := hbounds i hi
    refine ⟨?_, by omega⟩
    rw [← partition_ofNat hindex hper53]
    simp [regular]
  · intro r hr
    have hrange : r / perPartition < ceilQuotient records perPartition := by
      refine Nat.lt_of_mul_lt_mul_right (a := perPartition) ?_
      have := Nat.div_mul_le_self r perPartition
      omega
    refine ⟨r / perPartition, ⟨by rwa [hlen], ?_⟩, ?_⟩
    · simpa [regular] using (hholds _ hrange r).2 rfl
    · rintro j ⟨hj, hr⟩
      rw [hlen] at hj
      exact (hholds j hj r).1 (by simpa [regular] using hr)
  · intro q hq
    simp only [regular, List.mem_map, List.mem_range] at hq
    obtain ⟨i, hi, rfl⟩ := hq
    obtain ⟨-, hstart⟩ := hbounds i hi
    exact ⟨i * perPartition, hstart,
      (hholds i hi _).2 (Nat.mul_div_cancel i hper).symm⟩
  · rw [hlen]
    exact ⟨hcover, ceilQuotient_mul_lt records hper⟩

/-- **What a plan is made of.**  Counts in order give a plan that tiles the key space, if that has at
most as many partitions as a list can hold, and are out of range otherwise.  Everything else is an
invalid configuration. -/
theorem make_tiles (recordCount insertCount : Option Value) :
    (∀ records perPartition, IsCount recordCount records → IsCount insertCount perPartition →
      perPartition ≤ records → ceilQuotient records perPartition ≤ maxPartitions →
        ∃ p, make recordCount insertCount = .ok p ∧ Tiles p records perPartition) ∧
    (∀ records perPartition, IsCount recordCount records → IsCount insertCount perPartition →
      perPartition ≤ records → maxPartitions < ceilQuotient records perPartition →
        ∃ e, make recordCount insertCount = .error e ∧
          e.toFailure = .fault { sort := .outOfRange, message := "Invalid array length" }) ∧
    ((¬ ∃ records perPartition, IsCount recordCount records ∧ IsCount insertCount perPartition ∧
        perPartition ≤ records) →
      ∃ e message details, make recordCount insertCount = .error e ∧
        e.toFailure = .reported .invalidConfiguration message (some details) none) := by
  refine ⟨?_, ?_, ?_⟩
  · intro records perPartition hR hC hle hmax
    refine ⟨regular (ceilQuotient records perPartition) perPartition, ?_,
      tiles_regular hC.2.1 hle hR.2.2⟩
    rw [make_of_isCount hR hC hle, if_neg (by omega)]
  · intro records perPartition hR hC hle hmax
    refine ⟨.tooMany, ?_, rfl⟩
    rw [make_of_isCount hR hC hle, if_pos hmax]
  · intro h
    by_cases hcounts : ∃ records perPartition,
        IsCount recordCount records ∧ IsCount insertCount perPartition
    · obtain ⟨records, perPartition, hR, hC⟩ := hcounts
      have hlt : records < perPartition := by
        by_contra hge
        exact h ⟨records, perPartition, hR, hC, by omega⟩
      exact ⟨_, _, _, make_of_lt hR hC hlt, rfl⟩
    · rcases make_of_not_isCount hcounts with hmake | hmake
      · exact ⟨_, _, _, hmake, rfl⟩
      · exact ⟨_, _, _, hmake, rfl⟩

/-- A plan at the limits: as many records as there are safe integers above zero, and almost as many
partitions as a list can hold. -/
theorem make_tiles_limit :
    IsCount (some (.number (.ofNat 9007199254740991))) 9007199254740991 ∧
      IsCount (some (.number (.ofNat 2097153))) 2097153 ∧
      ∃ p, make (some (.number (.ofNat 9007199254740991))) (some (.number (.ofNat 2097153))) = .ok p ∧
        Tiles p 9007199254740991 2097153 := by
  have hR : IsCount (some (.number (.ofNat 9007199254740991))) 9007199254740991 :=
    ⟨rfl, by decide, by decide⟩
  have hC : IsCount (some (.number (.ofNat 2097153))) 2097153 := ⟨rfl, by decide, by decide⟩
  exact ⟨hR, hC, (make_tiles _ _).1 _ _ hR hC (by decide) (by decide)⟩

end Plan

end LoadTest

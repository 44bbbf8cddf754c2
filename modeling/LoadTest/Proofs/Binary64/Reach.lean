import LoadTest.Proofs.Binary64.Whole
import Mathlib.Data.Nat.Log
/-!
# How far a step reaches

The numbers of the format lie closer together near zero than far from it, so adding the same step
again and again moves a number on only as long as it stays near enough.  A step that is a whole
number of seconds has a **reach**, `2 ^ 53` times the least power of two that is not below it:

* `lt_add_of_within` — from minus the reach up to the reach every step leads to a greater number;
* `not_reach_lt_add` — no step leads beyond the reach;
* `not_lt_add_of_beyond` — beyond the reach, on either side, a number that a step has led to is one
  that the next step does not lead away from.

The last is not true of every number beyond the reach: a step that is a power of two may be exactly
half the distance to the next number, and is then rounded up or down by turns of neighbours.  Where
it has been rounded once the number is **settled**, and the next one is rounded back to it.
-/

namespace LoadTest

namespace Binary64

-- Numbers of hundreds of digits: they are used through lemmas only.
attribute [local irreducible] unitsPerOne overflow

/-! ## Sizes -/

/-- A step is of scale `p` if `2 ^ p` is the least power of two that is not below it. -/
structure HasScale (step p : Nat) : Prop where
  lt : 2 ^ p < 2 * step
  le : step ≤ 2 ^ p

section Sizes

variable {step p m n : Nat}

theorem fits_two_pow_reach (p : Nat) : Fits (2 ^ (p + 53)) := by
  rw [Nat.pow_add, Nat.mul_comm]
  exact fits_mul_two_pow (Nat.le_refl _)

/-- Beyond the reach the numbers of the format are at least `2 ^ (p + 1)` apart. -/
theorem two_pow_succ_dvd_bitStep (h : 2 ^ (p + 53) ≤ m) : 2 ^ (p + 1) ∣ bitStep m :=
  two_pow_dvd_bitStep (by rwa [Nat.add_assoc])

/-- **Within the reach a step moves a size up.** -/
theorem lt_roundBits_add (hs : HasScale step p) (hm : Fits m) (h : m < 2 ^ (p + 53)) :
    m < roundBits (m + step) 1 := by
  have hpow := Nat.two_pow_pos p
  have hlt := hs.lt
  rcases bitStep_eq_or_two_pow_le (Nat.le_add_right m step) with hstep | hlt
  · have hle : bitStep m ≤ 2 ^ p := Nat.le_of_dvd (Nat.two_pow_pos p) (bitStep_dvd_two_pow h)
    refine lt_roundBits Nat.one_pos ?_ ?_
    · rw [Nat.div_one, hstep]
      exact hm
    · rw [Nat.div_one, hstep]
      omega
  · refine Nat.lt_of_lt_of_le hlt (two_pow_le_roundBits ?_)
    rw [Nat.div_one]
    exact Nat.log2_self_le (by omega)

/-- Nor does it move it beyond the reach. -/
theorem roundBits_add_le_reach (hs : HasScale step p) (h : m ≤ 2 ^ (p + 53)) :
    roundBits (m + step) 1 ≤ 2 ^ (p + 53) := by
  have hle := hs.le
  rcases Nat.lt_or_ge (2 ^ (p + 53)) (m + step) with hlt | hge
  · have hlog : (m + step).log2 = p + 53 := by
      have hsmall : 2 ^ p < 2 ^ (p + 53) := Nat.pow_lt_pow_right (by decide) (by omega)
      have hnext : 2 ^ (p + 53 + 1) = 2 * 2 ^ (p + 53) := by ring
      rw [Nat.log2_eq_iff (by omega)]
      omega
    have hstep : bitStep (m + step) = 2 * 2 ^ p := by
      rw [bitStep, hlog, Nat.pow_eq, Nat.mul_comm, ← Nat.pow_succ]
      rfl
    have hdvd : 2 * (2 * 2 ^ p) ∣ 2 ^ (p + 53) := ⟨2 ^ 51, by ring⟩
    refine roundBits_le_of_half Nat.one_pos ?_ ?_ ?_
    all_goals rw [Nat.div_one, hstep]
    · exact Nat.dvd_trans (Nat.dvd_mul_left _ _) hdvd
    · omega
    · exact fun _ => hdvd
  · exact roundBits_le_of_fits (fits_two_pow_reach p) hge

/-- No part of a step is beyond its reach. -/
theorem roundBits_part_le_reach (hs : HasScale step p) (h : n ≤ step) :
    roundBits n 1 ≤ 2 ^ (p + 53) := by
  have hsmall : 2 ^ p ≤ 2 ^ (p + 53) := Nat.pow_le_pow_right (by decide) (by omega)
  exact roundBits_le_of_fits (fits_two_pow_reach p) (h.trans (hs.le.trans hsmall))

/-- **Within the reach a step moves a size down.** -/
theorem roundBits_sub_lt (hs : HasScale step p) (hm : Fits m) (hpos : step ≤ m)
    (h : m ≤ 2 ^ (p + 53)) : roundBits (m - step) 1 < m := by
  have hpow := Nat.two_pow_pos p
  have hlt := hs.lt
  have hstep : bitStep (m - step) ≤ 2 ^ p :=
    Nat.le_of_dvd (Nat.two_pow_pos p) (bitStep_dvd_two_pow (by omega))
  refine roundBits_lt Nat.one_pos ?_ ?_
  · rw [Nat.div_one]
    exact Nat.dvd_trans (bitStep_dvd_bitStep (Nat.sub_le m step)) hm
  · rw [Nat.div_one]
    omega

/-- What makes a step too small for a size beyond its reach: it is less than half the distance to
the next one, or just half of it, and then the size is an even multiple of that distance. -/
def Settled (step p m : Nat) : Prop := step = 2 ^ p → 2 ^ (p + 2) ∣ m

/-- A step is at most half the distance between neighbours beyond its reach, and exactly half of it
only next to sizes that are settled. -/
theorem Settled.two_mul_dvd (hs : HasScale step p) (hset : Settled step p m)
    (h : 2 ^ (p + 53) ≤ n) :
    2 * step ≤ bitStep n ∧ (2 * step = bitStep n → 2 * bitStep n ∣ m) := by
  have hle := hs.le
  have hwide : 2 ^ (p + 1) ≤ bitStep n :=
    Nat.le_of_dvd (bitStep_pos n) (two_pow_succ_dvd_bitStep h)
  have htwice : 2 ^ (p + 1) = 2 * 2 ^ p := by ring
  refine ⟨by omega, fun htie => ?_⟩
  have hstep : step = 2 ^ p := by omega
  have hfour : 2 * bitStep n = 2 ^ (p + 2) := by
    rw [← htie, hstep]
    ring
  rw [hfour]
  exact hset hstep

/-- **Beyond the reach a step does not move a settled size up.** -/
theorem roundBits_add_le (hs : HasScale step p) (hm : Fits m) (h : 2 ^ (p + 53) ≤ m)
    (hset : Settled step p m) : roundBits (m + step) 1 ≤ m := by
  have hpos := Nat.two_pow_pos (p + 53)
  obtain ⟨hhalf, htie⟩ := hset.two_mul_dvd hs h
  -- The next number of the format is in the same binade or begins the next one.
  have hstep : bitStep (m + step) = bitStep m := by
    rcases bitStep_eq_or_two_pow_le (Nat.le_add_right m step) with hstep | hlt
    · exact hstep
    · exfalso
      have hnext : bitStep m ∣ 2 ^ (m + step).log2 :=
        Nat.dvd_trans (bitStep_dvd_bitStep (Nat.le_add_right m step)) (bitStep_dvd_binade _)
      have hroom : m + bitStep m ≤ 2 ^ (m + step).log2 := by
        have := Nat.le_of_dvd (by omega) (Nat.dvd_sub hnext hm)
        omega
      have hself := Nat.log2_self_le (n := m + step) (by omega)
      have := bitStep_pos m
      omega
  refine roundBits_le_of_half Nat.one_pos ?_ ?_ ?_
  all_goals rw [Nat.div_one, hstep]
  · exact hm
  · omega
  · exact fun heq => htie (by omega)

/-- **Nor does it move one down.** -/
theorem le_roundBits_sub (hs : HasScale step p) (hm : Fits m) (h : 2 ^ (p + 53) < m)
    (hset : Settled step p m) : m ≤ roundBits (m - step) 1 := by
  have hle := hs.le
  have hsmall : 2 ^ (p + 1) ≤ m - 2 ^ (p + 53) := by
    refine Nat.le_of_dvd (by omega) (Nat.dvd_sub ?_ ?_)
    · exact Nat.dvd_trans (two_pow_succ_dvd_bitStep h.le) hm
    · exact Nat.pow_dvd_pow 2 (by omega)
  have htwice : 2 ^ (p + 1) = 2 * 2 ^ p := by ring
  obtain ⟨hhalf, htie⟩ := hset.two_mul_dvd hs (n := m - step) (by omega)
  refine le_roundBits_of_half Nat.one_pos ?_ ?_ ?_
  all_goals rw [Nat.div_one]
  · exact Nat.dvd_trans (bitStep_dvd_bitStep (Nat.sub_le m step)) hm
  · omega
  · exact fun heq => htie (by omega)

/-- **What a step leads to beyond its reach is settled**: a sum halfway between two numbers goes to
the even one. -/
theorem settled_roundBits (h : 2 ^ (p + 53) < roundBits n 1)
    (hn : step = 2 ^ p → n % 2 ^ (p + 1) = 2 ^ p) : Settled step p (roundBits n 1) := by
  intro hstep
  have hreach := Nat.two_pow_pos (p + 53)
  have hlarge : 2 ^ (p + 53) < n := by
    by_contra hle
    exact absurd (roundBits_le_of_fits (fits_two_pow_reach p) (Nat.le_of_not_lt hle)) (by omega)
  rcases Nat.lt_or_ge n (2 ^ (p + 54)) with hlt | hge
  · have hlog : n.log2 = p + 53 := by
      rw [Nat.log2_eq_iff (by omega)]
      exact ⟨hlarge.le, hlt⟩
    have hbit : bitStep n = 2 ^ (p + 1) := by
      rw [bitStep, hlog]
      rfl
    have hhalf : 2 * (n % (1 * bitStep (n / 1))) = 1 * bitStep (n / 1) := by
      rw [Nat.div_one, Nat.one_mul, hbit, hn hstep]
      ring
    have heven := two_mul_bitStep_dvd_roundBits hhalf
    have hfour : 2 ^ (p + 2) = 2 * 2 ^ (p + 1) := by ring
    rwa [Nat.div_one, hbit, ← hfour] at heven
  · have hwide : 2 ^ (p + 2) ∣ bitStep n := two_pow_dvd_bitStep hge
    have hdvd := bitStep_dvd_roundBits n 1
    rw [Nat.div_one] at hdvd
    exact Nat.dvd_trans hwide hdvd

/-- A size beyond the reach is a multiple of `2 ^ (p + 1)`, so that a step of `2 ^ p` leads halfway
between two of them. -/
theorem mod_two_pow_succ (hm : Fits m) (h : 2 ^ (p + 53) < m) : m % 2 ^ (p + 1) = 0 :=
  Nat.mod_eq_zero_of_dvd (Nat.dvd_trans (two_pow_succ_dvd_bitStep h.le) hm)

theorem settled_roundBits_add (hs : HasScale step p) (hm : Fits m)
    (h : 2 ^ (p + 53) < roundBits (m + step) 1) : Settled step p (roundBits (m + step) 1) := by
  have hfar : 2 ^ (p + 53) < m := by
    by_contra hnot
    have := roundBits_add_le_reach hs (Nat.le_of_not_lt hnot)
    omega
  have hhalf : 2 ^ p < 2 ^ (p + 1) := Nat.pow_lt_pow_right (by decide) (by omega)
  refine settled_roundBits h fun hstep => ?_
  rw [hstep, Nat.add_mod, mod_two_pow_succ hm hfar, Nat.zero_add, Nat.mod_mod,
    Nat.mod_eq_of_lt hhalf]

theorem settled_roundBits_sub (hm : Fits m) (h : 2 ^ (p + 53) < roundBits (m - step) 1) :
    Settled step p (roundBits (m - step) 1) := by
  have hfar : 2 ^ (p + 53) < m := by
    by_contra hnot
    have := roundBits_le_of_fits (n := m - step) (fits_two_pow_reach p) (by omega)
    omega
  have hhalf : 2 ^ p < 2 ^ (p + 1) := Nat.pow_lt_pow_right (by decide) (by omega)
  refine settled_roundBits h fun hstep => ?_
  obtain ⟨k, rfl⟩ := Nat.dvd_of_mod_eq_zero (mod_two_pow_succ hm hfar)
  obtain ⟨j, rfl⟩ := Nat.exists_eq_succ_of_ne_zero (n := k) (by rintro rfl; simp at hfar)
  have hsplit : 2 ^ (p + 1) * (j + 1) - step = 2 ^ (p + 1) * j + 2 ^ p := by
    have htwice : 2 ^ (p + 1) = 2 ^ p + 2 ^ p := by ring
    rw [hstep, Nat.mul_succ]
    omega
  rw [hsplit, Nat.mul_add_mod, Nat.mod_eq_of_lt hhalf]

end Sizes

/-! ## Places -/

/-- The place of the number nearest to a whole number of units. -/
def roundPlace (z : Int) : Int :=
  let size : Int := (min (roundBits z.natAbs 1) overflow : Nat)
  if z < 0 then -size else size

theorem roundPlace_le_overflow (z : Int) : roundPlace z ≤ overflow := by
  unfold roundPlace
  dsimp only
  split <;> omega

theorem place?_ofRatio_one (s : Bool) (n : Nat) :
    (ofRatio s n 1).place? = some (if s then -((min (roundBits n 1) overflow : Nat) : Int)
      else (min (roundBits n 1) overflow : Nat)) := by
  by_cases h : roundBits n 1 < overflow
  · rw [ofRatio, dif_pos h, place?_finite, Nat.min_eq_left h.le]
  · rw [ofRatio, dif_neg h, place?_infinity, Nat.min_eq_right (Nat.le_of_not_lt h)]

theorem place?_neg {x : Binary64} {a : Int} (h : x.place? = some a) : x.neg.place? = some (-a) := by
  rcases x with _ | s | ⟨s, m, fits, small⟩
  · cases h
  all_goals
    cases h
    cases s <;> simp [neg, place?]

/-- A finite number has a place that fits and is small. -/
theorem exists_place?_of_isFinite {x : Binary64} (h : x.isFinite = true) :
    ∃ a, x.place? = some a ∧ Fits a.natAbs ∧ a.natAbs < overflow := by
  rcases x with _ | s | ⟨s, m, fits, small⟩
  · cases h
  · cases h
  · refine ⟨_, place?_finite s fits small, ?_⟩
    cases s <;> simpa using ⟨fits, small⟩

/-- **The place of a sum** is that of the exact sum, once it is rounded. -/
theorem place?_add {x y : Binary64} {a b : Int} (hx : x.place? = some a) (hy : y.place? = some b)
    (hxfin : x.isFinite = true) (hyfin : y.isFinite = true) :
    (x + y).place? = some (roundPlace (a + b)) := by
  rcases x with _ | s | ⟨s, m, fm, sm⟩
  · cases hxfin
  · cases hxfin
  rcases y with _ | t | ⟨t, n, fn, sn⟩
  · cases hyfin
  · cases hyfin
  rw [place?_finite, Option.some_inj] at hx hy
  simp only [finite_add_finite, hx, hy]
  by_cases hzero : a + b = 0
  · have hround : min (roundBits 0 1) overflow = 0 := by simp [roundBits, roundDiv]
    rw [if_pos hzero, zero, place?_ofRatio_one, hzero, roundPlace, Int.natAbs_zero, hround]
    simp
  · rw [if_neg hzero, place?_ofRatio_one, roundPlace]
    simp only [decide_eq_true_eq]

theorem natCast_reach (p : Nat) : ((2 ^ (p + 53) : Nat) : Int) = 2 ^ (p + 53) := by
  push_cast
  rfl

section Places

variable {step p : Nat} {a : Int}

/-- What a step does to a place: it moves up from a place that is not below zero, towards zero from
one that is further below than the step, and across zero from the others. -/
theorem roundPlace_add_cases (step : Nat) (a : Int) :
    (∃ m : Nat, a = m ∧ roundPlace (a + step) = (min (roundBits (m + step) 1) overflow : Nat)) ∨
      (∃ m : Nat, step < m ∧ a = -m ∧
        roundPlace (a + step) = -((min (roundBits (m - step) 1) overflow : Nat) : Int)) ∨
      ∃ m : Nat, 0 < m ∧ m ≤ step ∧ a = -m ∧
        roundPlace (a + step) = (min (roundBits (step - m) 1) overflow : Nat) := by
  rcases lt_or_ge a 0 with hneg | hpos
  · right
    obtain ⟨m, rfl⟩ : ∃ m : Nat, a = -m := ⟨a.natAbs, by omega⟩
    rcases Nat.lt_or_ge step m with hlt | hge
    · left
      have habs : (-(m : Int) + step).natAbs = m - step := by omega
      refine ⟨m, hlt, rfl, ?_⟩
      rw [roundPlace, habs, if_pos (by omega)]
    · right
      have habs : (-(m : Int) + step).natAbs = step - m := by omega
      refine ⟨m, by omega, hge, rfl, ?_⟩
      rw [roundPlace, habs, if_neg (by omega)]
  · left
    obtain ⟨m, rfl⟩ : ∃ m : Nat, a = m := ⟨a.natAbs, by omega⟩
    have habs : ((m : Int) + step).natAbs = m + step := by omega
    refine ⟨m, rfl, ?_⟩
    rw [roundPlace, habs, if_neg (by omega)]

/-- No step leads down. -/
theorem le_roundPlace_add (ha : Fits a.natAbs) (hsmall : a.natAbs < overflow) :
    a ≤ roundPlace (a + step) := by
  rcases roundPlace_add_cases step a with ⟨m, rfl, hround⟩ | ⟨m, hlt, rfl, hround⟩ |
    ⟨m, hpos, hle, rfl, hround⟩
  · rw [Int.natAbs_natCast] at ha hsmall
    have := le_roundBits_of_fits ha (Nat.le_add_right m step)
    omega
  · rw [Int.natAbs_neg, Int.natAbs_natCast] at ha hsmall
    have := roundBits_le_of_fits ha (Nat.sub_le m step)
    omega
  · omega

/-- **Within the reach every step leads up.** -/
theorem lt_roundPlace_add (hs : HasScale step p) (ha : Fits a.natAbs)
    (hsmall : a.natAbs < overflow) (hlow : -2 ^ (p + 53) ≤ a) (hhigh : a < 2 ^ (p + 53)) :
    a < roundPlace (a + step) := by
  rcases roundPlace_add_cases step a with ⟨m, rfl, hround⟩ | ⟨m, hlt, rfl, hround⟩ |
    ⟨m, hpos, hle, rfl, hround⟩
  · rw [Int.natAbs_natCast] at ha hsmall
    have := lt_roundBits_add hs ha (by exact_mod_cast hhigh)
    omega
  · rw [Int.natAbs_neg, Int.natAbs_natCast] at ha hsmall
    have hle : (m : Int) ≤ 2 ^ (p + 53) := by omega
    have := roundBits_sub_lt hs ha hlt.le (by exact_mod_cast hle)
    omega
  · omega

/-- **No step leads beyond the reach.** -/
theorem roundPlace_add_le_reach (hs : HasScale step p) (h : a ≤ 2 ^ (p + 53)) :
    roundPlace (a + step) ≤ 2 ^ (p + 53) := by
  have hcap := natCast_reach p
  have hpow := Nat.two_pow_pos (p + 53)
  rcases roundPlace_add_cases step a with ⟨m, rfl, hround⟩ | ⟨m, hlt, rfl, hround⟩ |
    ⟨m, hpos, hle, rfl, hround⟩
  · have hreach := roundBits_add_le_reach hs (m := m) (by omega)
    omega
  · omega
  · have hreach := roundBits_part_le_reach hs (Nat.sub_le step m)
    omega

/-- **Beyond the reach no step leads up from a settled place.** -/
theorem roundPlace_add_le (hs : HasScale step p) (ha : Fits a.natAbs)
    (hsmall : a.natAbs < overflow) (hset : Settled step p a.natAbs)
    (h : 2 ^ (p + 53) ≤ a ∨ a < -2 ^ (p + 53)) : roundPlace (a + step) ≤ a := by
  have hreach : (0 : Int) < 2 ^ (p + 53) := by positivity
  rcases roundPlace_add_cases step a with ⟨m, rfl, hround⟩ | ⟨m, hlt, rfl, hround⟩ |
    ⟨m, hpos, hle, rfl, hround⟩
  · rw [Int.natAbs_natCast] at ha hset
    have hle : (2 : Int) ^ (p + 53) ≤ m := by omega
    have := roundBits_add_le hs ha (by exact_mod_cast hle) hset
    omega
  · rw [Int.natAbs_neg, Int.natAbs_natCast] at ha hset hsmall
    have hfar : (2 : Int) ^ (p + 53) < m := by omega
    have := le_roundBits_sub hs ha (by exact_mod_cast hfar) hset
    omega
  · have hstep : (step : Int) ≤ 2 ^ p := by exact_mod_cast hs.le
    have hscale : (2 : Int) ^ p ≤ 2 ^ (p + 53) := pow_le_pow_right₀ (by decide) (by omega)
    omega

/-- **What a step leads to beyond its reach is settled.** -/
theorem settled_roundPlace (hs : HasScale step p) (ha : Fits a.natAbs)
    (h : 2 ^ (p + 53) < (roundPlace (a + step)).natAbs)
    (hsmall : (roundPlace (a + step)).natAbs < overflow) :
    Settled step p (roundPlace (a + step)).natAbs := by
  rcases roundPlace_add_cases step a with ⟨m, rfl, hround⟩ | ⟨m, hlt, rfl, hround⟩ |
    ⟨m, hpos, hle, rfl, hround⟩
  · rw [Int.natAbs_natCast] at ha
    have habs : (roundPlace (m + step)).natAbs = roundBits (m + step) 1 := by omega
    rw [habs] at h ⊢
    exact settled_roundBits_add hs ha h
  · rw [Int.natAbs_neg, Int.natAbs_natCast] at ha
    have habs : (roundPlace (-m + step)).natAbs = roundBits (m - step) 1 := by omega
    rw [habs] at h ⊢
    exact settled_roundBits_sub ha h
  · have hreach := roundBits_part_le_reach hs (Nat.sub_le step m)
    omega

end Places

theorem exists_place?_of_lt {x y : Binary64} (h : x < y) :
    ∃ a b, x.place? = some a ∧ y.place? = some b ∧ a < b := by
  cases hx : x.place? with
  | none => simp [LT.lt, lt, hx] at h
  | some a =>
    cases hy : y.place? with
    | none => simp [LT.lt, lt, hx, hy] at h
    | some b => exact ⟨a, b, rfl, rfl, (lt_iff_of_place? hx hy).1 h⟩

theorem not_lt_infinity (x : Binary64) : ¬ x < infinity true := by
  intro h
  obtain ⟨a, b, ha, hb, hlt⟩ := exists_place?_of_lt h
  obtain rfl : -(overflow : Int) = b := Option.some.inj hb
  rcases x with _ | s | ⟨s, m, fits, small⟩
  · cases ha
  all_goals
    cases s <;> simp only [place?_infinity, place?_finite, Option.some_inj, Bool.false_eq_true,
      if_false, if_true] at ha <;> omega

/-! ## The reach of a step -/

/-- The reach of a step that is a whole number above zero: `2 ^ 53` times the least power of two
that is not below the step. -/
def reach (step : Binary64) : Binary64 := ofNat (2 ^ (Nat.clog 2 step.integer.toNat + 53))

/-- A number is **within** the reach of a step from below: the numbers from there on to the reach are
close enough for the step to move them. -/
def Within (step x : Binary64) : Prop := x ≠ infinity true ∧ ¬ x < step.reach.neg

section Reach

variable {step x y : Binary64} {d : Int}

/-- The scale of a step of so many seconds, in units. -/
theorem hasScale_seconds {n : Nat} (hn : 0 < n) :
    HasScale (n * unitsPerOne) (Nat.clog 2 n + 1074) := by
  have hsplit : 2 ^ (Nat.clog 2 n + 1074) = 2 ^ Nat.clog 2 n * unitsPerOne := by
    rw [Nat.pow_add, unitsPerOne_eq]
  refine ⟨?_, ?_⟩
  · rw [hsplit, ← Nat.mul_assoc]
    refine Nat.mul_lt_mul_of_pos_right ?_ unitsPerOne_pos
    rcases Nat.lt_or_ge 1 n with hlt | hle
    · have hpred := Nat.pow_pred_clog_lt_self (by decide : 1 < 2) hlt
      have htwice : 2 ^ Nat.clog 2 n = 2 * 2 ^ (Nat.clog 2 n).pred := by
        rw [← Nat.pow_succ', Nat.succ_pred (Nat.clog_pos (by decide) hlt).ne']
      omega
    · obtain rfl : n = 1 := by omega
      decide
  · rw [hsplit]
    exact Nat.mul_le_mul_right _ (Nat.le_pow_clog (by decide) n)

/-- A power of two has its own place, up to the end of the line. -/
theorem place?_ofNat_two_pow (k : Nat) :
    (ofNat (2 ^ (k + 53))).place?
      = some ((min (2 ^ (k + 1074 + 53)) overflow : Nat) : Int) := by
  have hunits : 2 ^ (k + 53) * unitsPerOne = 2 ^ (k + 1074 + 53) := by
    rw [unitsPerOne_eq, ← Nat.pow_add, Nat.add_right_comm]
  rw [ofNat, hunits, place?_ofRatio_one, roundBits_of_fits (fits_two_pow_reach _)]
  rfl

/-- A step is finite and has a size and a scale, which gives the place of its reach. -/
theorem exists_scale (hstep : step.toInt? = some d) (hpos : 0 < d) :
    ∃ (size p : Nat), step.place? = some (size : Int) ∧ step.isFinite = true ∧ HasScale size p ∧
      step.reach.place? = some ((min (2 ^ (p + 53)) overflow : Nat) : Int) := by
  obtain ⟨n, rfl⟩ := Int.eq_ofNat_of_zero_le hpos.le
  have hplace : step.place? = some ((n * unitsPerOne : Nat) : Int) := by
    rw [place?_of_toInt? hstep, Nat.cast_mul]
  have hfin : step.isFinite = true := by
    obtain ⟨s, m, fits, small, rfl, -, -⟩ := eq_finite_of_toInt? hstep
    rfl
  refine ⟨n * unitsPerOne, Nat.clog 2 n + 1074, hplace, hfin, hasScale_seconds (by omega), ?_⟩
  rw [reach, integer_of_toInt? hstep, Int.toNat_natCast]
  exact place?_ofNat_two_pow _

theorem infinity_add (h : step.isFinite = true) (s : Bool) : infinity s + step = infinity s := by
  rcases step with _ | t | ⟨t, n, fits, small⟩
  · cases h
  · cases h
  · rfl

/-- Numbers at the same place are the same, the zeros aside. -/
theorem eq_of_place? {a : Int} (hx : x.place? = some a) (hy : y.place? = some a) (ha : a ≠ 0) :
    x = y := by
  rcases x with _ | s | ⟨s, m, fits, small⟩
  · cases hx
  all_goals
    rcases y with _ | t | ⟨t, n, fits', small'⟩
    · cases hy
  all_goals
    simp only [place?_finite, place?_infinity, Option.some_inj] at hx hy
    cases s <;> cases t <;> simp only [Bool.false_eq_true, if_false, if_true] at hx hy
  all_goals try omega
  · rfl
  · rfl
  · obtain rfl : m = n := by omega
    rfl
  · obtain rfl : m = n := by omega
    rfl

/-- A step that leads up from within the reach stays within it. -/
theorem Within.of_lt (h : Within step x) (hlt : x < y) : Within step y := by
  refine ⟨?_, fun hlow => h.2 ?_⟩
  · rintro rfl
    exact not_lt_infinity x hlt
  · obtain ⟨a, b, ha, hb, hab⟩ := exists_place?_of_lt hlt
    obtain ⟨b', c, hb', hc, hbc⟩ := exists_place?_of_lt hlow
    rw [lt_iff_of_place? ha hc]
    rw [hb, Option.some_inj] at hb'
    omega

/-- What is below a number that is not beyond the reach is below the reach. -/
theorem lt_reach_of_lt (hstep : step.toInt? = some d) (hpos : 0 < d) (hlt : x < y)
    (h : ¬ step.reach < y) : x < step.reach := by
  obtain ⟨size, p, -, -, -, hreach⟩ := exists_scale hstep hpos
  obtain ⟨a, b, ha, hb, hab⟩ := exists_place?_of_lt hlt
  rw [lt_iff_of_place? hreach hb] at h
  rw [lt_iff_of_place? ha hreach]
  omega

/-- **A step moves every number within its reach.** -/
theorem lt_add_of_within (hstep : step.toInt? = some d) (hpos : 0 < d) (hlow : Within step x)
    (hhigh : x < step.reach) : x < x + step := by
  obtain ⟨size, p, hplace, hfin, hscale, hreach⟩ := exists_scale hstep hpos
  rcases x with _ | s | ⟨s, m, fits, small⟩
  · cases hhigh
  · cases s with
    | true => exact absurd rfl hlow.1
    | false =>
      rw [lt_iff_of_place? (place?_infinity false) hreach] at hhigh
      simp only [Bool.false_eq_true, if_false] at hhigh
      omega
  · obtain ⟨a, ha, hfits, hsmall⟩ := exists_place?_of_isFinite (x := finite s m fits small) rfl
    have hlow := hlow.2
    rw [lt_iff_of_place? ha (place?_neg hreach)] at hlow
    rw [lt_iff_of_place? ha hreach] at hhigh
    rw [lt_iff_of_place? ha (place?_add ha hplace rfl hfin)]
    have hcap := natCast_reach p
    exact lt_roundPlace_add hscale hfits hsmall (by omega) (by omega)

/-- **No step leads beyond its reach** from a number that is not beyond it. -/
theorem not_reach_lt_add (hstep : step.toInt? = some d) (hpos : 0 < d) (h : ¬ step.reach < x) :
    ¬ step.reach < x + step := by
  obtain ⟨size, p, hplace, hfin, hscale, hreach⟩ := exists_scale hstep hpos
  rcases x with _ | s | ⟨s, m, fits, small⟩
  · exact h
  · rwa [infinity_add hfin]
  · obtain ⟨a, ha, hfits, hsmall⟩ := exists_place?_of_isFinite (x := finite s m fits small) rfl
    have hsum := place?_add ha hplace rfl hfin
    rw [lt_iff_of_place? hreach ha] at h
    rw [lt_iff_of_place? hreach hsum]
    have hcap := natCast_reach p
    have hle := roundPlace_add_le_reach hscale (a := a) (by omega)
    have hend := roundPlace_le_overflow (a + size)
    omega

/-- **Beyond its reach a step leads nowhere** from a number that it has led to. -/
theorem not_lt_add_of_beyond (hstep : step.toInt? = some d) (hpos : 0 < d)
    (h : ¬ Within step (y + step) ∨ step.reach < y + step) : ¬ y + step < y + step + step := by
  obtain ⟨size, p, hplace, hfin, hscale, hreach⟩ := exists_scale hstep hpos
  have hinfinity : ∀ s, ¬ infinity s < infinity s + step := by
    intro s
    rw [infinity_add hfin, lt_iff_of_place? (place?_infinity s) (place?_infinity s)]
    exact lt_irrefl _
  rcases y with _ | s | ⟨s, m, fits, small⟩
  · exact Bool.false_ne_true
  · rw [infinity_add hfin]
    exact hinfinity s
  · obtain ⟨a, ha, hfits, -⟩ := exists_place?_of_isFinite (x := finite s m fits small) rfl
    have hsum := place?_add ha hplace rfl hfin
    generalize finite s m fits small + step = e at h hsum
    rcases e with _ | t | ⟨t, n, fits', small'⟩
    · cases hsum
    · exact hinfinity t
    · obtain ⟨b, hb, hfits', hsmall'⟩ :=
        exists_place?_of_isFinite (x := finite t n fits' small') rfl
      have hcap := natCast_reach p
      have hbeyond : 2 ^ (p + 53) < b ∨ b < -2 ^ (p + 53) := by
        rcases h with hout | hfar
        · have hlow : finite t n fits' small' < step.reach.neg := by
            by_contra hnot
            exact hout ⟨nofun, hnot⟩
          rw [lt_iff_of_place? hb (place?_neg hreach)] at hlow
          omega
        · rw [lt_iff_of_place? hreach hb] at hfar
          omega
      obtain rfl : roundPlace (a + size) = b := Option.some.inj (hsum.symm.trans hb)
      have hset := settled_roundPlace hscale hfits (by omega) hsmall'
      rw [lt_iff_of_place? hb (place?_add hb hplace rfl hfin), Int.not_lt]
      exact roundPlace_add_le hscale hfits' hsmall' hset (by omega)

/-- Where a step does not lead up it leads nowhere. -/
theorem add_eq_self_of_not_lt (hstep : step.toInt? = some d) (hpos : 0 < d)
    (h : ¬ x < x + step) : x + step = x := by
  obtain ⟨size, p, hplace, hfin, hscale, -⟩ := exists_scale hstep hpos
  rcases x with _ | s | ⟨s, m, fits, small⟩
  · rfl
  · exact infinity_add hfin s
  · obtain ⟨a, ha, hfits, hsmall⟩ := exists_place?_of_isFinite (x := finite s m fits small) rfl
    have hsum := place?_add ha hplace rfl hfin
    rw [lt_iff_of_place? ha hsum] at h
    have hup : a ≤ roundPlace (a + size) := le_roundPlace_add hfits hsmall
    have hstay : roundPlace (a + size) = a := by omega
    refine eq_of_place? (hstay ▸ hsum) ha ?_
    rintro rfl
    have hscale0 : (0 : Int) < 2 ^ (p + 53) := by positivity
    exact h (lt_roundPlace_add hscale hfits hsmall (by omega) hscale0)

end Reach

end Binary64

end LoadTest

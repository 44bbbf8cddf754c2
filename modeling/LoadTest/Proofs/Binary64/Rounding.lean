import Mathlib.Tactic.Ring
import Mathlib.Tactic.Linarith
import LoadTest.Binary64.Basic
/-!
# Where a rounded quotient lands

`roundBits num den` is the number of 53 leading bits nearest to `num / den`.  The numbers of the
format around the quotient are the multiples of a step, `bitStep (num / den)`, and here the rounded
number is compared with these multiples:

* `roundBits_le_of_le` and `le_roundBits_of_le` — rounding never crosses a multiple of the step;
* `lt_roundBits` and `roundBits_lt` — it does not even land on one that is more than half a step
  away;
* `roundBits_le_of_half` and `le_roundBits_of_half` — at half a step the even neighbour wins;
* `two_pow_le_roundBits` — nor does it cross a power of two downwards;
* `roundBits_mul_right` — only the quotient counts, not how it is written.
-/

namespace LoadTest

namespace Binary64

/-! ## Rounding to whole numbers -/

theorem roundDiv_mul_right (num den : Nat) {c : Nat} (hc : 0 < c) :
    roundDiv (num * c) (den * c) = roundDiv num den := by
  have htwice : 2 * (num * c % (den * c)) = 2 * (num % den) * c := by
    rw [Nat.mul_mod_mul_right, Nat.mul_assoc]
  simp only [roundDiv, Nat.mul_div_mul_right _ _ hc, htwice, Nat.mul_lt_mul_right hc]

/-- Rounding does not cross a whole number upwards. -/
theorem roundDiv_le_of_le {num den m : Nat} (hden : 0 < den) (h : num ≤ m * den) :
    roundDiv num den ≤ m := by
  have hdiv : num / den ≤ m := Nat.div_le_of_le_mul (by rwa [Nat.mul_comm])
  rcases Nat.lt_or_eq_of_le hdiv with hlt | heq
  · exact Nat.le_trans (roundDiv_le num den) hlt
  · have hmod : num % den = 0 := by
      have hsplit := Nat.div_add_mod num den
      rw [heq, Nat.mul_comm] at hsplit
      omega
    rw [← heq]
    simp [roundDiv, hmod, hden]

/-- Nor does it cross one downwards. -/
theorem le_roundDiv_of_le {num den m : Nat} (hden : 0 < den) (h : m * den ≤ num) :
    m ≤ roundDiv num den :=
  Nat.le_trans ((Nat.le_div_iff_mul_le hden).2 h) (le_roundDiv num den)

/-- A quotient that is at most a half above a whole number is not rounded beyond it; an exact half
goes down if the number is even. -/
theorem roundDiv_le_of_half {num den m : Nat} (hden : 0 < den) (h : 2 * num ≤ (2 * m + 1) * den)
    (heven : 2 * num = (2 * m + 1) * den → m % 2 = 0) : roundDiv num den ≤ m := by
  rcases Nat.lt_or_ge num (m * den) with hlt | hge
  · exact roundDiv_le_of_le hden hlt.le
  · have hhalf : (2 * m + 1) * den = 2 * (m * den) + den := by ring
    have hdiv : num / den = m := by
      rw [Nat.div_eq_iff hden]
      omega
    have hsplit := Nat.div_add_mod num den
    rw [hdiv, Nat.mul_comm den m] at hsplit
    have hmod : ¬ den < 2 * (num % den) := by omega
    rw [roundDiv, hdiv, if_neg hmod]
    by_cases hless : 2 * (num % den) < den
    · rw [if_pos hless]
    · rw [if_neg hless, if_pos (heven (by omega))]

/-- A quotient that is at most a half below a whole number is not rounded under it; an exact half
goes up if the number is even. -/
theorem le_roundDiv_of_half {num den m : Nat} (hden : 0 < den) (h : 2 * m * den ≤ 2 * num + den)
    (heven : 2 * m * den = 2 * num + den → m % 2 = 0) : m ≤ roundDiv num den := by
  rcases Nat.lt_or_ge num (m * den) with hlt | hge
  · have hpos : 0 < m := Nat.pos_of_ne_zero (by rintro rfl; simp at hlt)
    obtain ⟨k, rfl⟩ : ∃ k, m = k + 1 := ⟨m - 1, by omega⟩
    have hnext : (k + 1) * den = k * den + den := by ring
    have htwice : 2 * (k + 1) * den = 2 * (k * den) + 2 * den := by ring
    have hdiv : num / den = k := by
      rw [Nat.div_eq_iff hden]
      omega
    have hsplit := Nat.div_add_mod num den
    rw [hdiv, Nat.mul_comm den k] at hsplit
    have hmod : ¬ 2 * (num % den) < den := by omega
    rw [roundDiv, hdiv, if_neg hmod]
    by_cases hmore : den < 2 * (num % den)
    · rw [if_pos hmore]
    · have hodd : ¬ k % 2 = 0 := by
        have := heven (by omega)
        omega
      rw [if_neg hmore, if_neg hodd]
  · exact le_roundDiv_of_le hden hge

/-- A whole number that is more than a half below the quotient stays below it. -/
theorem lt_roundDiv {num den m : Nat} (hden : 0 < den) (h : (2 * m + 1) * den < 2 * num) :
    m < roundDiv num den := by
  have hnext : 2 * (m + 1) * den = (2 * m + 1) * den + den := by ring
  exact Nat.lt_of_succ_le (le_roundDiv_of_half hden (by rw [hnext]; omega) (by rw [hnext]; omega))

/-- One that is more than a half above it stays above it. -/
theorem roundDiv_lt {num den m : Nat} (hden : 0 < den) (h : 2 * num + den < 2 * m * den) :
    roundDiv num den < m := by
  have hpos : 0 < m := Nat.pos_of_ne_zero (by rintro rfl; omega)
  obtain ⟨k, rfl⟩ : ∃ k, m = k + 1 := ⟨m - 1, by omega⟩
  have hnext : 2 * (k + 1) * den = (2 * k + 1) * den + den := by ring
  exact Nat.lt_succ_of_le (roundDiv_le_of_half hden (by omega) (by omega))

/-- An exact half goes to an even number. -/
theorem roundDiv_mod_two_of_half {num den : Nat} (h : 2 * (num % den) = den) :
    roundDiv num den % 2 = 0 := by
  rw [roundDiv, if_neg (by omega), if_neg (by omega)]
  split <;> omega

/-! ## The step of a neighbourhood -/

/-- Below `2 ^ (s + 53)` every multiple of `2 ^ s` is a multiple of the step. -/
theorem bitStep_dvd_two_pow {n s : Nat} (h : n < 2 ^ (s + 53)) : bitStep n ∣ 2 ^ s := by
  have hlog : n.log2 ≤ s + 52 := by
    rcases Nat.eq_zero_or_pos n with rfl | hpos
    · simp
    · have := (Nat.log2_lt hpos.ne').2 h
      omega
  exact Nat.pow_dvd_pow 2 (by omega)

/-- The power of two at the start of a number's binade is a multiple of the step. -/
theorem bitStep_dvd_binade (n : Nat) : bitStep n ∣ 2 ^ n.log2 :=
  Nat.pow_dvd_pow 2 (by omega)

/-- From `2 ^ (s + 52)` on the step is a multiple of `2 ^ s`. -/
theorem two_pow_dvd_bitStep {n s : Nat} (h : 2 ^ (s + 52) ≤ n) : 2 ^ s ∣ bitStep n := by
  have hne : n ≠ 0 := by
    have := Nat.two_pow_pos (s + 52)
    omega
  have hlog : s + 52 ≤ n.log2 := (Nat.le_log2 hne).2 h
  exact Nat.pow_dvd_pow 2 (by omega)

/-- A smaller number has a step that divides that of a larger one. -/
theorem bitStep_dvd_bitStep {m n : Nat} (h : m ≤ n) : bitStep m ∣ bitStep n := by
  refine Nat.pow_dvd_pow 2 (Nat.sub_le_sub_right ?_ 52)
  rcases Nat.eq_zero_or_pos m with rfl | hpos
  · simp
  · exact (Nat.le_log2 (by omega)).2 (Nat.le_trans (Nat.log2_self_le hpos.ne') h)

/-- Two numbers have one step unless a power of two lies between them. -/
theorem bitStep_eq_or_two_pow_le {m n : Nat} (h : m ≤ n) :
    bitStep n = bitStep m ∨ m < 2 ^ n.log2 := by
  rcases Nat.lt_or_ge m (2 ^ n.log2) with hlt | hge
  · exact .inr hlt
  · left
    have hpos : 0 < m := Nat.lt_of_lt_of_le (Nat.two_pow_pos _) hge
    have hlow : n.log2 ≤ m.log2 := (Nat.le_log2 hpos.ne').2 hge
    have hhigh : m.log2 ≤ n.log2 :=
      (Nat.le_log2 (by omega)).2 (Nat.le_trans (Nat.log2_self_le hpos.ne') h)
    rw [bitStep, bitStep, Nat.le_antisymm hhigh hlow]

/-- The step is at most a part in `2 ^ 52` of its neighbourhood. -/
theorem bitStep_mul_le {n : Nat} (h : 2 ^ 52 ≤ n) : bitStep n * 2 ^ 52 ≤ n := by
  have hne : n ≠ 0 := by
    have := Nat.two_pow_pos 52
    omega
  have hlog : 52 ≤ n.log2 := (Nat.le_log2 hne).2 h
  rw [bitStep, Nat.pow_eq, ← Nat.pow_add, Nat.sub_add_cancel hlog]
  exact Nat.log2_self_le hne

/-! ## Rounding to leading bits -/

theorem roundBits_mul_right (num den : Nat) {c : Nat} (hc : 0 < c) :
    roundBits (num * c) (den * c) = roundBits num den := by
  simp only [roundBits, Nat.mul_div_mul_right _ _ hc]
  rw [Nat.mul_right_comm den c, roundDiv_mul_right _ _ hc]

/-- **Rounding is monotone on the grid, from above.**  A multiple of the step that is not below the
quotient is not below the rounded quotient. -/
theorem roundBits_le_of_le {num den m : Nat} (hden : 0 < den) (hm : bitStep (num / den) ∣ m)
    (h : num ≤ m * den) : roundBits num den ≤ m := by
  obtain ⟨k, rfl⟩ := hm
  have hpos : 0 < den * bitStep (num / den) := Nat.mul_pos hden (bitStep_pos _)
  have hround : roundDiv num (den * bitStep (num / den)) ≤ k := by
    refine roundDiv_le_of_le hpos (Nat.le_trans h (Nat.le_of_eq ?_))
    ring
  rw [roundBits, Nat.mul_comm _ k]
  exact Nat.mul_le_mul_right _ hround

/-- **Rounding is monotone on the grid, from below.** -/
theorem le_roundBits_of_le {num den m : Nat} (hden : 0 < den) (hm : bitStep (num / den) ∣ m)
    (h : m * den ≤ num) : m ≤ roundBits num den := by
  obtain ⟨k, rfl⟩ := hm
  have hpos : 0 < den * bitStep (num / den) := Nat.mul_pos hden (bitStep_pos _)
  have hround : k ≤ roundDiv num (den * bitStep (num / den)) := by
    refine le_roundDiv_of_le hpos (Nat.le_trans (Nat.le_of_eq ?_) h)
    ring
  rw [roundBits, Nat.mul_comm _ k]
  exact Nat.mul_le_mul_right _ hround

/-- A multiple of the step that is more than half a step below the quotient stays below it. -/
theorem lt_roundBits {num den m : Nat} (hden : 0 < den) (hm : bitStep (num / den) ∣ m)
    (h : (2 * m + bitStep (num / den)) * den < 2 * num) : m < roundBits num den := by
  obtain ⟨k, rfl⟩ := hm
  have hpos : 0 < den * bitStep (num / den) := Nat.mul_pos hden (bitStep_pos _)
  have hround : k < roundDiv num (den * bitStep (num / den)) := by
    refine lt_roundDiv hpos (Nat.lt_of_le_of_lt (Nat.le_of_eq ?_) h)
    ring
  rw [roundBits, Nat.mul_comm _ k]
  exact Nat.mul_lt_mul_of_pos_right hround (bitStep_pos _)

/-- A multiple of the step that is more than half a step above the quotient stays above it. -/
theorem roundBits_lt {num den m : Nat} (hden : 0 < den) (hm : bitStep (num / den) ∣ m)
    (h : 2 * num + bitStep (num / den) * den < 2 * m * den) : roundBits num den < m := by
  obtain ⟨k, rfl⟩ := hm
  have hpos : 0 < den * bitStep (num / den) := Nat.mul_pos hden (bitStep_pos _)
  have hround : roundDiv num (den * bitStep (num / den)) < k := by
    refine roundDiv_lt hpos ?_
    calc 2 * num + den * bitStep (num / den) = 2 * num + bitStep (num / den) * den := by ring
      _ < 2 * (bitStep (num / den) * k) * den := h
      _ = 2 * k * (den * bitStep (num / den)) := by ring
  rw [roundBits, Nat.mul_comm _ k]
  exact Nat.mul_lt_mul_of_pos_right hround (bitStep_pos _)

/-- **Ties from above.**  A multiple of the step that is at most half a step below the quotient is
not passed; at exactly half a step it has to be an even multiple. -/
theorem roundBits_le_of_half {num den m : Nat} (hden : 0 < den) (hm : bitStep (num / den) ∣ m)
    (h : 2 * num ≤ (2 * m + bitStep (num / den)) * den)
    (heven : 2 * num = (2 * m + bitStep (num / den)) * den → 2 * bitStep (num / den) ∣ m) :
    roundBits num den ≤ m := by
  obtain ⟨k, rfl⟩ := hm
  have hstep := bitStep_pos (num / den)
  have hscale : (2 * (bitStep (num / den) * k) + bitStep (num / den)) * den
      = (2 * k + 1) * (den * bitStep (num / den)) := by ring
  rw [hscale] at h heven
  have hround : roundDiv num (den * bitStep (num / den)) ≤ k := by
    refine roundDiv_le_of_half (Nat.mul_pos hden hstep) h fun htie => ?_
    have hdvd := heven htie
    rw [Nat.mul_comm 2] at hdvd
    exact Nat.mod_eq_zero_of_dvd (Nat.dvd_of_mul_dvd_mul_left hstep hdvd)
  rw [roundBits, Nat.mul_comm _ k]
  exact Nat.mul_le_mul_right _ hround

/-- **Ties from below.** -/
theorem le_roundBits_of_half {num den m : Nat} (hden : 0 < den) (hm : bitStep (num / den) ∣ m)
    (h : 2 * m * den ≤ 2 * num + bitStep (num / den) * den)
    (heven : 2 * m * den = 2 * num + bitStep (num / den) * den → 2 * bitStep (num / den) ∣ m) :
    m ≤ roundBits num den := by
  obtain ⟨k, rfl⟩ := hm
  have hstep := bitStep_pos (num / den)
  have hscale : 2 * (bitStep (num / den) * k) * den = 2 * k * (den * bitStep (num / den)) := by ring
  rw [hscale, Nat.mul_comm (bitStep (num / den)) den] at h heven
  have hround : k ≤ roundDiv num (den * bitStep (num / den)) := by
    refine le_roundDiv_of_half (Nat.mul_pos hden hstep) h fun htie => ?_
    have hdvd := heven htie
    rw [Nat.mul_comm 2] at hdvd
    exact Nat.mod_eq_zero_of_dvd (Nat.dvd_of_mul_dvd_mul_left hstep hdvd)
  rw [roundBits, Nat.mul_comm _ k]
  exact Nat.mul_le_mul_right _ hround

/-- A quotient halfway between two neighbours goes to an even multiple of the step. -/
theorem two_mul_bitStep_dvd_roundBits {num den : Nat}
    (h : 2 * (num % (den * bitStep (num / den))) = den * bitStep (num / den)) :
    2 * bitStep (num / den) ∣ roundBits num den := by
  rw [roundBits]
  exact Nat.mul_dvd_mul (Nat.dvd_of_mod_eq_zero (roundDiv_mod_two_of_half h)) (Nat.dvd_refl _)

theorem bitStep_dvd_roundBits (num den : Nat) : bitStep (num / den) ∣ roundBits num den :=
  Nat.dvd_mul_left _ _

/-- Rounding does not cross a power of two downwards. -/
theorem two_pow_le_roundBits {num den s : Nat} (h : 2 ^ s ≤ num / den) :
    2 ^ s ≤ roundBits num den := by
  have hne : num / den ≠ 0 := by
    have := Nat.two_pow_pos s
    omega
  have hden : 0 < den := Nat.pos_of_ne_zero (by rintro rfl; simp at hne)
  have hbinade : 2 ^ (num / den).log2 ≤ roundBits num den :=
    le_roundBits_of_le hden (bitStep_dvd_binade _)
      ((Nat.le_div_iff_mul_le hden).1 (Nat.log2_self_le hne))
  exact Nat.le_trans (Nat.pow_le_pow_right (by decide) ((Nat.le_log2 hne).2 h)) hbinade

/-- Rounding does not cross a number of the format upwards. -/
theorem roundBits_le_of_fits {n m : Nat} (hm : Fits m) (h : n ≤ m) : roundBits n 1 ≤ m := by
  refine roundBits_le_of_le Nat.one_pos ?_ (by omega)
  rw [Nat.div_one]
  exact Nat.dvd_trans (bitStep_dvd_bitStep h) hm

/-- Nor does it cross one downwards. -/
theorem le_roundBits_of_fits {n m : Nat} (hm : Fits m) (h : m ≤ n) : m ≤ roundBits n 1 := by
  rcases Nat.eq_zero_or_pos n with rfl | hpos
  · exact Nat.le_trans h (Nat.zero_le _)
  rcases bitStep_eq_or_two_pow_le h with hstep | hlt
  · refine le_roundBits_of_le Nat.one_pos ?_ (by omega)
    rw [Nat.div_one, hstep]
    exact hm
  · refine Nat.le_trans hlt.le (two_pow_le_roundBits ?_)
    rw [Nat.div_one]
    exact Nat.log2_self_le hpos.ne'

end Binary64

end LoadTest

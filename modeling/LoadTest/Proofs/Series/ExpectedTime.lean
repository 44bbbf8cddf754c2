import LoadTest.Proofs.Binary64.Whole
import LoadTest.Proofs.Series.Lines
/-!
# The expected time

The expected time of a series is a rounded number.  It is compared here with the exact one, which
moves on by the step with every line and is taken from each status line:

* `Tracks` — as long as the exact time is a safe integer the rounded one equals it, and after that
  the rounded one stays beyond all safe integers, whatever its own value is;
* `Tracks.add_delta` — a step of the series keeps this;
* `Tracks.lt_iff` — so a comparison with a safe integer comes out as it would with the exact time;
* `stepsFrom?_eq_missedTimes` — and the missed steps are those of the exact time.
-/

namespace LoadTest

namespace Series

open Binary64

/-! ## Counting missed steps -/

/-- How many steps of `delta` from `start` on lie before `stop`. -/
def missedSteps (delta start stop : Int) : Nat := ((stop - start + (delta - 1)) / delta).toNat

theorem lt_missedSteps_iff {delta : Int} (hdelta : 0 < delta) (start stop : Int) (k : Nat) :
    k < missedSteps delta start stop ↔ start + k * delta < stop := by
  have hdiv := Int.le_ediv_iff_mul_le (a := (k : Int) + 1) (b := stop - start + (delta - 1)) hdelta
  rw [missedSteps, Int.lt_toNat, Int.lt_iff_add_one_le, hdiv, Int.add_mul]
  omega

theorem missedSteps_le_iff {delta : Int} (hdelta : 0 < delta) (start stop : Int) (k : Nat) :
    missedSteps delta start stop ≤ k ↔ stop ≤ start + k * delta := by
  rw [← Nat.not_lt, lt_missedSteps_iff hdelta, Int.not_lt]

theorem missedSteps_of_le {delta start stop : Int} (hdelta : 0 < delta) (h : stop ≤ start) :
    missedSteps delta start stop = 0 := by
  have := (lt_missedSteps_iff hdelta start stop 0).1
  by_contra hne
  have := this (Nat.pos_of_ne_zero hne)
  omega

/-- One missed step is that at the start itself. -/
theorem missedSteps_of_lt {delta start stop : Int} (hdelta : 0 < delta) (h : start < stop) :
    missedSteps delta start stop = missedSteps delta (start + delta) stop + 1 := by
  have hpos : 0 ≤ (stop - (start + delta) + (delta - 1)) / delta :=
    Int.ediv_nonneg (by omega) hdelta.le
  have hsplit : stop - start + (delta - 1) = stop - (start + delta) + (delta - 1) + delta := by ring
  rw [missedSteps, missedSteps, hsplit, Int.add_ediv_of_dvd_right (Int.dvd_refl _),
    Int.ediv_self hdelta.ne']
  omega

/-- The times of these steps. -/
def missedTimes (delta start stop : Int) : List Int :=
  (List.range (missedSteps delta start stop)).map fun (k : Nat) => start + k * delta

theorem mem_missedTimes_iff {delta : Int} (hdelta : 0 < delta) {start stop z : Int} :
    z ∈ missedTimes delta start stop ↔ ∃ k : Nat, z = start + k * delta ∧ z < stop := by
  simp only [missedTimes, List.mem_map, List.mem_range, lt_missedSteps_iff hdelta]
  constructor
  · rintro ⟨k, hk, rfl⟩
    exact ⟨k, rfl, hk⟩
  · rintro ⟨k, rfl, hk⟩
    exact ⟨k, hk, rfl⟩

theorem missedTimes_of_le {delta start stop : Int} (hdelta : 0 < delta) (h : stop ≤ start) :
    missedTimes delta start stop = [] := by
  rw [missedTimes, missedSteps_of_le hdelta h, List.range_zero, List.map_nil]

theorem missedTimes_of_lt {delta start stop : Int} (hdelta : 0 < delta) (h : start < stop) :
    missedTimes delta start stop = start :: missedTimes delta (start + delta) stop := by
  rw [missedTimes, missedSteps_of_lt hdelta h, List.range_succ_eq_map, List.map_cons, List.map_map,
    Nat.cast_zero, Int.zero_mul, Int.add_zero, missedTimes]
  congr 1
  refine List.map_congr_left fun k _ => ?_
  rw [Function.comp_apply, Nat.cast_succ]
  ring

theorem missedTimes_add {delta : Int} (hdelta : 0 < delta) (e : Int) (n : Nat) :
    missedTimes delta e (e + n * delta) = (List.range n).map fun (k : Nat) => e + k * delta := by
  have hsteps : missedSteps delta e (e + n * delta) = n := by
    refine eq_of_forall_lt_iff fun k => ?_
    rw [lt_missedSteps_iff hdelta, Int.add_lt_add_iff_left, Int.mul_lt_mul_right hdelta,
      Int.ofNat_lt]
  rw [missedTimes, hsteps]

/-- Different missed steps are in order. -/
theorem pairwise_missedTimes {delta : Int} (hdelta : 0 < delta) (start stop : Int) :
    (missedTimes delta start stop).Pairwise (· < ·) := by
  rw [missedTimes, List.pairwise_map]
  refine List.pairwise_lt_range.imp ?_
  intro i j hij
  have := Int.mul_lt_mul_of_pos_right (Int.ofNat_lt.2 hij) hdelta
  omega

theorem time_missed (time : Binary64) : (missed time).time = time := rfl

/-- A missed step between safe integers has its exact time. -/
theorem toInt?_of_mem_missedTimes {delta start stop z : Int} (hdelta : 0 < delta)
    (hstart : -(maxSafe : Int) ≤ start) (hstop : stop ≤ maxSafe)
    (hz : z ∈ missedTimes delta start stop) :
    (missed (ofInt z)).time.toInt? = some z ∧ start ≤ z ∧ z < stop := by
  obtain ⟨k, rfl, hlt⟩ := (mem_missedTimes_iff hdelta).1 hz
  have hk : 0 ≤ (k : Int) * delta := Int.mul_nonneg (by omega) hdelta.le
  refine ⟨?_, by omega, hlt⟩
  rw [maxSafe_eq] at hstart hstop
  rw [time_missed]
  exact toInt?_ofInt (by omega)

/-! ## Rounded and exact time -/

/-- The rounded time follows the exact one: they are equal as long as the exact time is a safe
integer, and after that the rounded one stays beyond all safe integers. -/
structure Tracks (x : Binary64) (exact : Int) : Prop where
  lower : -(maxSafe : Int) ≤ exact
  equal : exact ≤ maxSafe → x.toInt? = some exact
  beyond : (maxSafe : Int) < exact → Beyond x

theorem tracks_of_toInt? {x : Binary64} {z : Int} (h : x.toInt? = some z)
    (hz : z.natAbs ≤ maxSafe) : Tracks x z where
  lower := by omega
  equal := fun _ => h
  beyond := fun _ => by omega

/-- Before the first line the exact expected time is one step before zero. -/
theorem tracks_start {delta : Binary64} {d : Int} (hd : delta.toInt? = some d) (hpos : 0 < d)
    (hsafe : d ≤ maxSafe) : Tracks (0 - delta) (-d) := by
  have hsub : 0 - delta = ofInt (0 + -d) := add_eq_ofInt toInt?_zero (toInt?_neg hd) (by omega)
  rw [Int.zero_add] at hsub
  rw [maxSafe_eq] at hsafe
  refine tracks_of_toInt? ?_ (by rw [maxSafe_eq]; omega)
  rw [hsub]
  exact toInt?_ofInt (by omega)

namespace Tracks

variable {x y delta : Binary64} {e f d : Int}

/-- **One step of the series.**  Where the exact sum is no longer a safe integer the rounded one has
left them too, however it was rounded. -/
theorem add_delta (h : Tracks x e) (hd : delta.toInt? = some d) (hpos : 0 < d) :
    Tracks (x + delta) (e + d) := by
  have hlower := h.lower
  refine ⟨by omega, ?_, ?_⟩
  · intro hle
    rw [add_eq_ofInt (h.equal (by omega)) hd (fun _ => hpos)]
    rw [maxSafe_eq] at hle hlower
    exact toInt?_ofInt (by omega)
  · intro hgt
    have hU : (0 : Int) < unitsPerOne := by exact_mod_cast unitsPerOne_pos
    have hdelta := place?_of_toInt? hd
    rcases lt_or_ge (maxSafe : Int) e with hfar | hnear
    · obtain ⟨p, hp, hle⟩ := h.beyond hfar
      exact beyond_add hp hdelta (by nlinarith)
    · have hreach : (2 ^ 53 : Int) ≤ e + d := by
        rw [maxSafe_eq] at hgt
        omega
      exact beyond_add (place?_of_toInt? (h.equal hnear)) hdelta (by nlinarith)

/-- While the exact sum is safe, the rounded one is the integer itself and no minus zero. -/
theorem add_delta_eq (h : Tracks x e) (hd : delta.toInt? = some d) (hpos : 0 < d)
    (hle : e + d ≤ maxSafe) : x + delta = ofInt (e + d) :=
  add_eq_ofInt (h.equal (by omega)) hd (fun _ => hpos)

/-- Rounded times of different exact times are in order, if the first one is safe. -/
theorem lt_of_lt (hx : Tracks x e) (hy : Tracks y f) (he : e ≤ maxSafe) (hlt : e < f) : x < y := by
  have hplace := place?_of_toInt? (hx.equal he)
  rcases lt_or_ge (maxSafe : Int) f with hfar | hnear
  · obtain ⟨p, hp, hlt⟩ := (hy.beyond hfar).place? he
    exact (lt_iff_of_place? hplace hp).2 hlt
  · exact (lt_iff_of_toInt? (hx.equal he) (hy.equal hnear)).2 hlt

/-- **Comparing with a safe integer** comes out as with the exact time. -/
theorem lt_iff (hx : Tracks x e) (hy : y.toInt? = some f) (hf : f ≤ maxSafe) :
    x < y ↔ e < f := by
  rcases lt_or_ge (maxSafe : Int) e with hfar | hnear
  · obtain ⟨p, hp, hlt⟩ := (hx.beyond hfar).place? hf
    rw [lt_iff_of_place? hp (place?_of_toInt? hy)]
    omega
  · exact lt_iff_of_toInt? (hx.equal hnear) hy

end Tracks

/-- **After a status line** the time is the line's own as an integer, whatever was expected; only the
sign of a zero may be that of the expected time. -/
theorem toInt?_timeAfter (now : Binary64) {sample : Sample} {t : Int}
    (hs : sample.time.toInt? = some t) : (timeAfter now sample).toInt? = some t := by
  rw [timeAfter]
  split
  · rename_i heq
    exact toInt?_of_eq hs heq
  · exact hs

/-! ## The time that is expected at a line -/

/-- What is expected at a line: the rounded time follows the exact one and is no minus zero, so a
sample for a missed step shows it as it would the exact one. -/
structure Expects (now : Binary64) (exact : Int) : Prop extends Tracks now exact where
  plain : exact ≤ maxSafe → now = ofInt exact

/-- One step after a time that is tracked. -/
theorem Tracks.expects_add {x delta : Binary64} {e d : Int} (hx : Tracks x e)
    (hd : delta.toInt? = some d) (hpos : 0 < d) : Expects (x + delta) (e + d) where
  toTracks := hx.add_delta hd hpos
  plain := hx.add_delta_eq hd hpos

/-- Zero is expected at the first line, however large the step is. -/
theorem expects_first {delta : Binary64} {d : Int} (hd : delta.toInt? = some d) (hpos : 0 < d) :
    Expects (0 - delta + delta) 0 := by
  have hneg := toInt?_neg hd
  have hsub : 0 - delta = ofInt (0 + -d) := add_eq_ofInt toInt?_zero hneg (by omega)
  rw [Int.zero_add, ← eq_ofInt_of_toInt? hneg (by omega)] at hsub
  have hzero : 0 - delta + delta = ofInt 0 := by
    rw [hsub, add_eq_ofInt hneg hd (fun _ => hpos), Int.add_left_neg]
  refine ⟨tracks_of_toInt? ?_ (by simp), fun _ => hzero⟩
  rw [hzero]
  exact toInt?_ofInt (by simp)

/-! ## The missed steps -/

/-- **The missed steps are those of the exact time.**  The rounded time at which they start has to
be the exact one if there are any. -/
theorem stepsFrom?_eq_missedTimes {delta stop : Binary64} {d t : Int}
    (hd : delta.toInt? = some d) (hpos : 0 < d) (ht : stop.toInt? = some t) (hsafe : t ≤ maxSafe) :
    ∀ (n : Nat) (done : List Binary64) (x : Binary64) (e : Int), missedSteps d e t = n →
      Tracks x e → (e < t → x = ofInt e) →
      stepsFrom? delta stop done x = some (done.reverse ++ (missedTimes d e t).map ofInt) := by
  intro n
  induction n with
  | zero =>
    intro done x e hn hx _
    have hle : ¬ e < t := fun hlt => by
      have := missedSteps_of_lt hpos hlt
      omega
    rw [stepsFrom?_of_not_lt (fun hlt => hle ((hx.lt_iff ht hsafe).1 hlt)),
      missedTimes_of_le hpos (Int.not_lt.1 hle), List.map_nil, List.append_nil]
  | succ n ih =>
    intro done x e hn hx hstart
    have hlt : e < t := by
      by_contra hge
      have := missedSteps_of_le hpos (Int.not_lt.1 hge)
      omega
    have hnext := hx.add_delta hd hpos
    have hmove : x < x + delta := hx.lt_of_lt hnext (by omega) (by omega)
    have hrest : missedSteps d (e + d) t = n := by
      have := missedSteps_of_lt hpos hlt
      omega
    rw [stepsFrom?_of_lt ((hx.lt_iff ht hsafe).2 hlt) hmove,
      ih (x :: done) (x + delta) (e + d) hrest hnext (fun h => hx.add_delta_eq hd hpos (by omega)),
      missedTimes_of_lt hpos hlt, List.map_cons, ← hstart hlt, List.reverse_cons,
      List.append_assoc, List.singleton_append]

/-- **The block of a status line**: a sample without a latency for each missed step, and its own. -/
theorem samples?_eq_missedTimes {o : Options} {now : Binary64} {sample : Sample}
    {d e t : Int} (hd : o.delta.toInt? = some d) (hpos : 0 < d)
    (ht : sample.time.toInt? = some t) (hsafe : t ≤ maxSafe) (hnow : Expects now e) :
    Block.samples? o.delta ⟨now, sample⟩
      = some ((missedTimes d e t).map (fun z => missed (ofInt z)) ++ [sample]) := by
  have hsteps := stepsFrom?_eq_missedTimes hd hpos ht hsafe _ [] now e rfl hnow.toTracks
    (fun hlt => hnow.plain (by omega))
  rw [Block.samples?, hsteps, Option.map_some, List.reverse_nil, List.nil_append, List.map_map]
  rfl

end Series

end LoadTest

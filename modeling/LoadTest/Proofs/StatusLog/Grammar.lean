import LoadTest.Proofs.StatusLog.Numeral
import LoadTest.Proofs.Text.Search
import LoadTest.StatusLog.Operation
/-!
# The grammar of status lines

Which lines are read, and what is wrong with the others, said without the reader:

* `NamesTime`, `FitsLatency`: what a line has to hold before its time marker and after it.
* `IsStatusLine`: the lines that fit; `FirstBroken`: the first condition that a line breaks.
* `read_cases`: what reading a line gives, by these conditions.
* `read_grammar`: the lines that fit are read and no others; a latency that is there is never taken
  for a missing one; and a line that is not read is reported with the first condition it breaks.
-/

namespace LoadTest

namespace StatusLine

open Binary64 Text

-- Numbers of hundreds of digits: they are used through lemmas only.
attribute [local irreducible] unitsPerOne overflow

variable {name : String} {line : String} {before after : List Char} {fault : LineFault}

/-! ## Conditions -/

/-- Without the blanks around it the text is an integer. -/
def NamesTime (before : List Char) : Prop := ∃ t : Timestamp, trim before = t.text

/-- The text starts with blanks, or none, and a digit. -/
def StartsNumber (field : List Char) : Prop :=
  ∃ blanks digit rest, field = blanks ++ digit :: rest ∧ (∀ c ∈ blanks, isBlank c = true) ∧
    digit.isDigit = true

/-- The text has no mark of an operation, or a number follows the first one. -/
def FitsLatency (name : String) (after : List Char) : Prop :=
  ¬ latencyMarker name.toList <:+: after ∨
    ∃ seen field, FirstCut (latencyMarker name.toList) after seen field ∧ StartsNumber field

/-- The line has a time marker, an integer before the first one, and after it no latency of the
operation or a number as its first one. -/
def IsStatusLine (name : String) (line : List Char) : Prop :=
  ∃ before after, FirstCut timeMarker line before after ∧ NamesTime before ∧
    FitsLatency name after

/-- The first of the three conditions that a line breaks. -/
inductive FirstBroken (name : String) (line : List Char) : LineFault → Prop
  | noTimeMarker : ¬ timeMarker <:+: line → FirstBroken name line .noTimeMarker
  | badTimestamp {before after : List Char} : FirstCut timeMarker line before after →
      ¬ NamesTime before → FirstBroken name line (.badTimestamp (String.ofList (trim before)))
  | badLatency {before after : List Char} : FirstCut timeMarker line before after →
      NamesTime before → ¬ FitsLatency name after → FirstBroken name line (.badLatency name)

/-- A line that breaks a condition is no status line. -/
theorem FirstBroken.not_isStatusLine {line : List Char} (h : FirstBroken name line fault) :
    ¬ IsStatusLine name line := by
  rintro ⟨before, after, hcut, htime, hlatency⟩
  cases h with
  | noTimeMarker hnone =>
    refine hnone ⟨before, after, ?_⟩
    rw [List.append_assoc]
    exact hcut.eq.symm
  | badTimestamp hcut' hbad =>
    obtain ⟨rfl, -⟩ := hcut.unique hcut'
    exact hbad htime
  | badLatency hcut' _ hbad =>
    obtain ⟨-, rfl⟩ := hcut.unique hcut'
    exact hbad hlatency

/-! ## Blanks before a number -/

theorem startsNumber_iff {field : List Char} :
    StartsNumber field ↔ ∃ c ∈ (trimStart field).head?, c.isDigit = true := by
  constructor
  · rintro ⟨blanks, digit, rest, rfl, hblanks, hdigit⟩
    refine ⟨digit, ?_, hdigit⟩
    rw [trimStart, List.dropWhile_append_of_pos hblanks,
      List.dropWhile_cons_of_neg (by simp [isBlank_of_isDigit hdigit])]
    rfl
  · rintro ⟨c, hc, hdigit⟩
    cases hfield : trimStart field with
    | nil =>
      rw [hfield] at hc
      cases hc
    | cons d rest =>
      rw [hfield] at hc
      obtain rfl : d = c := Option.some.inj hc
      refine ⟨field.takeWhile isBlank, d, rest, ?_, fun _ h => List.mem_takeWhile_imp h, hdigit⟩
      rw [← hfield, trimStart, List.takeWhile_append_dropWhile]

theorem latency?_eq_none_iff_not_startsNumber {field : List Char} :
    latency? field = none ↔ ¬ StartsNumber field := by
  rw [latency?_eq_none_iff, startsNumber_iff]
  simp

/-! ## Reading by the conditions -/

theorem read_of_unmarked (operation : Value) (h : splitFirst? timeMarker line.toList = none) :
    read operation line = .error ⟨.noTimeMarker, line⟩ := by
  rw [read, h]

theorem read_of_untimed (operation : Value)
    (h : splitFirst? timeMarker line.toList = some (before, after))
    (htime : timestamp? (trim before) = none) :
    read operation line = .error ⟨.badTimestamp (String.ofList (trim before)), line⟩ := by
  rw [read, h]
  simp only [htime]

/-- **A line with a time** is read as the first latency of the operation, if there is one. -/
theorem read_of_timed {t : Timestamp}
    (h : splitFirst? timeMarker line.toList = some (before, after)) (htime : trim before = t.text) :
    read (.text name) line =
      match (splitFirst? (latencyMarker name.toList) after).map Prod.snd with
      | none => .ok ⟨t.number, noLatency⟩
      | some field =>
        match latency? field with
        | none => .error ⟨.badLatency name, line⟩
        | some latency => .ok ⟨t.number, latency⟩ := by
  have hname : Value.toText? (.text name) = some name.toList := rfl
  rw [read, h]
  simp only [htime, timestamp?_text, hname, String.ofList_toList]
  cases splitFirst? (latencyMarker name.toList) after <;> rfl

/-- A line with a time breaks the condition on the latency, or is read: without a mark of the
operation as the line of a missing latency, else with a number at zero or above it. -/
theorem read_cases_of_timed {t : Timestamp}
    (hcut : splitFirst? timeMarker line.toList = some (before, after))
    (ht : trim before = t.text) :
    (read (.text name) line = .error ⟨.badLatency name, line⟩ ∧ ¬ FitsLatency name after) ∨
      ∃ latency, read (.text name) line = .ok ⟨t.number, latency⟩ ∧ FitsLatency name after ∧
        (latency = noLatency ∧ ¬ latencyMarker name.toList <:+: after ∨
          latencyMarker name.toList <:+: after ∧ ∃ p, latency.place? = some p ∧ 0 ≤ p) := by
  have hread : read (.text name) line = _ := read_of_timed hcut ht
  cases hmark : splitFirst? (latencyMarker name.toList) after with
  | none =>
    have habsent := splitFirst?_eq_none_iff.1 hmark
    rw [hmark] at hread
    exact .inr ⟨noLatency, hread, .inl habsent, .inl ⟨rfl, habsent⟩⟩
  | some cut =>
    obtain ⟨seen, field⟩ := cut
    have hmarked := splitFirst?_eq_some_iff.1 hmark
    have hpresent : latencyMarker name.toList <:+: after :=
      ⟨seen, field, by rw [List.append_assoc]; exact hmarked.eq.symm⟩
    rw [hmark] at hread
    cases hlatency : latency? field with
    | none =>
      simp only [Option.map_some, hlatency] at hread
      refine .inl ⟨hread, ?_⟩
      rintro (habsent | ⟨seen', field', hmarked', hnumber⟩)
      · exact habsent hpresent
      · obtain ⟨-, rfl⟩ := hmarked.unique hmarked'
        exact latency?_eq_none_iff_not_startsNumber.1 hlatency hnumber
    | some latency =>
      have hnumber : StartsNumber field := by
        by_contra hbad
        rw [latency?_eq_none_iff_not_startsNumber.2 hbad] at hlatency
        cases hlatency
      simp only [Option.map_some, hlatency] at hread
      exact .inr ⟨latency, hread, .inr ⟨seen, field, hmarked, hnumber⟩,
        .inr ⟨hpresent, exists_of_latency? hlatency⟩⟩

/-- **What reading a line gives**: the first condition that it breaks, or its time and its latency. -/
theorem read_cases (name : String) (line : String) :
    (∃ fault, read (.text name) line = .error ⟨fault, line⟩ ∧ FirstBroken name line.toList fault) ∨
      ∃ before after latency, ∃ t : Timestamp, read (.text name) line = .ok ⟨t.number, latency⟩ ∧
        FirstCut timeMarker line.toList before after ∧ trim before = t.text ∧
        FitsLatency name after ∧
        (latency = noLatency ∧ ¬ latencyMarker name.toList <:+: after ∨
          latencyMarker name.toList <:+: after ∧ ∃ p, latency.place? = some p ∧ 0 ≤ p) := by
  cases hcut : splitFirst? timeMarker line.toList with
  | none =>
    exact .inl ⟨_, read_of_unmarked _ hcut, .noTimeMarker (splitFirst?_eq_none_iff.1 hcut)⟩
  | some cut =>
    obtain ⟨before, after⟩ := cut
    have hfirst := splitFirst?_eq_some_iff.1 hcut
    by_cases htime : NamesTime before
    · obtain ⟨t, ht⟩ := htime
      rcases read_cases_of_timed hcut ht with ⟨hread, hbad⟩ | ⟨latency, hread, hfits, hlatency⟩
      · exact .inl ⟨_, hread, .badLatency hfirst ⟨t, ht⟩ hbad⟩
      · exact .inr ⟨before, after, latency, t, hread, hfirst, ht, hfits, hlatency⟩
    · have hnone : timestamp? (trim before) = none := by
        rw [timestamp?_eq_none_iff]
        rintro ⟨t, ht⟩
        exact htime ⟨t, ht.symm⟩
      exact .inl ⟨_, read_of_untimed _ hcut hnone, .badTimestamp hfirst htime⟩

/-- A number at zero or above it is neither below zero nor `nan`. -/
theorem not_lt_zero_of_place? {x : Binary64} {p : Int} (h : x.place? = some p) (hp : 0 ≤ p) :
    ¬ x < 0 ∧ x.isNaN = false := by
  have hzero := place?_of_toInt? toInt?_zero
  refine ⟨fun hlt => ?_, ?_⟩
  · have := (lt_iff_of_place? h hzero).1 hlt
    omega
  · cases x with
    | nan => cases h
    | infinity s => rfl
    | finite s m fits small => rfl

/-- **The grammar of status lines.**  For every operation and every line:

* the line is read if it is a status line, and only then;
* of a line that is read the latency is the one for a missing latency if the line has no mark of the
  operation after its time, and only then; any other is a number that is not below zero;
* a line that is not read is reported, with its text, for the first condition that it breaks. -/
theorem read_grammar (p : Operation) (line : String) :
    ((∃ sample, read p.toValue line = .ok sample) ↔ IsStatusLine p.name line.toList) ∧
      (∀ sample before after, read p.toValue line = .ok sample →
        FirstCut timeMarker line.toList before after →
        (sample.latency = noLatency ↔ ¬ latencyMarker p.name.toList <:+: after) ∧
          (latencyMarker p.name.toList <:+: after →
            ¬ sample.latency < 0 ∧ sample.latency.isNaN = false)) ∧
      ∀ e, read p.toValue line = .error e →
        FirstBroken p.name line.toList e.fault ∧
          e.toFailure
            = .reported .logParse e.fault.message (some (.record [("line", .text line)])) none := by
  have hvalue : p.toValue = .text p.name := rfl
  rw [hvalue]
  rcases read_cases p.name line with ⟨fault, hread, hbroken⟩ |
    ⟨before, after, latency, t, hread, hcut, ht, hfits, hlatency⟩
  · refine ⟨⟨?_, fun h => absurd h hbroken.not_isStatusLine⟩, ?_, ?_⟩
    · rintro ⟨sample, hsample⟩
      rw [hread] at hsample
      cases hsample
    · intro sample before after hsample
      rw [hread] at hsample
      cases hsample
    · intro e he
      rw [hread] at he
      cases he
      refine ⟨hbroken, ?_⟩
      cases hbroken <;> rfl
  · refine ⟨⟨fun _ => ⟨before, after, hcut, ⟨t, ht⟩, hfits⟩, fun _ => ⟨_, hread⟩⟩, ?_, ?_⟩
    · intro sample before' after' hsample hcut'
      obtain ⟨-, rfl⟩ := hcut.unique hcut'
      rw [hread] at hsample
      cases hsample
      rcases hlatency with ⟨rfl, habsent⟩ | ⟨hpresent, place, hplace, hpos⟩
      · exact ⟨iff_of_true rfl habsent, fun h => absurd h habsent⟩
      · exact ⟨iff_of_false (ne_noLatency_of_place? hplace hpos) fun h => h hpresent,
          fun _ => not_lt_zero_of_place? hplace hpos⟩
    · intro e he
      rw [hread] at he
      cases he

end StatusLine

end LoadTest

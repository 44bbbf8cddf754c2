import Mathlib.Data.List.TakeWhile
import LoadTest.Proofs.Series.Growth

/-!
# Where a series stops

A series ends with its log unless a status line cannot be read.  Such a line is **rejected**: the
samples before it stay, and neither it nor what follows it has any effect.

* `StatusLine.time?`: the timestamp of a line, which does not depend on the operation asked for.
* `rejection?`: why a line stops a series.  No other line does, whatever it holds.
* `rejected_cases`: a log is readable throughout, or it has a first line that is rejected.
* `extract_of_rejected`: the series up to that line.
* `extract_eq_readable`: so a series is that of the lines before the first rejected one.
-/

namespace LoadTest

/-! ## Timestamps -/

namespace StatusLine

variable {line : String} {operation : Value} {sample : Sample} {e : LineError}

/-- The time that a line names before its marker, if it has one and names one. -/
def time? (line : String) : Option Binary64 :=
  (Text.splitFirst? timeMarker line.toList).bind fun (before, _) => timestamp? (Text.trim before)

/-- The time of a sample is the timestamp of its line. -/
theorem time?_of_read (h : read operation line = .ok sample) : time? line = some sample.time := by
  unfold read at h
  unfold time?
  split at h
  · cases h
  · rename_i before rest hsplit
    rw [hsplit, Option.bind_some]
    split at h
    · cases h
    · rename_i time htime
      refine htime.trans ?_
      split at h
      · cases h
      · split at h
        · cases h
          rfl
        · split at h <;> cases h
          rfl

/-- **What is wrong with a line** is said of that line; it is never the operation, if that has a
name. -/
theorem fault_of_read (h : read operation line = .error e) :
    e.line = line ∧ (operation.toText?.isSome = true → e.fault ≠ .noOperationName) := by
  unfold read at h
  split at h
  · cases h
    exact ⟨rfl, fun _ => by simp⟩
  · split at h
    · cases h
      exact ⟨rfl, fun _ => by simp⟩
    · split at h
      · rename_i hnone
        cases h
        exact ⟨rfl, fun hname => by simp [hnone] at hname⟩
      · split at h
        · cases h
        · split at h <;> cases h
          exact ⟨rfl, fun _ => by simp⟩

end StatusLine

/-- The fault lies in the timestamp: it has no marker or is no integer. -/
def LineFault.isAboutTime : LineFault → Bool
  | noTimeMarker => true
  | badTimestamp _ => true
  | noOperationName => false
  | badLatency _ => false

/-- **A fault in the timestamp** is found whatever operation is asked for. -/
theorem StatusLine.read_of_isAboutTime {line : String} {p : Value} {e : LineError}
    (h : read p line = .error e) (htime : e.fault.isAboutTime = true) (q : Value) :
    read q line = .error e := by
  unfold read at h ⊢
  split at h
  · exact h
  · split at h
    · exact h
    · split at h
      · cases h
        cases htime
      · split at h
        · cases h
        · split at h
          · cases h
            cases htime
          · cases h

namespace Series

variable {o : Options} {line : String} {before lines : List String} {e : LineError}

/-- The timestamp of a status line, where it can be read, is a safe integer. -/
def SafeTime (line : String) : Prop :=
  StatusLine.isThroughput line.toList = true →
    ∀ t, StatusLine.time? line = some t → t.isSafeInteger = true

/-- The check that a timestamp is safe. -/
def safeTime (line : String) : Bool :=
  !StatusLine.isThroughput line.toList || (StatusLine.time? line).all (·.isSafeInteger)

theorem safeTime_iff : safeTime line = true ↔ SafeTime line := by
  unfold safeTime SafeTime
  cases StatusLine.isThroughput line.toList <;> simp [Option.all_eq_true]

instance (line : String) : Decidable (SafeTime line) := decidable_of_iff _ safeTime_iff

/-! ## Rejected lines -/

/-- Why a line stops a series: it is a status line that cannot be read. -/
def rejection? (o : Options) (line : String) : Option LineError :=
  if StatusLine.isThroughput line.toList then
    match StatusLine.read o.operation line with
    | .error e => some e
    | .ok _ => none
  else none

theorem rejection?_eq_some_iff :
    rejection? o line = some e ↔
      StatusLine.isThroughput line.toList = true ∧ StatusLine.read o.operation line = .error e := by
  unfold rejection?
  cases StatusLine.isThroughput line.toList with
  | false => simp
  | true => cases StatusLine.read o.operation line <;> simp

/-- A line that is not rejected and has a safe timestamp is in order. -/
theorem inOrder_of_safeTime (htime : SafeTime line) (h : rejection? o line = none) :
    InOrder o line := by
  intro hthroughput
  rw [rejection?, if_pos hthroughput] at h
  cases hread : StatusLine.read o.operation line with
  | error e =>
    rw [hread] at h
    cases h
  | ok sample =>
    exact ⟨sample, rfl, htime hthroughput _ (StatusLine.time?_of_read hread)⟩

/-- **A log is readable throughout, or it has a first line that is rejected.** -/
theorem rejected_cases (o : Options) (lines : List String) :
    (∀ l ∈ lines, rejection? o l = none) ∨
      ∃ before line rest e, lines = before ++ line :: rest ∧
        (∀ l ∈ before, rejection? o l = none) ∧ rejection? o line = some e := by
  cases hfirst : lines.findSome? (rejection? o) with
  | none => exact .inl (List.findSome?_eq_none_iff.1 hfirst)
  | some e =>
    obtain ⟨before, line, rest, hsplit, hline, hbefore⟩ := List.findSome?_eq_some_iff.1 hfirst
    exact .inr ⟨before, line, rest, e, hsplit, hbefore, hline⟩

/-- **A rejected line stops the series** after the samples of the lines before it, and what comes
after it has no effect. -/
theorem extract_of_rejected (hbefore : ∀ l ∈ before, InOrder o l) (h : rejection? o line = some e)
    (rest : List String) :
    extract o (before ++ line :: rest) = ((extract o before).1, .stopped e) := by
  obtain ⟨hthroughput, hread⟩ := rejection?_eq_some_iff.1 h
  have hfirst := extract_of_inOrder hbefore
  rw [hfirst]
  rw [extract_eq_extractFrom] at hfirst ⊢
  rw [extractFrom_append _ _ _ _ hfirst, extractFrom_unreadable hthroughput hread, List.append_nil]

/-! ## The readable lines of a log -/

/-- The lines before the first one that is rejected. -/
def readable (o : Options) (lines : List String) : List String :=
  lines.takeWhile fun line => (rejection? o line).isNone

/-- How a series ends: with its log, or at the first line that is rejected. -/
def endingOf (o : Options) (lines : List String) : Ending :=
  match lines.findSome? (rejection? o) with
  | none => .complete
  | some e => .stopped e

theorem rejection?_of_mem_readable (h : line ∈ readable o lines) : rejection? o line = none := by
  have := List.mem_takeWhile_imp h
  rwa [Option.isNone_iff_eq_none] at this

theorem readable_isPrefix (o : Options) (lines : List String) : readable o lines <+: lines :=
  List.takeWhile_prefix _

theorem readable_of_forall (h : ∀ l ∈ lines, rejection? o l = none) : readable o lines = lines := by
  refine List.takeWhile_eq_self_iff.2 fun l hl => ?_
  rw [h l hl]
  rfl

theorem readable_of_rejected (hbefore : ∀ l ∈ before, rejection? o l = none)
    (h : rejection? o line = some e) (rest : List String) :
    readable o (before ++ line :: rest) = before := by
  rw [readable, List.takeWhile_append_of_pos, List.takeWhile_cons_of_neg, List.append_nil]
  · rw [h]
    simp
  · intro l hl
    rw [hbefore l hl]
    rfl

theorem endingOf_of_forall (h : ∀ l ∈ lines, rejection? o l = none) :
    endingOf o lines = .complete := by
  rw [endingOf, List.findSome?_eq_none_iff.2 h]

theorem endingOf_of_rejected (hbefore : ∀ l ∈ before, rejection? o l = none)
    (h : rejection? o line = some e) (rest : List String) :
    endingOf o (before ++ line :: rest) = .stopped e := by
  rw [endingOf, List.findSome?_eq_some_iff.2 ⟨before, line, rest, rfl, h, hbefore⟩]

/-- **A series is that of the readable lines** of its log, if its timestamps are safe integers. -/
theorem extract_eq_readable (hlines : ∀ l ∈ lines, SafeTime l) :
    extract o lines = (exactFrom o 0 (readable o lines), endingOf o lines) := by
  rcases rejected_cases o lines with hall | ⟨before, line, rest, e, rfl, hbefore, hline⟩
  · rw [readable_of_forall hall, endingOf_of_forall hall]
    exact extract_of_inOrder fun l hl => inOrder_of_safeTime (hlines l hl) (hall l hl)
  · have horder : ∀ l ∈ before, InOrder o l := fun l hl =>
      inOrder_of_safeTime (hlines l (List.mem_append_left _ hl)) (hbefore l hl)
    rw [readable_of_rejected hbefore hline, endingOf_of_rejected hbefore hline,
      extract_of_rejected horder hline, extract_of_inOrder horder]

end Series

end LoadTest

import LoadTest.Proofs.Files.Frame
import LoadTest.Proofs.Text.Utf8
import LoadTest.Series.Report
/-!
# Reports do not see line ends

A log may come from anywhere, so its lines may end in any of three ways, and not all in the same way.
The lines that a report reads are those that were written, whichever ends they have, and so the
report is the same.

* `readLines_of_readBytes`: the lines of a file are the pieces of its text.
* `readLines_writeText`: the lines of a file that was written line by line.
* `readLines_lineEnds`: reading lines undoes writing them, and a report sees no more than the lines.
-/

namespace LoadTest

open Lines (Written)

namespace Files.Tree

variable {t t' : Tree} {path : String} {bytes : List UInt8}

theorem readLines_eq (h : t.readBytes path = .ok bytes) :
    t.readLines path = .ok ((Lines.ofText (Utf8.decode bytes)).map String.ofList) := by
  rw [readLines, h]
  rfl

/-- **The lines of a file are the pieces of its text**, whatever bytes it holds. -/
theorem readLines_of_readBytes (h : t.readBytes path = .ok bytes) :
    ∃ w : Written, t.readText path = .ok (String.ofList w.text) ∧
      t.readLines path = .ok (w.lines.map String.ofList) := by
  obtain ⟨w, hw⟩ := Lines.exists_written (Utf8.decode bytes)
  refine ⟨w, readText_eq_ok_iff.2 ⟨bytes, h, by rw [hw]⟩, ?_⟩
  rw [readLines_eq h, ← hw, Lines.ofText_text]

/-- **The lines of a file that was written line by line** are those that it was written from. -/
theorem readLines_writeText (w : Written)
    (h : t.writeText path (String.ofList w.text) = .ok t') :
    t'.readLines path = .ok (w.lines.map String.ofList) := by
  rw [readLines_eq (readBytes_writeText h), String.toList_ofList, Utf8.decode_encode,
    Lines.ofText_text]

end Files.Tree

namespace Report

open Files (Tree)

/-- A report sees only the lines of its file. -/
theorem table?_congr {t₁ t₂ : Tree} {path₁ path₂ : String} {lines : List String}
    (h₁ : t₁.readLines path₁ = .ok lines) (h₂ : t₂.readLines path₂ = .ok lines)
    (delta? operation? : Option Value) :
    table? t₁ path₁ delta? operation? = table? t₂ path₂ delta? operation? := by
  rw [table?, table?, h₁, h₂]

/-- **Reading lines undoes writing them, whatever their ends.**

* A file that was written line by line has the lines that it was written from.
* Two files with the same lines get the same report, in text and summary, whichever ends they have.
* A file of any bytes has lines in which no line ends, and they are the pieces of its text. -/
theorem readLines_lineEnds :
    (∀ (t t' : Tree) (path : String) (w : Written),
      t.writeText path (String.ofList w.text) = .ok t' →
        t'.readLines path = .ok (w.lines.map String.ofList)) ∧
    (∀ (t₁ t₁' t₂ t₂' : Tree) (path₁ path₂ : String) (w₁ w₂ : Written),
      t₁.writeText path₁ (String.ofList w₁.text) = .ok t₁' →
        t₂.writeText path₂ (String.ofList w₂.text) = .ok t₂' → w₁.lines = w₂.lines →
          ∀ delta? operation?, (make t₁' path₁ delta? operation?).table
            = (make t₂' path₂ delta? operation?).table) ∧
    ∀ (t : Tree) (path : String) (bytes : List UInt8), t.readBytes path = .ok bytes →
      ∃ w : Written, t.readText path = .ok (String.ofList w.text) ∧
        t.readLines path = .ok (w.lines.map String.ofList) ∧
        ∀ line ∈ w.lines, '\n' ∉ line ∧ '\r' ∉ line := by
  refine ⟨fun _ _ _ w h => Tree.readLines_writeText w h, ?_, ?_⟩
  · intro t₁ t₁' t₂ t₂' path₁ path₂ w₁ w₂ h₁ h₂ hlines delta? operation?
    have hread := Tree.readLines_writeText w₁ h₁
    rw [hlines] at hread
    exact table?_congr hread (Tree.readLines_writeText w₂ h₂) delta? operation?
  · intro t path bytes h
    obtain ⟨w, htext, hlines⟩ := Tree.readLines_of_readBytes h
    refine ⟨w, htext, hlines, fun line hline => ⟨fun hfeed => ?_, fun hreturn => ?_⟩⟩
    · cases w.plain_of_mem_lines hline _ hfeed
    · cases w.plain_of_mem_lines hline _ hreturn

/-- Lines with ends of all kinds: a carriage return before the end of an empty line, and before that
of a line that is not empty, and a last line without an end. -/
def mixedEnds : Written where
  ended := [(['a'], .carriageReturn), ([], .both), ([], .carriageReturn), (['b'], .lineFeed)]
  last := ['c']
  plain_ended := by decide
  plain_last := by decide
  apart := by decide

theorem readLines_mixedEnds :
    ∃ t, Tree.writeText {} "run.log" (String.ofList mixedEnds.text) = .ok t ∧
      t.readLines "run.log" = .ok ["a", "", "", "b", "c"] := by
  have hwrite : ∃ t, Tree.writeText {} "run.log" (String.ofList mixedEnds.text) = .ok t := ⟨_, rfl⟩
  obtain ⟨t, ht⟩ := hwrite
  exact ⟨t, ht, readLines_lineEnds.1 _ t _ _ ht⟩

end Report

end LoadTest

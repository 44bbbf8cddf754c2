import LoadTest.Text.Lines
import Mathlib.Data.List.Chain
import Mathlib.Data.List.TakeWhile
/-!
# Texts written line by line

A text is a run of lines, each with its end, and perhaps a last line without one.  Its lines can be
read off it whichever ends were chosen, since only one choice does not show in the text: a carriage
return and the line feed of an empty line after it are one end together.

* `Plain`: a text in which no line ends; `first?_eq_some_iff` says what the first line is.
* `LineEnd`, `Written`: lines with their ends, well formed by construction, and the text they make.
* `ofText_text`: the lines of such a text are those that it was written from.
* `exists_written`: every text is written so.
-/

namespace LoadTest

namespace Lines

/-- No line ends in the text. -/
def Plain (cs : List Char) : Prop := ∀ c ∈ cs, isEnd c = false

/-- The characters of the text are looked at, and not all characters there are. -/
instance (cs : List Char) : Decidable (Plain cs) := List.decidableBAll _ cs

theorem plain_nil : Plain [] := nofun

theorem plain_cons {c : Char} {cs : List Char} :
    Plain (c :: cs) ↔ isEnd c = false ∧ Plain cs :=
  List.forall_mem_cons

/-- What ends a line. -/
inductive LineEnd
  | lineFeed
  | carriageReturn
  | both
  deriving DecidableEq

namespace LineEnd

def text : LineEnd → List Char
  | lineFeed => ['\n']
  | carriageReturn => ['\r']
  | both => ['\r', '\n']

end LineEnd

/-- A carriage return before the line feed of an empty line would be read as one end. -/
def Merge (l m : List Char × LineEnd) : Prop := l.2 = .carriageReturn ∧ m = ([], .lineFeed)

instance (l m : List Char × LineEnd) : Decidable (Merge l m) := inferInstanceAs (Decidable (_ ∧ _))

/-- Lines as they are written: those with their ends, and what stands after the last end, which is a
line if it is not empty. -/
structure Written where
  ended : List (List Char × LineEnd)
  last : List Char
  plain_ended : ∀ l ∈ ended, Plain l.1
  plain_last : Plain last
  apart : ended.IsChain fun l m => ¬ Merge l m

/-- Lines with their ends one after the other, and a text after them. -/
def joined (ended : List (List Char × LineEnd)) (last : List Char) : List Char :=
  (ended.flatMap fun l => l.1 ++ l.2.text) ++ last

theorem joined_cons (l : List Char × LineEnd) (ended : List (List Char × LineEnd))
    (last : List Char) : joined (l :: ended) last = l.1 ++ (l.2.text ++ joined ended last) := by
  rw [joined, List.flatMap_cons, List.append_assoc, List.append_assoc]
  rfl

namespace Written

/-- The text of the lines. -/
def text (w : Written) : List Char := joined w.ended w.last

/-- The lines without their ends. -/
def lines (w : Written) : List (List Char) :=
  w.ended.map Prod.fst ++ (if w.last = [] then [] else [w.last])

theorem plain_of_mem_lines (w : Written) {line : List Char} (h : line ∈ w.lines) : Plain line := by
  rcases List.mem_append.1 h with h | h
  · obtain ⟨l, hl, rfl⟩ := List.mem_map.1 h
    exact w.plain_ended l hl
  · split at h
    · cases h
    · rw [List.mem_singleton.1 h]
      exact w.plain_last

end Written

/-! ## Before the first end -/

/-- What comes before the first item of a kind, if there is one. -/
theorem any_takeWhile_iff {α : Type} {p : α → Bool} {xs line : List α} :
    (xs.any p = true ∧ xs.takeWhile (fun x => !p x) = line) ↔
      ∃ e rest, xs = line ++ e :: rest ∧ p e = true ∧ ∀ x ∈ line, p x = false := by
  constructor
  · rintro ⟨hany, rfl⟩
    have hline : ∀ x ∈ xs.takeWhile fun x => !p x, p x = false := by
      intro x hx
      simpa using List.mem_takeWhile_imp hx
    have hcut := List.takeWhile_append_dropWhile (p := fun x => !p x) (l := xs)
    cases hrest : xs.dropWhile fun x => !p x with
    | nil =>
      rw [hrest, List.append_nil] at hcut
      obtain ⟨e, he, hend⟩ := List.any_eq_true.1 hany
      rw [hline e (by rwa [hcut])] at hend
      cases hend
    | cons e rest =>
      refine ⟨e, rest, (hrest ▸ hcut).symm, ?_, hline⟩
      have hhead := List.head?_dropWhile_not (fun x => !p x) xs
      simpa [hrest] using hhead
  · rintro ⟨e, rest, rfl, he, hline⟩
    refine ⟨List.any_eq_true.2 ⟨e, by simp, he⟩, ?_⟩
    rw [List.takeWhile_append_of_pos (by simpa using hline),
      List.takeWhile_cons_of_neg (by simp [he]), List.append_nil]

variable {c : Char} {cs line : List Char} {done : List (List Char)}

/-- The first line of a text is what is before its first end of a line. -/
theorem first?_eq_some_iff : first? cs = some line ↔
    ∃ e rest, cs = line ++ e :: rest ∧ isEnd e = true ∧ ∀ c ∈ line, isEnd c = false := by
  rw [← any_takeWhile_iff, first?]
  split <;> simp [*]

theorem first?_eq_none_iff : first? cs = none ↔ Plain cs := by
  rw [first?]
  split
  · rename_i hany
    obtain ⟨e, he, hend⟩ := List.any_eq_true.1 hany
    refine iff_of_false nofun fun hplain => ?_
    rw [hplain e he] at hend
    cases hend
  · rename_i hany
    refine iff_of_true rfl fun c hc => ?_
    rw [Bool.eq_false_iff]
    exact fun hend => hany (List.any_eq_true.2 ⟨c, hc, hend⟩)

/-- The first line stays what it is when more text comes in. -/
theorem first?_append_of_some (h : first? cs = some line) (more : List Char) :
    first? (cs ++ more) = some line := by
  obtain ⟨e, rest, rfl, hend, hline⟩ := first?_eq_some_iff.1 h
  refine first?_eq_some_iff.2 ⟨e, rest ++ more, ?_, hend, hline⟩
  rw [List.append_assoc, List.cons_append]

/-! ## Cutting -/

theorem split_of_plain (h : isEnd c = false) :
    split done line (c :: cs) = split done (c :: line) cs := by
  have hreturn : c ≠ '\r' := by
    rintro rfl
    cases h
  rw [split, if_neg (by simp [h])]
  rintro cs' rfl
  exact absurd rfl hreturn

theorem split_plain {l : List Char} (h : Plain l) (cs : List Char) :
    split done line (l ++ cs) = split done (l.reverse ++ line) cs := by
  induction l generalizing line with
  | nil => rfl
  | cons c l ih =>
    obtain ⟨hc, hl⟩ := plain_cons.1 h
    rw [List.cons_append, split_of_plain hc, ih hl, List.reverse_cons, List.append_assoc,
      List.singleton_append]

/-- **An end closes the line under way**, unless it is a carriage return with a line feed after it. -/
theorem split_lineEnd (e : LineEnd) (h : e = .carriageReturn → ∀ c ∈ cs.head?, c ≠ '\n') :
    split done line (e.text ++ cs) = split (line.reverse :: done) [] cs := by
  cases e with
  | lineFeed =>
    show split done line ('\n' :: cs) = _
    rw [split, if_pos (by decide)]
    nofun
  | both =>
    show split done line ('\r' :: '\n' :: cs) = _
    rw [split]
  | carriageReturn =>
    show split done line ('\r' :: cs) = _
    rw [split, if_pos (by decide)]
    rintro cs' - rfl
    exact h rfl _ rfl rfl

/-! ## Reading what was written -/

/-- A text of lines starts with a line feed only if its first line is empty and ends at one. -/
theorem head?_joined {ended : List (List Char × LineEnd)} {last : List Char}
    (hended : ∀ l ∈ ended, Plain l.1) (hlast : Plain last)
    (h : ∀ m ∈ ended.head?, m ≠ ([], .lineFeed)) : ∀ c ∈ (joined ended last).head?, c ≠ '\n' := by
  have hplain : ∀ cs : List Char, Plain cs → ∀ c ∈ cs.head?, c ≠ '\n' := by
    rintro cs hcs c hc rfl
    cases hcs _ (List.mem_of_mem_head? hc)
  cases ended with
  | nil => exact hplain last hlast
  | cons m ended =>
    obtain ⟨cs, e⟩ := m
    rw [joined_cons]
    cases cs with
    | nil =>
      cases e with
      | lineFeed => exact absurd rfl (h _ rfl)
      | carriageReturn => simp [LineEnd.text]
      | both => simp [LineEnd.text]
    | cons c cs => exact hplain (c :: cs) (hended _ List.mem_cons_self)

/-- **Cutting undoes joining.** -/
theorem split_joined {last : List Char} (hlast : Plain last) :
    ∀ (ended : List (List Char × LineEnd)) (done : List (List Char)), (∀ l ∈ ended, Plain l.1) →
      ended.IsChain (fun l m => ¬ Merge l m) →
      split done [] (joined ended last)
        = done.reverse ++ (ended.map Prod.fst ++ (if last = [] then [] else [last])) := by
  intro ended
  induction ended with
  | nil =>
    intro done _ _
    show split done [] last = _
    have hcut : split done [] (last ++ []) = split done (last.reverse ++ []) [] :=
      split_plain hlast []
    rw [List.append_nil, List.append_nil] at hcut
    rw [hcut, split]
    by_cases h : last = []
    · simp [h]
    · simp [h]
  | cons l ended ih =>
    intro done hended hapart
    obtain ⟨hl, hrest⟩ := List.forall_mem_cons.1 hended
    obtain ⟨hnext, hchain⟩ := List.isChain_cons.1 hapart
    have hhead : l.2 = .carriageReturn → ∀ c ∈ (joined ended last).head?, c ≠ '\n' :=
      fun hreturn => head?_joined hrest hlast fun m hm hempty => hnext m hm ⟨hreturn, hempty⟩
    rw [joined_cons, split_plain hl, split_lineEnd _ hhead, ih _ hrest hchain]
    simp

/-- **The lines of a text that was written line by line** are those that it was written from,
whichever ends were chosen. -/
theorem ofText_text (w : Written) : ofText w.text = w.lines := by
  rw [ofText, Written.text, split_joined w.plain_last w.ended [] w.plain_ended w.apart]
  rfl

/-! ## Every text is written so -/

/-- A character that ends no line, in front of a text. -/
theorem exists_written_cons (h : isEnd c = false) (w : Written) :
    ∃ w' : Written, w'.text = c :: w.text := by
  obtain ⟨ended, last, hended, hlast, hapart⟩ := w
  cases ended with
  | nil => exact ⟨⟨[], c :: last, nofun, plain_cons.2 ⟨h, hlast⟩, .nil⟩, rfl⟩
  | cons l ended =>
    obtain ⟨hl, hrest⟩ := List.forall_mem_cons.1 hended
    obtain ⟨hnext, hchain⟩ := List.isChain_cons.1 hapart
    exact ⟨⟨(c :: l.1, l.2) :: ended, last, List.forall_mem_cons.2 ⟨plain_cons.2 ⟨h, hl⟩, hrest⟩,
      hlast, List.isChain_cons.2 ⟨hnext, hchain⟩⟩, rfl⟩

/-- An empty line that ends at a line feed, in front of a text. -/
theorem exists_written_lineFeed (w : Written) : ∃ w' : Written, w'.text = '\n' :: w.text :=
  ⟨⟨([], .lineFeed) :: w.ended, w.last, List.forall_mem_cons.2 ⟨plain_nil, w.plain_ended⟩,
    w.plain_last, List.isChain_cons.2 ⟨fun _ _ hmerge => absurd hmerge.1 nofun, w.apart⟩⟩, rfl⟩

/-- A carriage return in front of a text ends an empty line, together with the line feed after it if
there is one. -/
theorem exists_written_carriageReturn (w : Written) :
    ∃ w' : Written, w'.text = '\r' :: w.text := by
  by_cases h : ([], LineEnd.lineFeed) ∈ w.ended.head?
  · obtain ⟨ended, last, hended, hlast, hapart⟩ := w
    cases ended with
    | nil => cases h
    | cons l ended =>
      obtain rfl : l = ([], .lineFeed) := Option.some.inj h
      obtain ⟨-, hrest⟩ := List.forall_mem_cons.1 hended
      exact ⟨⟨([], .both) :: ended, last, List.forall_mem_cons.2 ⟨plain_nil, hrest⟩, hlast,
        List.isChain_cons.2 ⟨fun _ _ hmerge => absurd hmerge.1 nofun, hapart.tail⟩⟩, rfl⟩
  · refine ⟨⟨([], .carriageReturn) :: w.ended, w.last,
      List.forall_mem_cons.2 ⟨plain_nil, w.plain_ended⟩, w.plain_last,
      List.isChain_cons.2 ⟨?_, w.apart⟩⟩, rfl⟩
    rintro m hm ⟨-, rfl⟩
    exact h hm

/-- **Every text is written line by line.** -/
theorem exists_written (cs : List Char) : ∃ w : Written, w.text = cs := by
  induction cs with
  | nil => exact ⟨⟨[], [], nofun, plain_nil, .nil⟩, rfl⟩
  | cons c cs ih =>
    obtain ⟨w, rfl⟩ := ih
    by_cases hfeed : c = '\n'
    · exact hfeed ▸ exists_written_lineFeed w
    · by_cases hreturn : c = '\r'
      · exact hreturn ▸ exists_written_carriageReturn w
      · exact exists_written_cons (by simp [isEnd, hfeed, hreturn]) w

end Lines

end LoadTest

import LoadTest.Confirmation
import LoadTest.Proofs.Text.Utf8
/-!
# The first line of the console

The operator's answer is the first line that comes in.  It does not matter in which pieces the bytes
come, not even if a piece ends within a character or between the two halves of a line end, and what
comes after the first line end does not matter either.

* `firstLine?`: the first line of some bytes, before they are read as text.
* `receive_read`, `foldl_receive`: a piece takes the question on as its bytes do, and so do all.
* `confirms?_of_settles`: so the answer is that to the first line of all bytes together.
* `confirms?_firstLine`: what confirms, and which inputs get the same answer.
-/

namespace LoadTest

open Lines (Plain first?)

/-! ## The first line of bytes -/

namespace Utf8

/-- The bytes before the first line end, if there is one. -/
def firstLine? (bytes : List UInt8) : Option (List UInt8) :=
  if bytes.any isEndByte then some (bytes.takeWhile fun b => !isEndByte b) else none

variable {bytes line : List UInt8}

theorem firstLine?_eq_some_iff : firstLine? bytes = some line ↔
    ∃ e rest, bytes = line ++ e :: rest ∧ isEndByte e = true ∧ ∀ b ∈ line, isEndByte b = false := by
  rw [← Lines.any_takeWhile_iff, firstLine?]
  split <;> simp [*]

theorem firstLine?_eq_none_iff : firstLine? bytes = none ↔ ∀ b ∈ bytes, isEndByte b = false := by
  rw [firstLine?]
  split <;> simp_all

theorem toNat_lt_of_isEndByte {b : UInt8} (h : isEndByte b = true) : b.toNat < 0x80 := by
  rcases isEndByte_iff.1 h with h | h <;> omega

/-- **The first line of a text** is read from the bytes before the first line end. -/
theorem first?_decode (bytes : List UInt8) :
    first? (decode bytes) = (firstLine? bytes).map decode := by
  cases h : firstLine? bytes with
  | none => exact Lines.first?_eq_none_iff.2 (plain_decode (firstLine?_eq_none_iff.1 h))
  | some line =>
    obtain ⟨e, rest, rfl, hend, hline⟩ := firstLine?_eq_some_iff.1 h
    have hlt := toNat_lt_of_isEndByte hend
    refine Lines.first?_eq_some_iff.2 ⟨_, _, decode_append_cons line rest hlt, ?_, plain_decode hline⟩
    rw [isEnd_ofNat_toNat hlt, hend]

end Utf8

namespace Inquiry

open Utf8

/-! ## Pieces -/

/-- **A piece takes the question on as its bytes do**, also if it is settled already: the line that
settled it stays the first one. -/
theorem receive_read (reader : State) (piece : List UInt8) :
    (read reader).receive piece = read (piece.foldl step reader) := by
  cases h : first? reader.done.reverse with
  | none => simp only [read, h, receive]
  | some line =>
    have hmore : (piece.foldl step reader).done.reverse
        = reader.done.reverse ++ (piece.foldl step ⟨[], reader.pending⟩).done.reverse := by
      rw [← List.reverse_append]
      exact congrArg (fun s : State => s.done.reverse) (foldl_step_eq piece reader.done reader.pending)
    have hstays := Lines.first?_append_of_some h (piece.foldl step ⟨[], reader.pending⟩).done.reverse
    rw [← hmore] at hstays
    simp only [read, h, hstays, receive]

/-- **The pieces take the question on as all their bytes do.** -/
theorem foldl_receive (pieces : List (List UInt8)) (reader : State) :
    pieces.foldl receive (read reader) = read (pieces.flatten.foldl step reader) := by
  induction pieces generalizing reader with
  | nil => rfl
  | cons piece pieces ih =>
    rw [List.foldl_cons, receive_read, ih, List.flatten_cons, List.foldl_append]

/-- A character that is still under way has no part in the first line. -/
theorem first?_text (reader : State) : first? reader.text = first? reader.done.reverse := by
  obtain ⟨done, pending⟩ := reader
  cases pending with
  | none => rfl
  | some p =>
    rw [State.text, List.reverse_cons]
    cases h : first? done.reverse with
    | some line => exact Lines.first?_append_of_some h _
    | none =>
      have hplain := Lines.first?_eq_none_iff.1 h
      refine Lines.first?_eq_none_iff.2 fun c hc => ?_
      rcases List.mem_append.1 hc with hc | hc
      · exact hplain c hc
      · rw [List.mem_singleton.1 hc]
        exact isEnd_replacement

theorem read_foldl_step (bytes : List UInt8) :
    read (bytes.foldl step ⟨[], none⟩)
      = match (firstLine? bytes).map decode with
        | some line => answered line
        | none => waiting (bytes.foldl step ⟨[], none⟩) := by
  rw [← first?_decode, decode, first?_text]
  rfl

end Inquiry

namespace Arrival

open Utf8

/-- All bytes that come in. -/
def bytes (a : Arrival) : List UInt8 := a.pieces.flatten

/-- The question is settled: a line end comes in, or the input ends. -/
def Settles (a : Arrival) : Prop := (∃ b ∈ a.bytes, isEndByte b = true) ∨ a.ends = true

/-! ## The answer -/

theorem inquiry_eq (a : Arrival) : a.inquiry =
    match (firstLine? a.bytes).map decode with
    | some line => .answered line
    | none => if a.ends then .closed else .waiting (a.bytes.foldl step ⟨[], none⟩) := by
  have hall : a.pieces.foldl Inquiry.receive .put = .read (a.bytes.foldl step ⟨[], none⟩) :=
    Inquiry.foldl_receive a.pieces ⟨[], none⟩
  rw [inquiry, hall, Inquiry.read_foldl_step]
  cases (firstLine? a.bytes).map decode with
  | none => cases a.ends <;> rfl
  | some line => cases a.ends <;> rfl

/-- The answer to a first line, if there is one. -/
def answerTo (isTerminal requiresTerminal : Bool) (line? : Option (List UInt8)) : Bool :=
  (isTerminal || !requiresTerminal) &&
    line?.any fun line => Console.isConfirming (decode line)

/-- **The answer is that to the first line of all bytes together**, once the question is settled. -/
theorem confirms?_of_settles {a : Arrival} (h : a.Settles) (isTerminal requiresTerminal : Bool) :
    a.confirms? isTerminal requiresTerminal
      = some (answerTo isTerminal requiresTerminal (firstLine? a.bytes)) := by
  rw [confirms?, Console.asks, answerTo]
  cases isTerminal || !requiresTerminal with
  | false => rfl
  | true =>
    rw [inquiry_eq]
    cases hline : firstLine? a.bytes with
    | some line => rfl
    | none =>
      rcases h with ⟨b, hb, hend⟩ | hends
      · rw [firstLine?_eq_none_iff.1 hline b hb] at hend
        cases hend
      · rw [hends]
        rfl

theorem confirms_eq_answerTo (input : List UInt8) (isTerminal requiresTerminal : Bool) :
    Console.confirms
        { input := input, isTerminal := isTerminal, requiresTerminal := requiresTerminal }
      = answerTo isTerminal requiresTerminal (firstLine? input) := by
  rw [Console.confirms, Console.asks, first?_decode, answerTo]
  cases firstLine? input <;> rfl

theorem answerTo_eq_true_iff {isTerminal requiresTerminal : Bool} {bytes : List UInt8} :
    answerTo isTerminal requiresTerminal (firstLine? bytes) = true ↔
      (requiresTerminal = false ∨ isTerminal = true) ∧
        ∃ line e rest, bytes = line ++ e :: rest ∧ isEndByte e = true ∧
          (∀ b ∈ line, isEndByte b = false) ∧
          (Text.trim (decode line)).map Char.toLower ∈ ["".toList, "y".toList, "yes".toList] := by
  rw [answerTo, Bool.and_eq_true, Bool.or_eq_true, Bool.not_eq_true', or_comm, Option.any_eq_true]
  refine and_congr_right fun _ => ?_
  constructor
  · rintro ⟨line, hline, hconfirming⟩
    obtain ⟨e, rest, hcut, hend, hplain⟩ := firstLine?_eq_some_iff.1 hline
    exact ⟨line, e, rest, hcut, hend, hplain, List.contains_iff_mem.1 hconfirming⟩
  · rintro ⟨line, e, rest, hcut, hend, hplain, hmem⟩
    exact ⟨line, firstLine?_eq_some_iff.2 ⟨e, rest, hcut, hend, hplain⟩,
      List.contains_iff_mem.2 hmem⟩

/-- **The answer depends on the first line alone.**  Once the question is settled there is an answer.

* It is yes if the input may be asked for one and its first line, read as text, is empty, `y` or
  `yes`, blanks around it and the case of its letters aside.
* Other input with the same first line gets the same answer, in whatever pieces it comes and
  whatever follows.
* Input without a line end gets no.
* It is the answer to all bytes at once. -/
theorem confirms?_firstLine (a : Arrival) (isTerminal requiresTerminal : Bool) (h : a.Settles) :
    ∃ answer, a.confirms? isTerminal requiresTerminal = some answer ∧
      (answer = true ↔ (requiresTerminal = false ∨ isTerminal = true) ∧
        ∃ line e rest, a.bytes = line ++ e :: rest ∧ isEndByte e = true ∧
          (∀ b ∈ line, isEndByte b = false) ∧
          (Text.trim (decode line)).map Char.toLower ∈ ["".toList, "y".toList, "yes".toList]) ∧
      (∀ a' : Arrival, a'.Settles → firstLine? a'.bytes = firstLine? a.bytes →
        a'.confirms? isTerminal requiresTerminal = some answer) ∧
      ((∀ b ∈ a.bytes, isEndByte b = false) → answer = false) ∧
      answer = Console.confirms
        { input := a.bytes, isTerminal := isTerminal, requiresTerminal := requiresTerminal } := by
  refine ⟨_, confirms?_of_settles h isTerminal requiresTerminal, answerTo_eq_true_iff, ?_, ?_, ?_⟩
  · intro a' h' hsame
    rw [confirms?_of_settles h', hsame]
  · intro hplain
    rw [firstLine?_eq_none_iff.2 hplain, answerTo, Option.any_none, Bool.and_false]
  · rw [confirms_eq_answerTo]

/-- A wide blank and `y`, cut within the blank and within the line end, with more after it. -/
def cutAnswer : Arrival :=
  { pieces := [[0xE3, 0x80], [0x80, 0x79], [0x0D], [0x0A, 0x6E]], ends := false }

/-- The same bytes in one piece get the same answer. -/
theorem confirms?_cutAnswer :
    cutAnswer.Settles ∧ cutAnswer.confirms? false false = some true ∧
      Arrival.confirms? { pieces := [cutAnswer.bytes], ends := true } false false = some true := by
  have hsettles : cutAnswer.Settles := .inl ⟨0x0D, by decide, by decide⟩
  have hyes : cutAnswer.confirms? false false = some true := by decide +kernel
  obtain ⟨answer, hanswer, -, hsame, -⟩ := confirms?_firstLine cutAnswer false false hsettles
  rw [hyes] at hanswer
  cases hanswer
  exact ⟨hsettles, hyes, hsame _ (.inr rfl) (by decide)⟩

end Arrival

end LoadTest

import LoadTest.Binary64.Text
import LoadTest.Text.Lines
import LoadTest.Text.Utf8
/-!
# Confirmation

The operator is asked on the console before files are written, and answers with the first line that
comes in.  An empty line, `y` and `yes` confirm.  Input that ends within its first line is no
answer, and where a terminal is required nothing else is asked at all.

The input comes in piece by piece, and a piece may end anywhere, also within a character.  The
question is settled by the first line end or by the end of the input, whichever comes first.
-/

namespace LoadTest

/-- The console: the bytes that come in, whether they come from a terminal, and whether they have
to. -/
structure Console where
  input : List UInt8 := []
  isTerminal : Bool := false
  requiresTerminal : Bool := true

namespace Console

/-- The question is put. -/
def asks (c : Console) : Bool := c.isTerminal || !c.requiresTerminal

/-- The wording of the question about a number of files. -/
def prompt (count : String) : String :=
  "there will be " ++ count
    ++ " config files generated, press enter to continue [Y/n] "

/-- What is shown to the operator. -/
def shown (c : Console) (count : String) : String :=
  if c.asks then prompt count else ""

/-- The answers that confirm. -/
def confirming : List (List Char) := ["".toList, "y".toList, "yes".toList]

/-- An answer confirms, blanks around it and the case of its letters aside. -/
def isConfirming (answer : List Char) : Bool :=
  confirming.contains ((Text.trim answer).map Char.toLower)

/-- The operator confirms. -/
def confirms (c : Console) : Bool :=
  c.asks &&
    match Lines.first? (Utf8.decode c.input) with
    | some line => isConfirming line
    | none => false

end Console

/-! ## Input in pieces -/

/-- A question that was put to the operator. -/
inductive Inquiry
  /-- No line has ended yet; the reader holds what came in so far. -/
  | waiting (reader : Utf8.State)
  | answered (line : List Char)
  /-- The input ended within its first line. -/
  | closed

namespace Inquiry

/-- The question before anything comes in. -/
def put : Inquiry := waiting ⟨[], none⟩

/-- The question once the reader has come so far. -/
def read (reader : Utf8.State) : Inquiry :=
  match Lines.first? reader.done.reverse with
  | some line => answered line
  | none => waiting reader

/-- A piece of input comes in.  Once the question is settled, nothing is read any more. -/
def receive (q : Inquiry) (piece : List UInt8) : Inquiry :=
  match q with
  | waiting reader => read (piece.foldl Utf8.step reader)
  | answered line => answered line
  | closed => closed

/-- The input ends. -/
def endInput : Inquiry → Inquiry
  | waiting _ => closed
  | answered line => answered line
  | closed => closed

/-- Whether the operator confirms, once the question is settled. -/
def confirms? : Inquiry → Option Bool
  | waiting _ => none
  | answered line => some (Console.isConfirming line)
  | closed => some false

end Inquiry

/-- Input as it comes in: its pieces, and whether it ends after them. -/
structure Arrival where
  pieces : List (List UInt8)
  ends : Bool

namespace Arrival

/-- The question after the input came in. -/
def inquiry (a : Arrival) : Inquiry :=
  let q := a.pieces.foldl Inquiry.receive .put
  if a.ends then q.endInput else q

/-- Whether the operator confirms on a console; `none` as long as a line is waited for. -/
def confirms? (a : Arrival) (isTerminal requiresTerminal : Bool) : Option Bool :=
  if Console.asks { isTerminal := isTerminal, requiresTerminal := requiresTerminal } then
    a.inquiry.confirms?
  else some false

end Arrival

end LoadTest

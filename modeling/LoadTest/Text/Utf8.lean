import LoadTest.Text.Units
/-!
# UTF-8

Text is written as UTF-8.  Reading accepts any bytes: where they are no UTF-8, each longest run of
bytes that could have begun a character is read as one replacement character, and each byte that
could not begin one as another.
-/

namespace LoadTest

namespace Utf8

/-- The bytes of a text. -/
def encode (cs : List Char) : List UInt8 := cs.flatMap String.utf8EncodeChar

/-- A character whose first bytes were read: its value so far, the number of bytes it still owes,
and the least and the greatest byte that may come next. -/
structure Pending where
  value : Nat
  owed : Nat
  least : Nat
  greatest : Nat

/-- What was read so far: the characters, last first, and the character that is under way. -/
structure State where
  done : List Char
  pending : Option Pending

/-- A byte between characters. -/
def first (done : List Char) (b : Nat) : State :=
  if b ≤ 0x7F then ⟨Char.ofNat b :: done, none⟩
  else if 0xC2 ≤ b ∧ b ≤ 0xDF then ⟨done, some ⟨b % 0x20, 1, 0x80, 0xBF⟩⟩
  else if 0xE0 ≤ b ∧ b ≤ 0xEF then
    ⟨done, some ⟨b % 0x10, 2, if b = 0xE0 then 0xA0 else 0x80, if b = 0xED then 0x9F else 0xBF⟩⟩
  else if 0xF0 ≤ b ∧ b ≤ 0xF4 then
    ⟨done, some ⟨b % 0x08, 3, if b = 0xF0 then 0x90 else 0x80, if b = 0xF4 then 0x8F else 0xBF⟩⟩
  else ⟨Text.replacement :: done, none⟩

/-- One byte.  A byte that cannot continue the character under way closes it and is read anew. -/
def step (s : State) (byte : UInt8) : State :=
  let b := byte.toNat
  match s.pending with
  | none => first s.done b
  | some p =>
    if p.least ≤ b ∧ b ≤ p.greatest then
      let value := p.value * 0x40 + b % 0x40
      if p.owed ≤ 1 then ⟨Char.ofNat value :: s.done, none⟩
      else ⟨s.done, some ⟨value, p.owed - 1, 0x80, 0xBF⟩⟩
    else first (Text.replacement :: s.done) b

/-- The text read so far, a character under way being replaced. -/
def State.text (s : State) : List Char :=
  match s.pending with
  | none => s.done.reverse
  | some _ => (Text.replacement :: s.done).reverse

/-- The text that some bytes are read as. -/
def decode (bytes : List UInt8) : List Char := (bytes.foldl step ⟨[], none⟩).text

end Utf8

end LoadTest

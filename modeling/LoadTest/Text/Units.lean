/-!
# Units of sixteen bits

Offsets and lengths of a text are counted in units of sixteen bits, of which a character beyond
`U+FFFF` takes two, a high and a low half.  A single unit of a text can be asked for; the halves of
a character join again when they come to stand side by side, and a half that stays alone is written
as the replacement character.
-/

namespace LoadTest

namespace Text

/-- The character that stands for what cannot be written. -/
def replacement : Char := '\uFFFD'

/-- The number of units of a character. -/
def unitCount (c : Char) : Nat := if c.toNat < 0x10000 then 1 else 2

/-- The number of units of a text. -/
def units (cs : List Char) : Nat := cs.foldl (fun n c => n + unitCount c) 0

/-- A unit of a text: a character of one unit, or half of a character of two. -/
inductive Fragment
  | char (c : Char)
  | high (bits : Nat)
  | low (bits : Nat)
  deriving DecidableEq

/-- The units of a character.  One of two units gives its upper ten bits, then its lower ten. -/
def fragmentsOf (c : Char) : List Fragment :=
  if c.toNat < 0x10000 then [.char c]
  else [.high ((c.toNat - 0x10000) / 0x400), .low (c.toNat % 0x400)]

/-- The units of a text, in order. -/
def fragments (cs : List Char) : List Fragment := cs.flatMap fragmentsOf

/-- Writes a run of fragments after `done`, which holds what was written already, last first. -/
def joinFrom (done : List Char) : List Fragment → List Char
  | [] => done.reverse
  | .char c :: rest => joinFrom (c :: done) rest
  | .high h :: .low l :: rest => joinFrom (Char.ofNat (0x10000 + h * 0x400 + l) :: done) rest
  | .high _ :: rest => joinFrom (replacement :: done) rest
  | .low _ :: rest => joinFrom (replacement :: done) rest

/-- Writes a run of fragments: a high half followed by a low half is one character, and any other
half is replaced. -/
def join (fragments : List Fragment) : List Char := joinFrom [] fragments

end Text

end LoadTest

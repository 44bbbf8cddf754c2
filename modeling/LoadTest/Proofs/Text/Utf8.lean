import LoadTest.Proofs.Text.Lines
import LoadTest.Text.Utf8
/-!
# Reading what was written as UTF-8

Text survives being written as bytes and read again, and a line end stands out among bytes of any
kind: it is one byte, no other character has that byte in it, and it closes whatever character was
under way before it.

* `decode_encode`: a text that is written is read as it was.
* `Pending.Sound`: what is known of a character under way; every run of the reader keeps it.
* `decode_append_cons`: what is read before and after a byte below `0x80` does not depend on it.
* `plain_decode`: no line end is read that is not among the bytes.
-/

namespace LoadTest

namespace Utf8

open Lines (Plain plain_cons)

variable {done : List Char} {b : Nat} {s : State}

/-! ## One byte -/

theorem first_of_one (h : b ≤ 0x7F) : first done b = ⟨Char.ofNat b :: done, none⟩ := if_pos h

theorem first_of_two (h : 0xC2 ≤ b ∧ b ≤ 0xDF) :
    first done b = ⟨done, some ⟨b % 0x20, 1, 0x80, 0xBF⟩⟩ := by
  rw [first, if_neg (by omega), if_pos h]

theorem first_of_three (h : 0xE0 ≤ b ∧ b ≤ 0xEF) :
    first done b = ⟨done, some ⟨b % 0x10, 2, if b = 0xE0 then 0xA0 else 0x80,
      if b = 0xED then 0x9F else 0xBF⟩⟩ := by
  rw [first, if_neg (by omega), if_neg (by omega), if_pos h]

theorem first_of_four (h : 0xF0 ≤ b ∧ b ≤ 0xF4) :
    first done b = ⟨done, some ⟨b % 0x08, 3, if b = 0xF0 then 0x90 else 0x80,
      if b = 0xF4 then 0x8F else 0xBF⟩⟩ := by
  rw [first, if_neg (by omega), if_neg (by omega), if_neg (by omega), if_pos h]

theorem step_first (hb : b < 256) : step ⟨done, none⟩ (UInt8.ofNat b) = first done b := by
  rw [step, UInt8.toNat_ofNat_of_lt' hb]

theorem step_last {value least greatest : Nat} (hb : b < 256) (h : least ≤ b ∧ b ≤ greatest) :
    step ⟨done, some ⟨value, 1, least, greatest⟩⟩ (UInt8.ofNat b)
      = ⟨Char.ofNat (value * 0x40 + b % 0x40) :: done, none⟩ := by
  simp only [step, UInt8.toNat_ofNat_of_lt' hb, if_pos h, Nat.le_refl, if_true]

theorem step_more {value owed least greatest : Nat} (hb : b < 256)
    (h : least ≤ b ∧ b ≤ greatest) :
    step ⟨done, some ⟨value, owed + 2, least, greatest⟩⟩ (UInt8.ofNat b)
      = ⟨done, some ⟨value * 0x40 + b % 0x40, owed + 1, 0x80, 0xBF⟩⟩ := by
  have howed : ¬ owed + 2 ≤ 1 := by omega
  simp only [step, UInt8.toNat_ofNat_of_lt' hb, if_pos h, if_neg howed, Nat.add_succ_sub_one]

/-! ## One character -/

theorem eq_of_toNat_eq {c : Char} {n : Nat} (h : c.toNat = n) : Char.ofNat n = c := by
  rw [← h, Char.ofNat_toNat]

/-- **The bytes of a character are read as that character.** -/
theorem foldl_utf8EncodeChar (done : List Char) (c : Char) :
    (String.utf8EncodeChar c).foldl step ⟨done, none⟩ = ⟨c :: done, none⟩ := by
  have hvalid : c.toNat < 0xD800 ∨ 0xDFFF < c.toNat ∧ c.toNat < 0x110000 := c.valid
  have hval : c.val.toNat = c.toNat := rfl
  simp only [String.utf8EncodeChar, hval]
  -- by the number of bytes: one, two, three or four
  split
  · rw [List.foldl_cons, step_first (by omega), first_of_one (by omega), Char.ofNat_toNat]
    rfl
  · split
    · rw [List.foldl_cons, step_first (by omega), first_of_two (by omega), List.foldl_cons,
        step_last (by omega) (by omega), eq_of_toNat_eq (c := c) (by omega)]
      rfl
    · split
      · rw [List.foldl_cons, step_first (by omega), first_of_three (by omega), List.foldl_cons,
          step_more (by omega) (by split <;> split <;> omega), List.foldl_cons,
          step_last (by omega) (by omega), eq_of_toNat_eq (c := c) (by omega)]
        rfl
      · rw [List.foldl_cons, step_first (by omega), first_of_four (by omega), List.foldl_cons,
          step_more (by omega) (by split <;> split <;> omega), List.foldl_cons,
          step_more (by omega) (by omega), List.foldl_cons,
          step_last (by omega) (by omega), eq_of_toNat_eq (c := c) (by omega)]
        rfl

theorem foldl_encode (done cs : List Char) :
    (encode cs).foldl step ⟨done, none⟩ = ⟨cs.reverse ++ done, none⟩ := by
  induction cs generalizing done with
  | nil => rfl
  | cons c cs ih =>
    rw [encode, List.flatMap_cons, List.foldl_append, foldl_utf8EncodeChar, ← encode, ih,
      List.reverse_cons, List.append_assoc, List.singleton_append]

/-- **A text that is written is read as it was.** -/
theorem decode_encode (cs : List Char) : decode (encode cs) = cs := by
  rw [decode, foldl_encode, State.text, List.append_nil, List.reverse_reverse]

/-! ## What was read before -/

theorem first_eq (done : List Char) (b : Nat) :
    first done b = ⟨(first [] b).done ++ done, (first [] b).pending⟩ := by
  simp only [first]
  split
  · rfl
  · split
    · rfl
    · split
      · rfl
      · split <;> rfl

theorem first_replaced (done : List Char) (b : Nat) :
    first (Text.replacement :: done) b
      = ⟨(first [Text.replacement] b).done ++ done, (first [Text.replacement] b).pending⟩ := by
  rw [first_eq, first_eq [Text.replacement], List.append_assoc, List.singleton_append]

/-- What was read before only stands in front. -/
theorem step_eq (done : List Char) (pending : Option Pending) (byte : UInt8) :
    step ⟨done, pending⟩ byte
      = ⟨(step ⟨[], pending⟩ byte).done ++ done, (step ⟨[], pending⟩ byte).pending⟩ := by
  cases pending with
  | none => exact first_eq done byte.toNat
  | some p =>
    simp only [step]
    split
    · split <;> rfl
    · exact first_replaced done byte.toNat

theorem foldl_step_eq (bytes : List UInt8) (done : List Char) (pending : Option Pending) :
    bytes.foldl step ⟨done, pending⟩
      = ⟨(bytes.foldl step ⟨[], pending⟩).done ++ done,
          (bytes.foldl step ⟨[], pending⟩).pending⟩ := by
  induction bytes generalizing done pending with
  | nil => rfl
  | cons byte bytes ih =>
    rw [List.foldl_cons, List.foldl_cons, step_eq, ih]
    rw [ih (step ⟨[], pending⟩ byte).done, List.append_assoc]

/-! ## Characters under way -/

/-- **A character under way** is continued by bytes of its own only, and is none of the characters
of one byte. -/
structure Pending.Sound (p : Pending) : Prop where
  least : 0x80 ≤ p.least
  greatest : p.greatest ≤ 0xBF
  value : 2 ≤ p.value ∨ 2 ≤ p.owed ∧ (1 ≤ p.value ∨ 0x82 ≤ p.least)

/-- The character under way is sound, if there is one. -/
def State.Sound (s : State) : Prop := ∀ p ∈ s.pending, p.Sound

theorem sound_first (done : List Char) (b : Nat) : (first done b).Sound := by
  intro p hp
  simp only [first] at hp
  split at hp
  · cases hp
  · split at hp
    · cases hp
      exact ⟨Nat.le_refl _, Nat.le_refl _, .inl (by simp only; omega)⟩
    · split at hp
      · cases hp
        refine ⟨?_, ?_, ?_⟩
        · simp only; split <;> omega
        · simp only; split <;> omega
        · simp only; split <;> omega
      · split at hp
        · cases hp
          refine ⟨?_, ?_, ?_⟩
          · simp only; split <;> omega
          · simp only; split <;> omega
          · simp only; split <;> omega
        · cases hp

theorem State.Sound.step (h : s.Sound) (byte : UInt8) : (step s byte).Sound := by
  obtain ⟨done, pending⟩ := s
  cases pending with
  | none => exact sound_first done byte.toNat
  | some p =>
    obtain ⟨hleast, hgreatest, hvalue⟩ := h p rfl
    simp only [Utf8.step]
    split
    · split
      · nofun
      · intro q hq
        cases hq
        exact ⟨Nat.le_refl _, Nat.le_refl _, .inl (by simp only; omega)⟩
    · exact sound_first _ _

theorem State.Sound.foldl (h : s.Sound) (bytes : List UInt8) : (bytes.foldl Utf8.step s).Sound := by
  induction bytes generalizing s with
  | nil => exact h
  | cons byte bytes ih => exact ih (h.step byte)

theorem sound_start : (⟨[], none⟩ : State).Sound := nofun

/-! ## Bytes that stand for themselves -/

/-- **A byte below `0x80`** is a character of its own, whatever was under way before it. -/
theorem State.Sound.step_of_lt (h : s.Sound) {byte : UInt8} (hbyte : byte.toNat < 0x80) :
    Utf8.step s byte = ⟨Char.ofNat byte.toNat :: s.text.reverse, none⟩ := by
  obtain ⟨done, pending⟩ := s
  cases pending with
  | none =>
    rw [Utf8.step, first_of_one (by omega), State.text, List.reverse_reverse]
  | some p =>
    have hleast := (h p rfl).least
    have hnot : ¬ (p.least ≤ byte.toNat ∧ byte.toNat ≤ p.greatest) := by omega
    simp only [Utf8.step, if_neg hnot, first_of_one (Nat.le_of_lt_succ hbyte), State.text,
      List.reverse_reverse]

/-- **What is read before and after a byte below `0x80`** does not depend on it. -/
theorem decode_append_cons (before after : List UInt8) {byte : UInt8} (hbyte : byte.toNat < 0x80) :
    decode (before ++ byte :: after)
      = decode before ++ Char.ofNat byte.toNat :: decode after := by
  have hsound := sound_start.foldl before
  rw [decode, List.foldl_append, List.foldl_cons, hsound.step_of_lt hbyte, foldl_step_eq, decode,
    decode]
  cases hlast : after.foldl step ⟨[], none⟩ with
  | mk done pending => cases pending <;> simp [State.text]

/-! ## Line ends -/

/-- The bytes of the characters that end a line. -/
def isEndByte (byte : UInt8) : Bool := byte == 0x0A || byte == 0x0D

theorem isEndByte_iff {byte : UInt8} :
    isEndByte byte = true ↔ byte.toNat = 0x0A ∨ byte.toNat = 0x0D := by
  rw [isEndByte, Bool.or_eq_true, beq_iff_eq, beq_iff_eq, ← UInt8.toNat_inj, ← UInt8.toNat_inj]
  rfl

/-- A line end has a number below `0x80`. -/
theorem isEnd_iff {c : Char} : Lines.isEnd c = true ↔ c.toNat = 0x0A ∨ c.toNat = 0x0D := by
  rw [Lines.isEnd, Bool.or_eq_true, beq_iff_eq, beq_iff_eq, ← Char.toNat_inj, ← Char.toNat_inj]
  rfl

/-- A character of more than one byte ends no line. -/
theorem isEnd_ofNat {n : Nat} (h : 0x80 ≤ n) : Lines.isEnd (Char.ofNat n) = false := by
  rw [Bool.eq_false_iff, ne_eq, isEnd_iff]
  by_cases hvalid : n.isValidChar
  · have hn : (Char.ofNat n).toNat = n := by
      rw [Char.ofNat, dif_pos hvalid]
      rfl
    omega
  · rw [Char.ofNat, dif_neg hvalid]
    decide

theorem isEnd_replacement : Lines.isEnd Text.replacement = false := by decide

theorem isEnd_ofNat_toNat {byte : UInt8} (hbyte : byte.toNat < 0x80) :
    Lines.isEnd (Char.ofNat byte.toNat) = isEndByte byte := by
  have hvalid : byte.toNat.isValidChar := .inl (by omega)
  have hn : (Char.ofNat byte.toNat).toNat = byte.toNat := by
    rw [Char.ofNat, dif_pos hvalid]
    rfl
  rw [Bool.eq_iff_iff, isEnd_iff, isEndByte_iff, hn]

theorem plain_first (hdone : Plain done) {byte : UInt8} (hbyte : isEndByte byte = false) :
    Plain (first done byte.toNat).done := by
  simp only [Utf8.first]
  split
  · refine plain_cons.2 ⟨?_, hdone⟩
    rw [isEnd_ofNat_toNat (by omega), hbyte]
  · split
    · exact hdone
    · split
      · exact hdone
      · split
        · exact hdone
        · exact plain_cons.2 ⟨isEnd_replacement, hdone⟩

theorem State.Sound.plain_step (h : s.Sound) (hdone : Plain s.done) {byte : UInt8}
    (hbyte : isEndByte byte = false) : Plain (Utf8.step s byte).done := by
  obtain ⟨done, pending⟩ := s
  cases pending with
  | none => exact plain_first hdone hbyte
  | some p =>
    obtain ⟨hleast, hgreatest, hvalue⟩ := h p rfl
    simp only [Utf8.step]
    split
    · split
      · exact plain_cons.2 ⟨isEnd_ofNat (by omega), hdone⟩
      · exact hdone
    · exact plain_first (plain_cons.2 ⟨isEnd_replacement, hdone⟩) hbyte

theorem State.Sound.plain_foldl (h : s.Sound) (hdone : Plain s.done) {bytes : List UInt8}
    (hbytes : ∀ byte ∈ bytes, isEndByte byte = false) : Plain (bytes.foldl Utf8.step s).done := by
  induction bytes generalizing s with
  | nil => exact hdone
  | cons byte bytes ih =>
    obtain ⟨hbyte, hrest⟩ := List.forall_mem_cons.1 hbytes
    exact ih (h.step byte) (h.plain_step hdone hbyte) hrest

theorem State.plain_text (hdone : Plain s.done) : Plain s.text := by
  obtain ⟨done, pending⟩ := s
  intro c hc
  cases pending with
  | none => exact hdone c (List.mem_reverse.1 hc)
  | some p =>
    rcases List.mem_cons.1 (List.mem_reverse.1 hc) with rfl | hc
    · exact isEnd_replacement
    · exact hdone c hc

/-- **No line end is read** that is not among the bytes. -/
theorem plain_decode {bytes : List UInt8} (hbytes : ∀ byte ∈ bytes, isEndByte byte = false) :
    Plain (decode bytes) :=
  State.plain_text (sound_start.plain_foldl nofun hbytes)

end Utf8
end LoadTest

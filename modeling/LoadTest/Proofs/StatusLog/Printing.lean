import LoadTest.Proofs.StatusLog.Grammar
/-!
# Printed status lines

A benchmark prints a status line as a time, a text, and the latencies of some operations, each in a
field of its own.  Reading such a line gives back what was printed, and no field is taken for that of
another operation: the name of one may end another's, and a text may end in a name.

* `Field`, `Printed`: the fields of a line and the line, and the texts they make.
* `passes_latencyMarker`: the mark of an operation is not found in the mark of another one.
* `following_fields`: so the first field of an operation is found, and none if it has no field.
* `read_text`: a printed line is read as its time and the latency of the operation asked for.
-/

namespace LoadTest

namespace StatusLine

open Text

/-- The latency of an operation, as a line shows it. -/
structure Field where
  operation : Operation
  latency : Numeral

def Field.text (f : Field) : List Char :=
  [' ', '['] ++ (latencyMarker f.operation.name.toList ++ (f.latency.text ++ [']']))

/-- A status line as it is printed: a time with blanks around it, a text that holds no latency, and
the latencies of operations, which may come more than once. -/
structure Printed where
  lead : List Char
  time : Timestamp
  trail : List Char
  body : List Char
  fields : List Field
  blank_lead : ∀ c ∈ lead, isBlank c = true
  blank_trail : ∀ c ∈ trail, isBlank c = true
  noLatency_body : ¬ "AverageLatency(us)=".toList <:+: body

namespace Printed

def text (l : Printed) : String :=
  String.ofList (l.lead ++ (l.time.text ++ l.trail)
    ++ (timeMarker ++ (l.body ++ l.fields.flatMap Field.text)))

/-- The latency of the first field of an operation. -/
def latency (l : Printed) (p : Operation) : Binary64 :=
  match l.fields.find? fun f => f.operation == p with
  | none => noLatency
  | some f => .ofText f.latency.text

end Printed

variable {p q : Operation} {rest body : List Char}

/-! ## Marks -/

/-- **No mark is found in another one**, also where one name ends in the middle of another. -/
theorem passes_latencyMarker (h : p ≠ q) :
    Passes (latencyMarker p.name.toList) (latencyMarker q.name.toList) := by
  refine passes_of_tails ?_
  cases p <;> cases q <;> first | exact absurd rfl h | decide +kernel

/-- A mark starts with a capital letter that neither numerals nor brackets hold. -/
theorem exists_latencyMarker (p : Operation) : ∃ c cs, latencyMarker p.name.toList = c :: cs ∧
    Numeral.isNumeralChar c = false ∧ c ≠ ' ' ∧ c ≠ '[' ∧ c ≠ ']' := by
  cases p <;> exact ⟨_, _, rfl, by decide, by decide, by decide, by decide⟩

theorem notMem_latencyMarker (p : Operation) : '[' ∉ latencyMarker p.name.toList := by
  cases p <;> decide +kernel

/-- A mark ends in an equals sign. -/
theorem getLast?_latencyMarker (p : Operation) :
    (latencyMarker p.name.toList).getLast? = some '=' := by
  cases p <;> decide +kernel

theorem isInfix_latencyMarker (p : Operation) :
    "AverageLatency(us)=".toList <:+: latencyMarker p.name.toList :=
  ⟨p.name.toList ++ [' '], [], by rw [List.append_nil, List.append_assoc]; rfl⟩

/-! ## Texts in which no mark is found -/

/-- The start of the fields does not complete a mark that the body begins. -/
theorem passesInto_body (p : Operation) (hbody : ¬ "AverageLatency(us)=".toList <:+: body)
    (hrest : rest = [] ∨ ∃ more, rest = ' ' :: '[' :: more) :
    PassesInto (latencyMarker p.name.toList) body rest := by
  have hplain : ¬ latencyMarker p.name.toList <:+: body :=
    fun h => hbody ((isInfix_latencyMarker p).trans h)
  intro c tail hsuffix
  by_contra hsome
  obtain ⟨r, hr⟩ := Option.ne_none_iff_exists'.1 hsome
  have hboth : c :: tail ++ rest = latencyMarker p.name.toList ++ r := after?_eq_some_iff.1 hr
  rcases List.append_eq_append_iff.1 hboth with ⟨more, hmarker, hmore⟩ | ⟨more, htail, -⟩
  · -- the mark ends in what follows the body: before it, with its blank, or behind its bracket
    match more, hmarker, hmore with
    | [], hmarker, _ =>
      rw [List.append_nil] at hmarker
      exact hplain (hmarker ▸ hsuffix.isInfix)
    | [d], hmarker, hmore =>
      have hlast := getLast?_latencyMarker p
      rw [hmarker, List.getLast?_concat, Option.some_inj] at hlast
      subst hlast
      rcases hrest with rfl | ⟨fields, rfl⟩
      · cases hmore
      · cases hmore
    | d :: d' :: more, hmarker, hmore =>
      rcases hrest with rfl | ⟨fields, rfl⟩
      · cases hmore
      · obtain rfl : '[' = d' := (List.cons.inj (List.cons.inj hmore).2).1
        refine notMem_latencyMarker p ?_
        rw [hmarker]
        simp
  · have hstart : latencyMarker p.name.toList <+: c :: tail := ⟨more, htail.symm⟩
    exact hplain (hstart.isInfix.trans hsuffix.isInfix)

/-- Neither the bracket before a mark nor a numeral and the bracket after it hold a mark. -/
theorem passes_opening (p : Operation) : Passes (latencyMarker p.name.toList) [' ', '['] := by
  obtain ⟨c, cs, hmarker, -, hblank, hopening, -⟩ := exists_latencyMarker p
  rw [hmarker]
  exact passes_of_notMem (by simp [hblank, hopening])

theorem passes_closing (p : Operation) (n : Numeral) :
    Passes (latencyMarker p.name.toList) (n.text ++ [']']) := by
  obtain ⟨c, cs, hmarker, hchar, -, -, hclosing⟩ := exists_latencyMarker p
  rw [hmarker]
  refine passes_of_notMem fun hmem => ?_
  rcases List.mem_append.1 hmem with hnumeral | hbracket
  · rw [n.isNumeralChar_of_mem hnumeral] at hchar
    cases hchar
  · exact hclosing (List.mem_singleton.1 hbracket)

/-! ## Fields -/

/-- The field of the operation is found at its mark. -/
theorem following_field (f : Field) (rest : List Char) :
    (splitFirst? (latencyMarker f.operation.name.toList) (f.text ++ rest)).map Prod.snd
      = some (f.latency.text ++ (']' :: rest)) := by
  obtain ⟨c, cs, hmarker, -⟩ := exists_latencyMarker f.operation
  have hopening := (passes_opening f.operation).into
    (latencyMarker f.operation.name.toList ++ (f.latency.text ++ (']' :: rest)))
  have hfound : (splitFirst? (latencyMarker f.operation.name.toList)
      (latencyMarker f.operation.name.toList ++ (f.latency.text ++ (']' :: rest)))).map Prod.snd
      = some (f.latency.text ++ (']' :: rest)) := by
    rw [hmarker, splitFirst?_self]
    rfl
  rw [Field.text, List.append_assoc, List.append_assoc, List.append_assoc,
    List.singleton_append, map_snd_splitFirst?_append hopening, hfound]

/-- The field of another operation is passed over. -/
theorem following_other (f : Field) (h : p ≠ f.operation) (rest : List Char) :
    (splitFirst? (latencyMarker p.name.toList) (f.text ++ rest)).map Prod.snd
      = (splitFirst? (latencyMarker p.name.toList) rest).map Prod.snd := by
  rw [Field.text, List.append_assoc, List.append_assoc,
    map_snd_splitFirst?_append ((passes_opening p).into _),
    map_snd_splitFirst?_append ((passes_latencyMarker h).into _),
    map_snd_splitFirst?_append ((passes_closing p f.latency).into _)]

/-- **The first field of an operation is found**, whatever fields stand before it, and nothing is
found if the operation has no field. -/
theorem following_fields (p : Operation) (fields : List Field) :
    match fields.find? fun f => f.operation == p with
    | none => splitFirst? (latencyMarker p.name.toList) (fields.flatMap Field.text) = none
    | some f => ∃ rest,
      (splitFirst? (latencyMarker p.name.toList) (fields.flatMap Field.text)).map Prod.snd
        = some (f.latency.text ++ (']' :: rest)) := by
  induction fields with
  | nil =>
    obtain ⟨c, cs, hmarker, -⟩ := exists_latencyMarker p
    show splitFirst? (latencyMarker p.name.toList) [] = none
    rw [hmarker]
    rfl
  | cons f fields ih =>
    rw [List.flatMap_cons]
    by_cases h : f.operation = p
    · rw [List.find?_cons_of_pos (by simp [h])]
      subst h
      exact ⟨_, following_field f _⟩
    · have hother := following_other f (Ne.symm h) (fields.flatMap Field.text)
      rw [List.find?_cons_of_neg (by simp [h])]
      cases hfound : fields.find? fun f => f.operation == p with
      | none =>
        rw [hfound] at ih
        rw [ih] at hother
        exact Option.map_eq_none_iff.1 hother
      | some g =>
        rw [hfound] at ih
        obtain ⟨rest, hrest⟩ := ih
        exact ⟨rest, hother.trans hrest⟩

/-! ## Lines -/

/-- Nothing that stands before the time marker of a printed line holds it. -/
theorem splitFirst?_timeMarker (l : Printed) :
    splitFirst? timeMarker l.text.toList
      = some (l.lead ++ (l.time.text ++ l.trail), l.body ++ l.fields.flatMap Field.text) := by
  have hmarker : timeMarker = 's' :: "ec:".toList := rfl
  have hblank : isBlank 's' = false := by decide
  have hnot : 's' ∉ l.lead ++ (l.time.text ++ l.trail) := by
    intro hmem
    rcases List.mem_append.1 hmem with hlead | hmem
    · have := l.blank_lead _ hlead
      rw [hblank] at this
      cases this
    rcases List.mem_append.1 hmem with htime | htrail
    · rcases l.time.mem_text htime with hminus | hdigit
      · cases hminus
      · cases hdigit
    · have := l.blank_trail _ htrail
      rw [hblank] at this
      cases this
  rw [Printed.text, String.toList_ofList, hmarker]
  exact splitFirst?_of_passes (passes_of_notMem hnot) _

/-- What follows the time marker of a printed line is read as the latency of an operation. -/
theorem following_body (l : Printed) (p : Operation) :
    (splitFirst? (latencyMarker p.name.toList) (l.body ++ l.fields.flatMap Field.text)).map Prod.snd
      = (splitFirst? (latencyMarker p.name.toList) (l.fields.flatMap Field.text)).map Prod.snd := by
  refine map_snd_splitFirst?_append (passesInto_body p l.noLatency_body ?_)
  cases l.fields with
  | nil => exact .inl rfl
  | cons f fields => exact .inr ⟨_, rfl⟩

/-- **Reading undoes printing**: a printed line is read as its time and, for any operation, the
number that the first of its fields names, or as one without a latency if it has no field. -/
theorem read_text (l : Printed) (p : Operation) :
    read p.toValue l.text = .ok ⟨l.time.number, l.latency p⟩ := by
  have htime := l.time.trim_text l.blank_lead l.blank_trail
  have hbody := following_body l p
  have hfields := following_fields p l.fields
  have hends : ∀ rest, Numeral.EndsBefore (']' :: rest) := by
    intro rest c hc
    obtain rfl : ']' = c := Option.some.inj hc
    decide
  show read (.text p.name) l.text = _
  rw [read_of_timed (splitFirst?_timeMarker l) htime, hbody, Printed.latency]
  cases hfound : l.fields.find? fun f => f.operation == p with
  | none =>
    rw [hfound] at hfields
    rw [hfields]
    rfl
  | some f =>
    rw [hfound] at hfields
    obtain ⟨rest, hrest⟩ := hfields
    rw [hrest]
    simp only [latency?_append f.latency (hends rest)]

end StatusLine

end LoadTest

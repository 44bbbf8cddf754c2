import LoadTest.Proofs.Template.Filling
/-!
# The tags of a template

A template is cut into characters and tags, loses the blanks of lines that stand alone, and is
nested.  None of this loses a tag:

* `occurrences`: the tags of a text and what is written in them, read off the text.
* `valueNames`: the names of the variable tags of a template, at any depth.
* `valueNames_eq`: these are the names of the variable tags of its text, in order.
* `Run`: a text as literal pieces with tags between them; `run_of_cut` says that a template which
  keeps its delimiters is one.
-/

namespace LoadTest

namespace Template

/-! ## Tags of a text -/

/-- A tag of a text, and what is written after its opening delimiter, up to the end of the closing
one. -/
structure Occurrence where
  tag : Tag
  text : List Char
  deriving DecidableEq

/-- The delimiters that hold after a tag, if it does not set others in vain. -/
def Tag.next? (d : Delimiters) : Tag → Option Delimiters
  | delimiters words => Delimiters.ofText? words.toList
  | _ => some d

/-- The tags of a text, up to the first one after which nothing can be read. -/
def occurrences (d : Delimiters) (cs : List Char) : List Occurrence :=
  match _h : Text.splitFirst? d.opening cs with
  | none => []
  | some (_, body) =>
    match _ht : Tag.read? d body with
    | none => []
    | some (t, text, rest) =>
      match t.next? d with
      | none => [⟨t, text⟩]
      | some d' => ⟨t, text⟩ :: occurrences d' rest
termination_by cs.length
decreasing_by
  have hs := Text.length_of_splitFirst? _h
  have ht := Tag.length_of_read? _ht
  have hd := List.length_pos_iff.2 d.opening_ne_nil
  omega

/-- The tag sets delimiters. -/
def Tag.setsDelimiters : Tag → Bool
  | delimiters _ => true
  | _ => false

/-- The name that a tag writes the value of. -/
def Tag.name? : Tag → Option String
  | value name => some name
  | _ => none

/-- The name that a lexeme writes the value of. -/
def Lexeme.name? : Lexeme → Option String
  | char _ => none
  | tag t _ => t.name?

/-- The names that tags write the values of, in order. -/
def namesIn (occurrences : List Occurrence) : List String :=
  occurrences.filterMap fun o => o.tag.name?

/-! ## Cutting, lines and nesting -/

namespace Lexeme

@[simp] theorem name?_char (c : Char) : (char c).name? = none := rfl

@[simp] theorem name?_tag (t : Tag) (offset : Nat) : (tag t offset).name? = t.name? := rfl

section Cut

variable {d d' : Delimiters} {cs before body text rest : List Char} {t : Tag}

/-- After a tag the rest is cut, with the delimiters that then hold. -/
theorem cut_of_next (hsplit : Text.splitFirst? d.opening cs = some (before, body))
    (hread : Tag.read? d body = some (t, text, rest)) (hnext : t.next? d = some d') (offset : Nat)
    (done : List Lexeme) :
    cut d offset done cs
      = cut d' (offset + Text.units before + Text.units d.opening + Text.units text)
          (tag t (offset + Text.units before) :: ((before.map char).reverse ++ done)) rest := by
  rw [cut_eq, hsplit]
  simp only [hread]
  cases t with
  | delimiters words =>
    have hwords : Delimiters.ofText? words.toList = some d' := hnext
    simp only [hwords]
  | _ =>
    cases hnext
    rfl

/-- A tag that sets other delimiters in vain is the last one. -/
theorem cut_of_last (hsplit : Text.splitFirst? d.opening cs = some (before, body))
    (hread : Tag.read? d body = some (t, text, rest)) (hnext : t.next? d = none) (offset : Nat)
    (done : List Lexeme) :
    ∃ e, cut d offset done cs
      = ((tag t (offset + Text.units before) :: ((before.map char).reverse ++ done)).reverse,
          some e) := by
  rw [cut_eq, hsplit]
  simp only [hread]
  cases t with
  | delimiters words =>
    have hwords : Delimiters.ofText? words.toList = none := hnext
    simp only [hwords]
    exact ⟨_, rfl⟩
  | _ => cases hnext

/-- **Cutting a template finds the names of its tags.** -/
theorem filterMap_name?_cut (d : Delimiters) (offset : Nat) (done : List Lexeme) (cs : List Char) :
    (cut d offset done cs).1.filterMap name?
      = done.reverse.filterMap name? ++ namesIn (occurrences d cs) := by
  fun_induction occurrences d cs generalizing offset done with
  | case1 d cs hsplit => simp [cut_eq, hsplit, namesIn]
  | case2 d cs before body hsplit hread => simp [cut_eq, hsplit, hread, namesIn]
  | case3 d cs before body hsplit t text rest hread hnext =>
    obtain ⟨e, hcut⟩ := cut_of_last hsplit hread hnext offset done
    cases htag : t.name? <;> simp [hcut, namesIn, htag]
  | case4 d cs before body hsplit t text rest hread d' hnext ih =>
    rw [cut_of_next hsplit hread hnext, ih]
    cases htag : t.name? <;> simp [namesIn, htag]

end Cut

/-- Lines lose nothing but blanks. -/
theorem filterMap_name?_settle (line : List Lexeme) :
    (settle line).filterMap name? = line.filterMap name? := by
  rw [settle]
  split
  · rw [List.filterMap_filter]
    congr 1
    funext l
    cases l <;> simp [isBlank]
  · rfl

@[simp] theorem name?_after (line : List Lexeme) (l : Lexeme) : (l.after line).name? = l.name? := by
  cases l with
  | char c => rfl
  | tag t offset => cases t <;> rfl

theorem filterMap_name?_settleFrom (ls : List Lexeme) : ∀ done line : List Lexeme,
    (settleFrom done line ls).filterMap name?
      = ((line ++ done).filterMap name?).reverse ++ ls.filterMap name? := by
  induction ls with
  | nil =>
    intro done line
    rw [settleFrom, List.filterMap_reverse, List.filterMap_append, List.filterMap_append,
      filterMap_name?_settle, List.filterMap_nil, List.append_nil]
  | cons l ls ih =>
    intro done line
    rw [settleFrom]
    split
    · rw [ih, List.nil_append, List.filterMap_append, filterMap_name?_settle]
      cases hname : l.name? <;> simp [hname]
    · rw [ih]
      cases hname : l.name? <;> simp [hname]

theorem filterMap_name?_settleLines (ls : List Lexeme) :
    (settleLines ls).filterMap name? = ls.filterMap name? := by
  rw [settleLines, filterMap_name?_settleFrom]
  rfl

end Lexeme

/-! ## Names in nested templates -/

mutual

/-- The names whose values a node writes, at any depth. -/
def Node.names : Node → List String
  | .char _ => []
  | .value name => [name]
  | .part _ _ => []
  | .block _ _ body => Node.namesAll body

/-- The names whose values nodes write, in order. -/
def Node.namesAll : List Node → List String
  | [] => []
  | n :: ns => n.names ++ Node.namesAll ns

end

theorem Node.namesAll_append (ns ns' : List Node) :
    Node.namesAll (ns ++ ns') = Node.namesAll ns ++ Node.namesAll ns' := by
  induction ns with
  | nil => rfl
  | cons n ns ih => rw [List.cons_append, Node.namesAll, Node.namesAll, ih, List.append_assoc]

theorem Node.namesAll_reverse_cons (n : Node) (ns : List Node) :
    Node.namesAll (n :: ns).reverse = Node.namesAll ns.reverse ++ n.names := by
  rw [List.reverse_cons, Node.namesAll_append, Node.namesAll, Node.namesAll, List.append_nil]

namespace Nest

/-- The names in the sections that are open, the outermost first, and in the innermost one. -/
def names (n : Nest) : List String :=
  (n.open_.reverse.flatMap fun f => Node.namesAll f.before.reverse) ++ Node.namesAll n.nodes.reverse

/-- **A lexeme adds its name**, if it has one, and nothing else. -/
theorem names_add {n n' : Nest} {l : Lexeme} (h : n.add l = .ok n') :
    n'.names = n.names ++ l.name?.toList := by
  cases l with
  | char c =>
    cases h
    rw [names, Node.namesAll_reverse_cons]
    simp [names, Node.names]
  | tag t offset =>
    cases t with
    | value name =>
      cases h
      rw [names, Node.namesAll_reverse_cons]
      simp [names, Node.names, Tag.name?]
    | opens inverted name =>
      cases h
      simp [names, Node.namesAll, Tag.name?]
    | closes name =>
      rw [add] at h
      split at h
      · cases h
      · rename_i f fs hopen
        split at h
        · cases h
          rw [names, Node.namesAll_reverse_cons]
          simp [names, hopen, Node.names, Tag.name?]
        · cases h
    | part name indented =>
      cases h
      rw [names, Node.namesAll_reverse_cons]
      simp [names, Node.names, Tag.name?]
    | delimiters words =>
      cases h
      simp [Tag.name?]
    | silent =>
      cases h
      simp [Tag.name?]

theorem names_foldlM : ∀ (ls : List Lexeme) {n n' : Nest}, ls.foldlM add n = .ok n' →
    n'.names = n.names ++ ls.filterMap Lexeme.name? := by
  intro ls
  induction ls with
  | nil =>
    intro n n' h
    cases h
    simp
  | cons l ls ih =>
    intro n n' h
    rw [List.foldlM_cons] at h
    cases hadd : n.add l with
    | error e =>
      rw [hadd] at h
      cases h
    | ok n₁ =>
      rw [hadd] at h
      rw [ih h, names_add hadd, List.append_assoc, List.filterMap_cons]
      cases l.name? <;> rfl

end Nest

/-- The names that the variable tags of a template write the values of, at any depth. -/
def valueNames (template : String) : Except Error (List String) :=
  (parse template).map Node.namesAll

/-- **The variable tags of a template** are those of its text, in order; and a template that parses
was cut to its end. -/
theorem valueNames_eq {template : String} {names : List String}
    (h : valueNames template = .ok names) :
    names = namesIn (occurrences .standard template.toList) ∧
      (Lexeme.ofText template.toList).2 = none := by
  unfold valueNames parse at h
  simp only at h
  cases hfold : (Lexeme.settleLines (Lexeme.ofText template.toList).1).foldlM Nest.add {} with
  | error e =>
    rw [hfold] at h
    cases h
  | ok n =>
    rw [hfold] at h
    cases hend : (Lexeme.ofText template.toList).2 with
    | some e =>
      rw [hend] at h
      cases h
    | none =>
      rw [hend] at h
      refine ⟨?_, rfl⟩
      simp only at h
      split at h
      · cases h
      · rename_i hopen
        cases h
        have hnames := Nest.names_foldlM _ hfold
        rw [Lexeme.filterMap_name?_settleLines, Lexeme.ofText, Lexeme.filterMap_name?_cut] at hnames
        simpa [Nest.names, hopen, Node.namesAll] using hnames

/-! ## Templates that keep their delimiters -/

/-- A text of literal pieces with tags between them, none of which sets delimiters. -/
inductive Run : List Char → List Occurrence → Prop
  /-- A text without an opening delimiter. -/
  | last {cs : List Char} (h : ¬ ['\x7b', '\x7b'] <:+: cs) : Run cs []
  /-- A literal piece, a tag, and the rest. -/
  | tag (l : Literal) {o : Occurrence} {rest : List Char} {os : List Occurrence}
      (hread : Tag.read? .standard (o.text ++ rest) = some (o.tag, o.text, rest))
      (hkeeps : o.tag.setsDelimiters = false) (hrest : Run rest os) :
      Run (l.text ++ (['\x7b', '\x7b'] ++ (o.text ++ rest))) (o :: os)

/-- What comes before the first opening delimiter is a literal piece. -/
theorem exists_literal {cs before body : List Char}
    (h : Text.splitFirst? ['\x7b', '\x7b'] cs = some (before, body)) :
    ∃ l : Literal, l.text = before := by
  obtain ⟨rfl, hfirst⟩ := Text.splitFirst?_eq_some_iff.1 h
  refine ⟨⟨before, ?_, ?_⟩, rfl⟩
  · rintro ⟨b, a, rfl⟩
    have hlength := hfirst b (a ++ (['\x7b', '\x7b'] ++ body)) (by simp)
    simp only [List.length_append, List.length_cons, List.length_nil] at hlength
    omega
  · intro hlast
    obtain ⟨b, rfl⟩ := List.getLast?_eq_some_iff.1 hlast
    have hlength := hfirst b ('\x7b' :: body) (by simp)
    simp only [List.length_append, List.length_cons, List.length_nil] at hlength
    omega

theorem next?_of_keeps {t : Tag} (h : t.setsDelimiters = false) (d : Delimiters) :
    t.next? d = some d := by
  cases t with
  | delimiters words => cases h
  | _ => rfl

/-- **A template that keeps its delimiters** and is cut to its end is a run of its tags. -/
theorem run_of_cut {cs : List Char} (offset : Nat) (done : List Lexeme)
    (hend : (Lexeme.cut .standard offset done cs).2 = none)
    (hkeeps : ∀ o ∈ occurrences .standard cs, o.tag.setsDelimiters = false) :
    Run cs (occurrences .standard cs) := by
  generalize hd : Delimiters.standard = d at hend hkeeps ⊢
  fun_induction occurrences d cs generalizing offset done with
  | case1 d cs hsplit =>
    subst hd
    exact .last (Text.splitFirst?_eq_none_iff.1 hsplit)
  | case2 d cs before body hsplit hread =>
    rw [Lexeme.cut_eq, hsplit] at hend
    simp [hread] at hend
  | case3 d cs before body hsplit t text rest hread hnext =>
    obtain ⟨e, hcut⟩ := Lexeme.cut_of_last hsplit hread hnext offset done
    rw [hcut] at hend
    cases hend
  | case4 d cs before body hsplit t text rest hread d' hnext ih =>
    obtain ⟨hkeep, hkeeps⟩ := List.forall_mem_cons.1 hkeeps
    obtain rfl : d = d' := Option.some.inj ((next?_of_keeps hkeep d).symm.trans hnext)
    rw [Lexeme.cut_of_next hsplit hread hnext] at hend
    subst hd
    have hbody := Tag.eq_of_read? hread
    rw [Text.eq_of_splitFirst? hsplit]
    obtain ⟨l, rfl⟩ := exists_literal hsplit
    rw [hbody] at hread ⊢
    exact .tag l hread hkeep (ih _ _ rfl hend hkeeps)

end Template

end LoadTest

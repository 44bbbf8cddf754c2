import LoadTest.Proofs.Template.BuiltIns
import LoadTest.Proofs.Template.Pieces
/-!
# Rendering a variable template

The template is cut into the characters of its literal pieces and one tag for each variable tag
(`cut_textOf`).  Every tag writes a value, so no line stands alone and every character stays
(`settleLines_lexemes`).  No section is opened, so the parts of the template are nodes side by side
(`parse_template`), and what they write is what the pieces become (`render_template`).
-/

namespace LoadTest

/-! ## Units and fragments of plain text -/

namespace Text

theorem units_append (a b : List Char) : units (a ++ b) = units a + units b := by
  have hfrom : ∀ (cs : List Char) (n : Nat),
      cs.foldl (fun n c => n + unitCount c) n = n + units cs := by
    intro cs
    induction cs with
    | nil => intro n; rfl
    | cons c cs ih =>
      intro n
      rw [units, List.foldl_cons, List.foldl_cons, ih, ih, Nat.zero_add, Nat.add_assoc]
  rw [units, List.foldl_append, hfrom]
  rfl

theorem joinFrom_char (cs done : List Char) :
    joinFrom done (cs.map .char) = done.reverse ++ cs := by
  induction cs generalizing done with
  | nil => simp [joinFrom]
  | cons c cs ih =>
    rw [List.map_cons, joinFrom, ih, List.reverse_cons, List.append_assoc, List.singleton_append]

/-- Characters are joined as they are. -/
theorem join_char (cs : List Char) : join (cs.map .char) = cs := joinFrom_char cs []

end Text

namespace Template

variable {d : Delimiters} {cs : List Char}

/-! ## Reading a variable tag -/

namespace Tag

/-- A kind, blanks, and a content. -/
theorem split_of_isKind (b : Blanks) {kind c : Char} {rest : List Char}
    (hk : Text.isBlank kind = false) (hkind : isKind kind = true) (hc : Text.isBlank c = false) :
    split (kind :: (b.text ++ c :: rest)) = (kind :: b.text, some kind, c :: rest) := by
  rw [split, List.takeWhile_cons_of_neg (by simp [hk]), List.dropWhile_cons_of_neg (by simp [hk])]
  simp only [hkind, if_true, b.takeWhile_append hc, b.dropWhile_append hc, List.nil_append]

/-- Blanks and a content. -/
theorem split_of_not_isKind (b : Blanks) {c : Char} {rest : List Char}
    (hc : Text.isBlank c = false) (hkind : isKind c = false) :
    split (b.text ++ c :: rest) = (b.text, none, c :: rest) := by
  rw [split, b.takeWhile_append hc, b.dropWhile_append hc]
  simp [hkind]

/-- What leads to the name of a variable tag, and the kind of the tag. -/
theorem split_body (v : Variable) (rest : List Char) :
    split (v.body ++ rest)
      = (v.form.mark ++ v.before.text, v.form.mark.head?,
          v.word.text ++ (v.after.text ++ (v.form.closing ++ rest))) := by
  obtain ⟨c, name, hname, hc⟩ := v.word.exists_cons
  have hblank := isBlank_of_isWordChar hc
  rw [Variable.body, hname]
  cases v.form with
  | plain =>
    simpa [Form.mark] using split_of_not_isKind v.before hblank (isKind_of_isWordChar hc)
  | braces =>
    simpa [Form.mark] using
      split_of_isKind v.before (show Text.isBlank '\x7b' = false from rfl) rfl hblank
  | ampersand =>
    simpa [Form.mark] using
      split_of_isKind v.before (show Text.isBlank '&' = false from rfl) rfl hblank

/-- The blanks after a word are no part of the content. -/
theorem trimEnd_word (w : Word) (b : Blanks) : Text.trimEnd (w.text ++ b.text) = w.text := by
  have hblanks : ∀ c ∈ b.text.reverse, Text.isBlank c = true := by
    intro c hc
    exact b.blank c (List.mem_reverse.1 hc)
  have hword : w.text.reverse.dropWhile Text.isBlank = w.text.reverse := by
    rw [List.dropWhile_eq_self_iff]
    intro hlength
    rw [isBlank_of_isWordChar (w.wordChars _ (List.mem_reverse.1 (List.getElem_mem hlength)))]
    decide
  rw [Text.trimEnd, List.reverse_append, List.dropWhile_append_of_pos hblanks, hword,
    List.reverse_reverse]

/-- The content of a variable tag is its name, up to the first closing braces. -/
theorem content?_closing (v : Variable) (rest : List Char) :
    content? v.form.closing (v.word.text ++ (v.after.text ++ (v.form.closing ++ rest)))
      = some (v.word.name, v.word.text ++ (v.after.text ++ v.form.closing), rest) := by
  obtain ⟨braces, hclosing⟩ := v.form.closing_eq
  have hpasses : Text.Passes ('\x7d' :: braces) (v.word.text ++ v.after.text) :=
    Text.passes_of_notMem v.notMem_closing
  have hfound := Text.splitFirst?_of_passes hpasses rest
  rw [List.append_assoc] at hfound
  rw [hclosing, content?, hfound, Option.map_some]
  simp only [trimEnd_word, Word.name, List.append_assoc]

/-- A tag in three braces. -/
theorem read?_of_braces {lead body text rest : List Char} {content : String}
    (h : split cs = (lead, some '\x7b', body))
    (hcontent : content? ('\x7d' :: d.closing) body = some (content, text, rest)) :
    read? d cs = some (.value content, lead ++ text, rest) := by
  rw [read?, h]
  simp [hcontent]

/-- A tag without a kind, or with an ampersand for one, writes a value too. -/
theorem read?_of_value {kind : Option Char} {lead body text rest : List Char} {content : String}
    (h : split cs = (lead, kind, body)) (hkind : kind = none ∨ kind = some '&')
    (hcontent : content? d.closing body = some (content, text, rest)) :
    read? d cs = some (.value content, lead ++ text, rest) := by
  rw [read?, h]
  rcases hkind with rfl | rfl <;> simp [hcontent, ofKind]

/-- **A variable tag is read as its name**, whole. -/
theorem read?_body (v : Variable) (rest : List Char) :
    read? .standard (v.body ++ rest) = some (.value v.word.name, v.body, rest) := by
  have hsplit := split_body v rest
  have hcontent := content?_closing v rest
  have hbody : v.body = v.form.mark ++ v.before.text
      ++ (v.word.text ++ (v.after.text ++ v.form.closing)) := by
    rw [Variable.body, List.append_assoc]
  rw [hbody] at hsplit ⊢
  cases hform : v.form with
  | plain =>
    rw [hform] at hsplit hcontent
    exact read?_of_value hsplit (.inl rfl) hcontent
  | braces =>
    rw [hform] at hsplit hcontent
    exact read?_of_braces hsplit hcontent
  | ampersand =>
    rw [hform] at hsplit hcontent
    exact read?_of_value hsplit (.inr rfl) hcontent

end Tag

/-! ## Cutting the template -/

/-- The lexemes of pieces, the first of which starts at an offset. -/
def lexemes (offset : Nat) : List Piece → List Lexeme
  | [] => []
  | .literal l :: pieces => l.text.map .char ++ lexemes (offset + Text.units l.text) pieces
  | .tag v :: pieces =>
    .tag (.value v.word.name) offset :: lexemes (offset + Text.units v.text) pieces

namespace Lexeme

/-- One step of cutting, without the proofs that carry the recursion. -/
theorem cut_eq (d : Delimiters) (offset : Nat) (done : List Lexeme) (cs : List Char) :
    cut d offset done cs = match Text.splitFirst? d.opening cs with
      | none => (((cs.map char).reverse ++ done).reverse, none)
      | some (before, body) =>
        let start := offset + Text.units before
        let done := (before.map char).reverse ++ done
        match Tag.read? d body with
        | none => (done.reverse, some (.unclosedTag (offset + Text.units cs)))
        | some (t, text, rest) =>
          let done := tag t start :: done
          let next := start + Text.units d.opening + Text.units text
          match t with
          | .delimiters text =>
            match Delimiters.ofText? text.toList with
            | none => (done.reverse, some (.badDelimiters text))
            | some d' => cut d' next done rest
          | _ => cut d next done rest := by
  rw [cut]
  split
  · rename_i hs
    simp only [hs]
  · rename_i before body hs
    simp only [hs]
    split
    · rename_i ht
      simp only [ht]
    · rename_i t text rest ht
      simp only [ht]
      cases t <;> rfl

/-- A text that the search for tags passes over is cut into its characters. -/
theorem cut_of_passes (h : Text.Passes d.opening cs) (offset : Nat) (done : List Lexeme)
    (rest : List Char) :
    cut d offset done (cs ++ rest)
      = cut d (offset + Text.units cs) ((cs.map char).reverse ++ done) rest := by
  rw [cut_eq, cut_eq, Text.splitFirst?_append h]
  cases Text.splitFirst? d.opening rest with
  | none => simp
  | some p => simp [Text.units_append, Nat.add_assoc]

/-- A variable tag is cut off whole. -/
theorem cut_tag (v : Variable) (offset : Nat) (done : List Lexeme) (rest : List Char) :
    cut .standard offset done (v.text ++ rest)
      = cut .standard (offset + Text.units v.text) (tag (.value v.word.name) offset :: done)
          rest := by
  have hopening : Text.splitFirst? Delimiters.standard.opening (v.text ++ rest)
      = some ([], v.body ++ rest) := Text.splitFirst?_self '\x7b' ['\x7b'] (v.body ++ rest)
  have hunits : Text.units v.text = Text.units Delimiters.standard.opening + Text.units v.body :=
    Text.units_append _ _
  rw [cut_eq, hopening]
  simp only [Tag.read?_body, hunits]
  simp [Text.units, Nat.add_assoc]

/-- **The pieces of a template are found again** when it is cut. -/
theorem cut_textOf : ∀ (pieces : List Piece) (offset : Nat) (done : List Lexeme),
    cut .standard offset done (textOf pieces) = (done.reverse ++ lexemes offset pieces, none) := by
  intro pieces
  induction pieces with
  | nil =>
    intro offset done
    simp [cut_eq, Text.splitFirst?, Text.splitFrom, Delimiters.standard, lexemes]
  | cons p pieces ih =>
    intro offset done
    rw [textOf_cons]
    cases p with
    | literal l =>
      rw [Piece.text, cut_of_passes l.passes, ih, List.reverse_append, List.reverse_reverse,
        List.append_assoc]
      rfl
    | tag v =>
      rw [Piece.text, cut_tag, ih, List.reverse_cons, List.append_assoc]
      rfl

/-! ## Lines -/

/-- A character, or a tag that writes a value. -/
def IsPlain (l : Lexeme) : Prop := l.isTag = true → l.isVisible = true

/-- A line with no other tags stays as it is. -/
theorem settle_of_isPlain {line : List Lexeme} (h : ∀ l ∈ line, l.IsPlain) :
    settle line = line := by
  have halone : standsAlone line = false := by
    rw [standsAlone, Bool.and_eq_false_iff, Bool.not_eq_false', List.any_eq_true]
    by_cases htag : ∃ l ∈ line, l.isTag = true
    · obtain ⟨l, hl, htag⟩ := htag
      exact .inr ⟨l, hl, h l hl htag⟩
    · left
      rw [List.any_eq_false]
      exact fun l hl hltag => htag ⟨l, hl, hltag⟩
  rw [settle, halone]
  rfl

/-- Only parts are indented. -/
theorem after_of_isPlain {l : Lexeme} (h : l.IsPlain) (line : List Lexeme) : l.after line = l := by
  cases l with
  | char c => rfl
  | tag t offset =>
    cases t with
    | part name indented =>
      have hvisible : false = true := h rfl
      cases hvisible
    | _ => rfl

theorem settleFrom_of_isPlain : ∀ (ls line done : List Lexeme), (∀ l ∈ ls, l.IsPlain) →
    (∀ l ∈ line, l.IsPlain) → settleFrom done line ls = done.reverse ++ (line.reverse ++ ls) := by
  intro ls
  induction ls with
  | nil =>
    intro line done _ hline
    rw [settleFrom, settle_of_isPlain hline, List.reverse_append, List.append_nil]
  | cons l ls ih =>
    intro line done hls hline
    obtain ⟨hl, hls⟩ := List.forall_mem_cons.1 hls
    have hline' : ∀ l' ∈ l :: line, l'.IsPlain := List.forall_mem_cons.2 ⟨hl, hline⟩
    rw [settleFrom]
    split
    · rw [settle_of_isPlain hline', ih [] _ hls (by simp)]
      simp
    · rw [after_of_isPlain hl, ih _ _ hls hline']
      simp

/-- The tags of variable templates write values. -/
theorem isPlain_of_mem_lexemes : ∀ (pieces : List Piece) (offset : Nat),
    ∀ l ∈ lexemes offset pieces, l.IsPlain := by
  intro pieces
  induction pieces with
  | nil => simp [lexemes]
  | cons p pieces ih =>
    intro offset l hl
    cases p with
    | literal literal =>
      rcases List.mem_append.1 hl with hchar | hrest
      · obtain ⟨c, -, rfl⟩ := List.mem_map.1 hchar
        intro htag
        cases htag
      · exact ih _ l hrest
    | tag v =>
      rcases List.mem_cons.1 hl with rfl | hrest
      · exact fun _ => rfl
      · exact ih _ l hrest

/-- **No line of a variable template stands alone**: blanks and line feeds stay. -/
theorem settleLines_lexemes (pieces : List Piece) (offset : Nat) :
    settleLines (lexemes offset pieces) = lexemes offset pieces :=
  settleFrom_of_isPlain _ [] [] (isPlain_of_mem_lexemes pieces offset) (by simp)

end Lexeme

/-! ## Nodes -/

/-- The nodes of a piece. -/
def Piece.nodes : Piece → List Node
  | .literal l => l.text.map .char
  | .tag v => [.value v.word.name]

theorem Nest.foldlM_char (cs : List Char) (rest : List Lexeme) (n : Nest) :
    (cs.map Lexeme.char ++ rest).foldlM Nest.add n
      = rest.foldlM Nest.add { n with nodes := (cs.map Node.char).reverse ++ n.nodes } := by
  induction cs generalizing n with
  | nil => rfl
  | cons c cs ih =>
    rw [List.map_cons, List.cons_append, List.foldlM_cons]
    refine (ih { n with nodes := .char c :: n.nodes }).trans ?_
    simp

/-- No piece opens a section or closes one: the nodes of pieces come one after the other. -/
theorem Nest.foldlM_lexemes : ∀ (pieces : List Piece) (offset : Nat) (n : Nest),
    (lexemes offset pieces).foldlM Nest.add n
      = .ok { n with nodes := (pieces.flatMap Piece.nodes).reverse ++ n.nodes } := by
  intro pieces
  induction pieces with
  | nil =>
    intro offset n
    rfl
  | cons p pieces ih =>
    intro offset n
    cases p with
    | literal l =>
      rw [lexemes, Nest.foldlM_char, ih]
      simp [Piece.nodes]
    | tag v =>
      rw [lexemes, List.foldlM_cons]
      refine (ih _ { n with nodes := .value v.word.name :: n.nodes }).trans ?_
      simp [Piece.nodes]

/-- **A variable template parses** to the nodes of its pieces. -/
theorem parse_template (pieces : List Piece) :
    parse (template pieces) = .ok (pieces.flatMap Piece.nodes) := by
  unfold parse Lexeme.ofText
  simp [Lexeme.cut_textOf, Lexeme.settleLines_lexemes, Nest.foldlM_lexemes]

/-! ## Values -/

theorem Item.write_scalar (value : Scalar) :
    Item.write (.scalar value) = .ok (value.toText.map .char) := by
  cases value <;> rfl

/-- A word has no points in it, so it is looked up in the context as it is. -/
theorem lookup?_word (context : Context) (w : Word) :
    lookup? context [.whole] w.name = (context.lookup w.name).map .scalar := by
  have hpoint : '.' ∉ w.text := fun hmem => ne_of_class (w.wordChars _ hmem) (by decide) rfl
  have htext : w.name.toList = w.text := String.toList_ofList
  have hname : w.name ≠ "." := by
    intro h
    rw [h] at htext
    exact hpoint (htext ▸ List.mem_cons_self)
  have hdotted : isDotted w.name = false := by
    obtain ⟨c, cs, hcs, -⟩ := w.exists_cons
    have hrest : '.' ∉ cs := fun hmem => hpoint (hcs ▸ List.mem_cons_of_mem c hmem)
    rw [isDotted, htext, hcs]
    simp [hrest]
  rw [lookup?, if_neg hname, hdotted]
  cases h : context.lookup w.name <;> simp [Item.key?, Item.member?, h]

/-! ## Writing the nodes -/

theorem State.write_write (s : State) (fragments more : List Text.Fragment) :
    (s.write fragments).write more = s.write (fragments ++ more) := by
  simp [write]

/-- A word is not the name of the check, so that the check stays in sight. -/
theorem Word.ne_checkName (w : Word) : (w.name == checkName) = false := by
  rw [beq_eq_false_iff_ne]
  intro h
  have htext : w.name.toList = w.text := String.toList_ofList
  rw [h] at htext
  exact w.ne_hasOwnProperty htext.symm

namespace Node

theorem renderAll_char (context : Context) (stack : List Item) (cs : List Char) (rest : List Node)
    (s : State) :
    renderAll context stack s (cs.map .char ++ rest)
      = renderAll context stack (s.write (cs.map .char)) rest := by
  induction cs generalizing s with
  | nil => rfl
  | cons c cs ih =>
    rw [List.map_cons, List.cons_append, renderAll, render]
    simp only [ih, State.write_write]
    rfl

/-- A variable tag writes what it becomes. -/
theorem render_tag (context : Context) (v : Variable) {s : State} (hs : s.hidden = false) :
    render context [.whole] s (.value v.word.name)
      = .ok (s.write (((Piece.tag v).filled context).map .char)) := by
  have hlookup := lookup?_word context v.word
  rw [Piece.filled, Variable.value?]
  cases hvalue : context.lookup v.word.name with
  | none =>
    rw [hvalue] at hlookup
    exact render_value_of_none hs v.word.ne_checkName hlookup
  | some value =>
    rw [hvalue] at hlookup
    rw [render_value_of_some hs v.word.ne_checkName hlookup, Item.write_scalar]
    rfl

/-- **The nodes of pieces write what the pieces become**, one after the other. -/
theorem renderAll_nodes (context : Context) : ∀ (pieces : List Piece) {s : State},
    s.hidden = false → renderAll context [.whole] s (pieces.flatMap Piece.nodes)
      = .ok (s.write ((pieces.flatMap (Piece.filled context)).map .char)) := by
  intro pieces
  induction pieces with
  | nil =>
    intro s _
    rfl
  | cons p pieces ih =>
    intro s hs
    rw [List.flatMap_cons, List.flatMap_cons, List.map_append, ← State.write_write]
    cases p with
    | literal l => exact (renderAll_char context _ l.text _ s).trans (ih hs)
    | tag v =>
      rw [Piece.nodes, List.singleton_append, renderAll, render_tag context v hs]
      exact ih hs

end Node

/-- **A variable template is rendered to what its pieces become**: each tag to the text of the value
of its own name, as it is, or to nothing if the context lacks the name, and all else to itself. -/
theorem render_template (context : Context) (pieces : List Piece) :
    render (template pieces) context = .ok (filled context pieces) := by
  rw [render, parse_template]
  simp only [bind, Except.bind, pure, Except.pure, Node.renderAll_nodes, State.write,
    List.append_nil, List.reverse_reverse, Text.join_char]
  rfl

end Template

end LoadTest

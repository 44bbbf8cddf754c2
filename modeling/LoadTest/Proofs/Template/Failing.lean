import LoadTest.Proofs.Template.BuiltIns
/-!
# Where rendering fails

A template that can be parsed and asks for no built-in member fails to render in one place only: at a
tag that writes the context as a whole.  Inside a section on a part of the context there is no such
place.

* `Node.exists_renderAll`: nothing fails where the innermost item is a part of the context.
* `render_of_lowers`: a template that fails in a context fails in the same way in a context that
  differs only by numbers that count as false.
-/

namespace LoadTest

namespace Template

variable {context low : Context} {stack : List Item} {item : Item} {name : String} {s : State}

/-! ## Items -/

namespace Item

theorem write_whole : write .whole = .error .wholeContext := rfl

/-- Everything but the whole has a text. -/
theorem exists_write : ∀ {item : Item}, item ≠ .whole → ∃ fragments, item.write = .ok fragments := by
  intro item h
  cases item with
  | whole => exact absurd rfl h
  | scalar v => cases v <;> exact ⟨_, rfl⟩
  | half f => exact ⟨_, rfl⟩

theorem eq_whole_of_write {e : Error} (h : item.write = .error e) :
    item = .whole ∧ e = .wholeContext := by
  by_cases hwhole : item = .whole
  · rw [hwhole, write_whole] at h
    cases h
    exact ⟨hwhole, rfl⟩
  · obtain ⟨fragments, hwrite⟩ := exists_write hwhole
    rw [hwrite] at h
    cases h

theorem ofFragment_ne_whole : ∀ f : Text.Fragment, ofFragment f ≠ .whole := by
  intro f
  cases f <;> simp [ofFragment]

theorem member?_ne_whole {i : Item} (h : member? context item name = some i) : i ≠ .whole := by
  intro hi
  subst hi
  unfold member? at h
  split at h
  · simp at h
  · split at h
    · simp at h
    · obtain ⟨n, -, h⟩ := Option.bind_eq_some_iff.1 h
      obtain ⟨f, -, h⟩ := Option.map_eq_some_iff.1 h
      exact ofFragment_ne_whole f h
  · split at h
    · simp at h
    · split at h
      · simp at h
      · cases h
  · cases h

theorem key?_ne_whole {i : Item} (h : key? context item name = some i) : i ≠ .whole := by
  cases item with
  | whole =>
    have hmember : member? context .whole name = some i := h
    exact member?_ne_whole hmember
  | scalar v => cases h
  | half f => cases h

/-- A part of a part is a part. -/
theorem follow?_ne_whole : ∀ (names : List String) (item : Item) {i : Item},
    names ≠ [] ∨ item ≠ .whole → follow? context item names = some i → i ≠ .whole := by
  intro names
  induction names with
  | nil =>
    intro item i h hi
    cases hi
    exact h.resolve_left fun hne => hne rfl
  | cons name names ih =>
    intro item i _ hi
    obtain ⟨part, hpart, hi⟩ := Option.bind_eq_some_iff.1 hi
    exact ih part (.inr (member?_ne_whole hpart)) hi

/-- A part is not looked up in the context. -/
theorem member?_of_ne_whole (h : item ≠ .whole) :
    member? context item name = member? low item name := by
  cases item with
  | whole => exact absurd rfl h
  | scalar v => cases v <;> rfl
  | half f => rfl

theorem follow?_of_ne_whole : ∀ (names : List String) {item : Item}, item ≠ .whole →
    follow? context item names = follow? low item names := by
  intro names
  induction names with
  | nil => intro item _; rfl
  | cons name names ih =>
    intro item h
    have hpart : member? context item name = member? low item name := member?_of_ne_whole h
    rw [follow?, follow?, hpart]
    cases hpart : member? low item name with
    | none => rfl
    | some part => exact ih (member?_ne_whole hpart)

/-- Inside a section the innermost item is a part, if it was one before or the section is on one. -/
theorem head?_enter (hitem : item ≠ .whole) (hstack : stack.head? ≠ some .whole) :
    (item.enter stack).head? ≠ some .whole := by
  cases item with
  | whole => exact absurd rfl hitem
  | scalar v => cases v <;> simp [enter, hstack]
  | half f => simp [enter]

end Item

/-! ## Names -/

/-- **Only a single point names the whole**, and only where the whole is the innermost item. -/
theorem lookup?_eq_whole (h : lookup? context stack name = some .whole) :
    name = "." ∧ stack.head? = some .whole := by
  unfold lookup? at h
  split at h
  · exact ⟨by assumption, h⟩
  · split at h
    · obtain ⟨item, -, hitem⟩ := List.exists_of_findSome?_eq_some h
      exact absurd rfl (Item.follow?_ne_whole _ item
        (.inl (by simp [List.splitOn_ne_nil])) hitem)
    · obtain ⟨item, -, hitem⟩ := List.exists_of_findSome?_eq_some h
      exact absurd rfl (Item.key?_ne_whole hitem)

/-! ## Inside a section on a part -/

theorem head?_inside? {inverted : Bool} {inner : List Item} (hstack : stack.head? ≠ some .whole)
    (h : inside? context stack inverted name = some inner) : inner.head? ≠ some .whole := by
  unfold inside? at h
  split at h
  · split at h
    · cases h
      exact hstack
    · cases h
  · rename_i item hitem
    have hpart : item ≠ .whole := by
      rintro rfl
      exact hstack (lookup?_eq_whole hitem).2
    split at h
    · cases h
    · cases h
      split
      · exact hstack
      · exact Item.head?_enter hpart hstack

mutual

/-- **A node does not fail** where the innermost item is a part of the context. -/
theorem Node.exists_render : ∀ (n : Node) {stack : List Item} {s : State}, n.asksBuiltIn = false →
    stack.head? ≠ some .whole → s.hidden = false → ∃ s', n.render context stack s = .ok s'
  | .char c, stack, s, _, _, _ => ⟨_, rfl⟩
  | .value name, stack, s, hn, hstack, hs => by
    cases hitem : lookup? context stack name with
    | none => exact ⟨s, Node.render_value_of_none hs hn hitem⟩
    | some item =>
      have hpart : item ≠ .whole := by
        rintro rfl
        exact hstack (lookup?_eq_whole hitem).2
      obtain ⟨fragments, hwrite⟩ := Item.exists_write hpart
      rw [Node.render_value_of_some hs hn hitem, hwrite]
      exact ⟨_, rfl⟩
  | .part name indented, stack, s, hn, _, _ => ⟨s, Node.render_part hn⟩
  | .block inverted name body, stack, s, hn, hstack, hs => by
    rw [Node.render_block hs hn]
    cases hinner : inside? context stack inverted name with
    | none => exact ⟨s, rfl⟩
    | some inner =>
      exact Node.exists_renderAll body (Node.asksBuiltIn_block.1 hn).2 (head?_inside? hstack hinner)
        hs

/-- **Nodes do not fail** where the innermost item is a part of the context. -/
theorem Node.exists_renderAll : ∀ (ns : List Node) {stack : List Item} {s : State},
    Node.anyAsksBuiltIn ns = false → stack.head? ≠ some .whole → s.hidden = false →
      ∃ s', Node.renderAll context stack s ns = .ok s'
  | [], stack, s, _, _, _ => ⟨s, rfl⟩
  | n :: ns, stack, s, hns, hstack, hs => by
    obtain ⟨hn, hns⟩ := Node.anyAsksBuiltIn_cons.1 hns
    obtain ⟨s', hfirst⟩ := Node.exists_render n hn hstack hs
    rw [Node.renderAll, hfirst]
    exact Node.exists_renderAll ns hns hstack (Node.clear_render n hn hs hfirst)

end

/-! ## Failures of a node -/

/-- A tag that writes a value fails on the whole only. -/
theorem Node.lookup?_of_error {e : Error} (hs : s.hidden = false)
    (hname : (name == checkName) = false) (h : render context stack s (.value name) = .error e) :
    lookup? context stack name = some .whole ∧ e = .wholeContext := by
  cases hitem : lookup? context stack name with
  | none =>
    rw [render_value_of_none hs hname hitem] at h
    cases h
  | some item =>
    rw [render_value_of_some hs hname hitem] at h
    cases hwrite : item.write with
    | error e' =>
      obtain ⟨rfl, rfl⟩ := Item.eq_whole_of_write hwrite
      rw [hwrite] at h
      cases h
      exact ⟨rfl, rfl⟩
    | ok fragments =>
      rw [hwrite] at h
      cases h

/-- A section fails in its body only. -/
theorem Node.inside?_of_error {inverted : Bool} {body : List Node} {e : Error}
    (hs : s.hidden = false) (hblock : (block inverted name body).asksBuiltIn = false)
    (h : render context stack s (.block inverted name body) = .error e) :
    ∃ inner, inside? context stack inverted name = some inner ∧
      renderAll context inner s body = .error e := by
  rw [render_block hs hblock] at h
  cases hinner : inside? context stack inverted name with
  | none =>
    rw [hinner] at h
    cases h
  | some inner =>
    rw [hinner] at h
    exact ⟨inner, rfl, h⟩

/-- Nodes fail at the first of them or after it. -/
theorem Node.head_or_tail_of_error {n : Node} {ns : List Node} {e : Error}
    (h : renderAll context stack s (n :: ns) = .error e) :
    render context stack s n = .error e ∨
      ∃ s', render context stack s n = .ok s' ∧ renderAll context stack s' ns = .error e := by
  rw [renderAll] at h
  cases hn : render context stack s n with
  | error e' =>
    rw [hn] at h
    exact .inl h
  | ok s' =>
    rw [hn] at h
    exact .inr ⟨s', rfl, h⟩

mutual

/-- **Every failure is of one kind.** -/
theorem Node.error_of_render {e : Error} : ∀ (n : Node) {stack : List Item} {s : State},
    n.asksBuiltIn = false → s.hidden = false → n.render context stack s = .error e →
      e = .wholeContext
  | .char c, stack, s, _, _, h => by cases h
  | .value name, stack, s, hn, hs, h => (Node.lookup?_of_error hs hn h).2
  | .part name indented, stack, s, hn, _, h => by
    rw [Node.render_part hn] at h
    cases h
  | .block inverted name body, stack, s, hn, hs, h => by
    obtain ⟨inner, -, hbody⟩ := Node.inside?_of_error hs hn h
    exact Node.error_of_renderAll body (Node.asksBuiltIn_block.1 hn).2 hs hbody

theorem Node.error_of_renderAll {e : Error} : ∀ (ns : List Node) {stack : List Item} {s : State},
    Node.anyAsksBuiltIn ns = false → s.hidden = false →
      Node.renderAll context stack s ns = .error e → e = .wholeContext
  | [], stack, s, _, _, h => by cases h
  | n :: ns, stack, s, hns, hs, h => by
    obtain ⟨hn, hns⟩ := Node.anyAsksBuiltIn_cons.1 hns
    rcases Node.head_or_tail_of_error h with hfirst | ⟨s', hfirst, hrest⟩
    · exact Node.error_of_render n hn hs hfirst
    · exact Node.error_of_renderAll ns hns (Node.clear_render n hn hs hfirst) hrest

end

/-! ## Contexts with numbers that count as false -/

/-- **A context is a lower one** than another if the two differ only in numbers, and its own numbers
count as false there. -/
def Context.Lowers (low context : Context) : Prop :=
  ∀ name, low.lookup name = context.lookup name ∨
    ∃ x x₀, context.lookup name = some (.number x) ∧ low.lookup name = some (.number x₀) ∧
      (Item.scalar (.number x₀)).isTrue = false

/-- What a name stands for in two contexts of which one is lower. -/
def Lowered (low? context? : Option Item) : Prop :=
  low? = context? ∨ ∃ x x₀, context? = some (.scalar (.number x)) ∧
    low? = some (.scalar (.number x₀)) ∧ (Item.scalar (.number x₀)).isTrue = false

theorem lowered_key? (h : low.Lowers context) (name : String) :
    Lowered (Item.key? low .whole name) (Item.key? context .whole name) := by
  rcases h name with heq | ⟨x, x₀, hx, hx₀, hfalse⟩
  · exact .inl (congrArg (Option.map Item.scalar) heq)
  · exact .inr ⟨x, x₀, congrArg (Option.map Item.scalar) hx, congrArg (Option.map Item.scalar) hx₀,
      hfalse⟩

theorem lowered_follow? (h : low.Lowers context) : ∀ names : List String,
    Lowered (Item.follow? low .whole names) (Item.follow? context .whole names) := by
  intro names
  cases names with
  | nil => exact .inl rfl
  | cons name names =>
    have hfollow : ∀ c : Context, Item.follow? c .whole (name :: names)
        = (Item.key? c .whole name).bind fun i => Item.follow? c i names := fun _ => rfl
    rw [hfollow, hfollow]
    rcases lowered_key? h name with heq | ⟨x, x₀, hx, hx₀, hfalse⟩
    · rw [heq]
      cases hpart : Item.key? context .whole name with
      | none => exact .inl rfl
      | some part =>
        exact .inl (Item.follow?_of_ne_whole names (Item.key?_ne_whole hpart))
    · rw [hx, hx₀]
      cases names with
      | nil => exact .inr ⟨x, x₀, rfl, rfl, hfalse⟩
      | cons _ _ => exact .inl rfl

/-- Where every item is the whole, a name stands for the same in both contexts, or for a number. -/
theorem lowered_lookup? (h : low.Lowers context) (n : Nat) (name : String) :
    Lowered (lookup? low (List.replicate (n + 1) .whole) name)
      (lookup? context (List.replicate (n + 1) .whole) name) := by
  unfold lookup?
  by_cases hpoint : name = "."
  · rw [if_pos hpoint, if_pos hpoint]
    exact .inl rfl
  · rw [if_neg hpoint, if_neg hpoint]
    by_cases hdotted : isDotted name = true
    · rw [if_pos hdotted, if_pos hdotted, List.findSome?_replicate_of_pos n.succ_pos,
        List.findSome?_replicate_of_pos n.succ_pos]
      exact lowered_follow? h _
    · rw [if_neg hdotted, if_neg hdotted, List.findSome?_replicate_of_pos n.succ_pos,
        List.findSome?_replicate_of_pos n.succ_pos]
      exact lowered_key? h name

/-- Sections put either a part of the context on a stack of wholes or another whole. -/
theorem inside?_wholes {n : Nat} {inverted : Bool} {inner : List Item}
    (h : inside? context (List.replicate (n + 1) .whole) inverted name = some inner) :
    inner.head? ≠ some .whole ∨ ∃ m, inner = List.replicate (m + 1) .whole := by
  unfold inside? at h
  split at h
  · split at h
    · cases h
      exact .inr ⟨n, rfl⟩
    · cases h
  · rename_i item hitem
    split at h
    · cases h
    · cases h
      split
      · exact .inr ⟨n, rfl⟩
      · cases item with
        | whole => exact .inr ⟨n + 1, rfl⟩
        | half f => exact .inl (by simp [Item.enter])
        | scalar v =>
          cases v with
          | flag b => exact .inr ⟨n, rfl⟩
          | text s => exact .inl (by simp [Item.enter])
          | number x => exact .inl (by simp [Item.enter])
          | nothing => exact .inl (by simp [Item.enter])

/-- Where the body of a section can fail, it is rendered in a lower context too, on the same
stack. -/
theorem inside?_of_lowers (h : low.Lowers context) {n : Nat} {inverted : Bool} {inner : List Item}
    (hinner : inside? context (List.replicate (n + 1) .whole) inverted name = some inner)
    (hhead : inner.head? = some .whole) :
    inside? low (List.replicate (n + 1) .whole) inverted name = some inner := by
  rcases lowered_lookup? h n name with heq | ⟨x, x₀, hx, hx₀, hfalse⟩
  · rwa [inside?, heq]
  · rw [inside?, hx] at hinner
    rw [inside?, hx₀]
    cases inverted with
    | true =>
      simp only [hfalse, if_true] at hinner ⊢
      split at hinner
      · cases hinner
      · exact hinner
    | false =>
      -- the section is on the number, which is then the innermost item
      simp only at hinner
      split at hinner
      · cases hinner
      · cases hinner
        cases hhead

mutual

/-- **A node that fails on a stack of wholes** fails there in every lower context. -/
theorem Node.render_of_lowers (h : low.Lowers context) {e : Error} : ∀ (n : Node) {k : Nat}
    {s s' : State}, n.asksBuiltIn = false → s.hidden = false → s'.hidden = false →
    n.render context (List.replicate (k + 1) .whole) s = .error e →
      n.render low (List.replicate (k + 1) .whole) s' = .error .wholeContext
  | .char c, k, s, s', _, _, _, he => by cases he
  | .value name, k, s, s', hn, hs, hs', he => by
    obtain ⟨hwhole, -⟩ := Node.lookup?_of_error hs hn he
    rcases lowered_lookup? h k name with heq | ⟨x, x₀, hx, -, -⟩
    · rw [Node.render_value_of_some hs' hn (heq.trans hwhole), Item.write_whole]
      rfl
    · rw [hx] at hwhole
      cases hwhole
  | .part name indented, k, s, s', hn, _, _, he => by
    rw [Node.render_part hn] at he
    cases he
  | .block inverted name body, k, s, s', hn, hs, hs', he => by
    obtain ⟨-, hbody⟩ := Node.asksBuiltIn_block.1 hn
    obtain ⟨inner, hinner, he⟩ := Node.inside?_of_error hs hn he
    by_cases hhead : inner.head? = some .whole
    · obtain ⟨m, rfl⟩ := (inside?_wholes hinner).resolve_left fun hne => hne hhead
      rw [Node.render_block hs' hn, inside?_of_lowers h hinner hhead]
      exact Node.renderAll_of_lowers h body hbody hs hs' he
    · obtain ⟨out, hout⟩ : ∃ out, Node.renderAll context inner s body = .ok out :=
        Node.exists_renderAll body hbody hhead hs
      cases hout.symm.trans he

theorem Node.renderAll_of_lowers (h : low.Lowers context) {e : Error} : ∀ (ns : List Node) {k : Nat}
    {s s' : State}, Node.anyAsksBuiltIn ns = false → s.hidden = false → s'.hidden = false →
    Node.renderAll context (List.replicate (k + 1) .whole) s ns = .error e →
      Node.renderAll low (List.replicate (k + 1) .whole) s' ns = .error .wholeContext
  | [], k, s, s', _, _, _, he => by cases he
  | n :: ns, k, s, s', hns, hs, hs', he => by
    obtain ⟨hn, hns⟩ := Node.anyAsksBuiltIn_cons.1 hns
    rw [Node.renderAll]
    -- the lower context may fail earlier, and then for the same reason
    cases hlow : n.render low (List.replicate (k + 1) .whole) s' with
    | error e' => rw [Node.error_of_render n hn hs' hlow]
    | ok out' =>
      rcases Node.head_or_tail_of_error he with hfirst | ⟨out, hfirst, hrest⟩
      · rw [Node.render_of_lowers h n hn hs hs' hfirst] at hlow
        cases hlow
      · exact Node.renderAll_of_lowers h ns hns (Node.clear_render n hn hs hfirst)
          (Node.clear_render n hn hs' hlow) hrest

end

/-- **A template that fails in a context fails in every lower one**, and for the same reason, if it
asks for no built-in member. -/
theorem render_of_lowers (h : low.Lowers context) {template : String} {e : Error}
    (hasks : asksBuiltIn template = false) (he : render template context = .error e) :
    render template low = .error e := by
  unfold render at he ⊢
  cases hparse : parse template with
  | error e' =>
    rw [hparse] at he
    exact he
  | ok nodes =>
    rw [asksBuiltIn_of_parse hparse] at hasks
    rw [hparse] at he
    simp only [bind, Except.bind] at he ⊢
    cases hnodes : Node.renderAll context [.whole] ⟨[], false⟩ nodes with
    | error e' =>
      rw [hnodes] at he
      cases he
      have hlow : Node.renderAll low [.whole] ⟨[], false⟩ nodes = .error .wholeContext :=
        Node.renderAll_of_lowers h (k := 0) nodes hasks rfl rfl hnodes
      rw [hlow, Node.error_of_renderAll nodes hasks rfl hnodes]
    | ok out =>
      rw [hnodes] at he
      cases he

end Template

end LoadTest

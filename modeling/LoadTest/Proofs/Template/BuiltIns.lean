import LoadTest.Template.Render
/-!
# Templates that ask for built-in members

Two kinds of tags reach a built-in member: one that names a part like it, and one whose name is that
of the check of the names that were looked up.  Without such tags the check is never hidden, and
looking a name up is all that rendering does with it.

* `asksBuiltIn`: a tag of the template reaches a built-in member.
* `Node.clear_renderAll`: nodes that do not ask for one leave the check in sight.
* `Node.render_value_of_some`, `Node.render_value_of_none`, `Node.render_block`: what such nodes do.
-/

namespace LoadTest

namespace Template

variable {context : Context} {stack : List Item} {item : Item} {name : String} {s s' : State}

mutual

/-- The node or a node in it reaches a built-in member. -/
def Node.asksBuiltIn : Node → Bool
  | .char _ => false
  | .value name => name == checkName
  | .part name _ => builtIns.contains name
  | .block _ name body => name == checkName || Node.anyAsksBuiltIn body

/-- One of the nodes or a node in them reaches a built-in member. -/
def Node.anyAsksBuiltIn : List Node → Bool
  | [] => false
  | n :: ns => n.asksBuiltIn || Node.anyAsksBuiltIn ns

end

/-- **A template asks for a built-in member** if it can be parsed and one of its tags reaches one:
a tag that looks up the name of the check, or a part that is named like a built-in member. -/
def asksBuiltIn (template : String) : Bool :=
  match parse template with
  | .error _ => false
  | .ok nodes => Node.anyAsksBuiltIn nodes

theorem asksBuiltIn_of_parse {template : String} {nodes : List Node}
    (h : parse template = .ok nodes) : asksBuiltIn template = Node.anyAsksBuiltIn nodes := by
  rw [asksBuiltIn, h]

theorem Node.anyAsksBuiltIn_cons {n : Node} {ns : List Node} :
    anyAsksBuiltIn (n :: ns) = false ↔ n.asksBuiltIn = false ∧ anyAsksBuiltIn ns = false := by
  rw [anyAsksBuiltIn, Bool.or_eq_false_iff]

theorem Node.asksBuiltIn_block {inverted : Bool} {body : List Node} :
    (Node.block inverted name body).asksBuiltIn = false ↔
      (name == checkName) = false ∧ anyAsksBuiltIn body = false := by
  rw [asksBuiltIn, Bool.or_eq_false_iff]

/-! ## States with the check in sight -/

namespace State

/-- Where the check is in sight, looking up another name changes nothing. -/
theorem lookup_of_clear (hs : s.hidden = false) (hname : (name == checkName) = false) :
    s.lookup context stack name = .ok (lookup? context stack name, s) := by
  cases s
  cases hs
  rw [lookup, hname]
  rfl

theorem enter_of_clear (hs : s.hidden = false) (item : Item) : s.enter item = s := by
  cases s
  cases hs
  cases item with
  | whole => rfl
  | scalar v => cases v <;> rfl
  | half f => rfl

theorem leave_of_clear (hs : s.hidden = false) {inner : State} (hinner : inner.hidden = false)
    (item : Item) : s.leave inner item = inner := by
  cases s
  cases hs
  cases inner
  cases hinner
  cases item with
  | whole => rfl
  | scalar v => cases v <;> rfl
  | half f => rfl

end State

/-! ## Nodes that do not ask for built-in members -/

namespace Node

theorem render_value_of_some (hs : s.hidden = false) (hname : (name == checkName) = false)
    (h : lookup? context stack name = some item) :
    render context stack s (.value name) = item.write.map s.write := by
  rw [render, State.lookup_of_clear hs hname, h]

theorem render_value_of_none (hs : s.hidden = false) (hname : (name == checkName) = false)
    (h : lookup? context stack name = none) : render context stack s (.value name) = .ok s := by
  rw [render, State.lookup_of_clear hs hname, h]

/-- **A tag that writes a value** leaves the check in sight. -/
theorem clear_render_value (hs : s.hidden = false) (hname : (name == checkName) = false)
    (h : render context stack s (.value name) = .ok s') : s'.hidden = false := by
  cases hitem : lookup? context stack name with
  | none =>
    rw [render_value_of_none hs hname hitem] at h
    cases h
    exact hs
  | some item =>
    rw [render_value_of_some hs hname hitem] at h
    cases hwrite : item.write with
    | error e =>
      rw [hwrite] at h
      cases h
    | ok fragments =>
      rw [hwrite] at h
      cases h
      exact hs

end Node

/-- The stack on which the body of a section is rendered, if it is rendered at all. -/
def inside? (context : Context) (stack : List Item) (inverted : Bool) (name : String) :
    Option (List Item) :=
  match lookup? context stack name with
  | none => if inverted then some stack else none
  | some item => if item.isTrue = inverted then none
    else some (if inverted then stack else item.enter stack)

namespace Node

/-- **A section renders its body or nothing**, if rendering the body leaves the check in sight. -/
theorem render_block_of_clear (hs : s.hidden = false) (hname : (name == checkName) = false)
    (inverted : Bool) {body : List Node}
    (hbody : ∀ {stack s'}, renderAll context stack s body = .ok s' → s'.hidden = false) :
    render context stack s (.block inverted name body)
      = match inside? context stack inverted name with
        | none => .ok s
        | some inner => renderAll context inner s body := by
  have hleave : ∀ (stack : List Item) (item : Item),
      (renderAll context stack (s.enter item) body).map (fun inner => s.leave inner item)
        = renderAll context stack s body := by
    intro stack item
    rw [State.enter_of_clear hs]
    cases hresult : renderAll context stack s body with
    | error e => rfl
    | ok inner => exact congrArg Except.ok (State.leave_of_clear hs (hbody hresult) item)
  rw [render, State.lookup_of_clear hs hname, inside?]
  cases lookup? context stack name with
  | none => cases inverted <;> rfl
  | some item => cases inverted <;> cases h : item.isTrue <;> simp [h, hleave]

mutual

/-- **A node that asks for no built-in member** leaves the check in sight. -/
theorem clear_render : ∀ (n : Node) {stack : List Item} {s s' : State}, n.asksBuiltIn = false →
    s.hidden = false → n.render context stack s = .ok s' → s'.hidden = false
  | .char c, stack, s, s', _, hs, h => by
    cases h
    exact hs
  | .value name, stack, s, s', hn, hs, h => clear_render_value hs hn h
  | .part name indented, stack, s, s', hn, hs, h => by
    have hpart : builtIns.contains name = false := hn
    rw [render, hpart] at h
    cases h
    exact hs
  | .block inverted name body, stack, s, s', hn, hs, h => by
    obtain ⟨hname, hbody⟩ := asksBuiltIn_block.1 hn
    rw [render_block_of_clear hs hname inverted fun h => clear_renderAll body hbody hs h] at h
    split at h
    · cases h
      exact hs
    · exact clear_renderAll body hbody hs h

theorem clear_renderAll : ∀ (ns : List Node) {stack : List Item} {s s' : State},
    anyAsksBuiltIn ns = false → s.hidden = false → renderAll context stack s ns = .ok s' →
      s'.hidden = false
  | [], stack, s, s', _, hs, h => by
    cases h
    exact hs
  | n :: ns, stack, s, s', hns, hs, h => by
    obtain ⟨hn, hns⟩ := anyAsksBuiltIn_cons.1 hns
    rw [renderAll] at h
    split at h
    · cases h
    · rename_i hfirst
      exact clear_renderAll ns hns (clear_render n hn hs hfirst) h

end

theorem render_block (hs : s.hidden = false) {inverted : Bool} {body : List Node}
    (h : (block inverted name body).asksBuiltIn = false) :
    render context stack s (.block inverted name body)
      = match inside? context stack inverted name with
        | none => .ok s
        | some inner => renderAll context inner s body := by
  obtain ⟨hname, hbody⟩ := asksBuiltIn_block.1 h
  exact render_block_of_clear hs hname inverted fun h => clear_renderAll body hbody hs h

/-- A part that is not named like a built-in member writes nothing. -/
theorem render_part {indented : Bool} (h : (part name indented).asksBuiltIn = false) :
    render context stack s (.part name indented) = .ok s := by
  have hname : builtIns.contains name = false := h
  rw [render, hname]
  rfl

end Node

end Template

end LoadTest

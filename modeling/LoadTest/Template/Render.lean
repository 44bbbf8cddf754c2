import LoadTest.Template.Context
import LoadTest.Template.Node
/-!
# Rendering

The text of a template in a context.  Values are written as they are, without escaping, and are not
rendered in turn.  No template has parts, so a part writes nothing; but in their place built-in
members are found under their own names.

Each item on the stack keeps a record of the names that were looked up while it was the innermost
one.  The record is asked by its built-in check whether it holds a name, so a name that is the name
of the check hides the check once it is kept, and no other name can be looked up there.
-/

namespace LoadTest

namespace Template

/-- The text of an item.  The context as a whole has none. -/
def Item.write : Item → Except Error (List Text.Fragment)
  | .whole => .error .wholeContext
  | .scalar (.text s) => .ok (s.toList.map .char)
  | .scalar (.number x) => .ok (x.toText.map .char)
  | .scalar (.flag b) => .ok ((if b then "true" else "false").toList.map .char)
  | .scalar .nothing => .ok []
  | .half f => .ok [f]

/-- The stack inside a section on an item: a true flag adds nothing to it. -/
def Item.enter (stack : List Item) : Item → List Item
  | .scalar (.flag _) => stack
  | item => item :: stack

/-- How far rendering has come: the fragments so far, which come last first, and whether the check of
the names that were looked up on the innermost item is hidden. -/
structure State where
  done : List Text.Fragment
  hidden : Bool

namespace State

/-- Writes fragments. -/
def write (s : State) (fragments : List Text.Fragment) : State :=
  { s with done := fragments.reverse ++ s.done }

/-- Looks a name up and keeps it. -/
def lookup (s : State) (context : Context) (stack : List Item) (name : String) :
    Except Error (Option Item × State) :=
  if s.hidden then .error .hiddenCheck
  else .ok (lookup? context stack name, { s with hidden := name == checkName })

/-- The state inside a section on an item.  An item that the section puts on the stack keeps no names
yet. -/
def enter (s : State) : Item → State
  | .scalar (.flag _) => s
  | _ => { s with hidden := false }

/-- The state after a section on an item, where `inner` is the state at its end.  An item that the
section put on the stack is gone, and its names with it. -/
def leave (s inner : State) : Item → State
  | .scalar (.flag _) => inner
  | _ => { inner with hidden := s.hidden }

end State

mutual

/-- Renders a node. -/
def Node.render (context : Context) (stack : List Item) (s : State) : Node → Except Error State
  | .char c => .ok (s.write [.char c])
  | .value name =>
    match s.lookup context stack name with
    | .error e => .error e
    | .ok (none, s) => .ok s
    | .ok (some item, s) => item.write.map s.write
  | .part name indented =>
    if builtIns.contains name then .error (.textlessPart indented) else .ok s
  | .block inverted name body =>
    match s.lookup context stack name with
    | .error e => .error e
    | .ok (none, s) => if inverted then renderAll context stack s body else .ok s
    | .ok (some item, s) =>
      if inverted then
        if item.isTrue then .ok s else renderAll context stack s body
      else if item.isTrue then
        (renderAll context (item.enter stack) (s.enter item) body).map fun inner =>
          s.leave inner item
      else .ok s

/-- Renders nodes in order. -/
def Node.renderAll (context : Context) (stack : List Item) (s : State) :
    List Node → Except Error State
  | [] => .ok s
  | n :: ns =>
    match n.render context stack s with
    | .error e => .error e
    | .ok s => Node.renderAll context stack s ns

end

/-- The text of a template in a context. -/
def render (template : String) (context : Context) : Except Error String := do
  let nodes ← parse template
  let s ← Node.renderAll context [.whole] { done := [], hidden := false } nodes
  return String.ofList (Text.join s.done.reverse)

end Template

end LoadTest

import LoadTest.Template.Lexeme
/-!
# Nodes

The nested form of a template: characters, variables, parts, and sections with what is inside them.
-/

namespace LoadTest

namespace Template

/-- A part of a template. -/
inductive Node
  | char (c : Char)
  | value (name : String)
  | part (name : String) (indented : Bool)
  | block (inverted : Bool) (name : String) (body : List Node)

/-- A section that is open: what came before it, last first, is set aside. -/
structure Frame where
  inverted : Bool
  name : String
  before : List Node

/-- The open sections, innermost first, and the nodes of the innermost one, last first. -/
structure Nest where
  open_ : List Frame := []
  nodes : List Node := []

namespace Nest

/-- Adds a lexeme.  A closing tag closes the innermost section, whose name it has to repeat. -/
def add (n : Nest) : Lexeme → Except Error Nest
  | .char c => .ok { n with nodes := .char c :: n.nodes }
  | .tag t offset =>
    match t with
    | .value name => .ok { n with nodes := .value name :: n.nodes }
    | .opens inverted name =>
      .ok { open_ := ⟨inverted, name, n.nodes⟩ :: n.open_, nodes := [] }
    | .closes name =>
      match n.open_ with
      | [] => .error (.unopenedSection name offset)
      | f :: fs =>
        if f.name = name then
          .ok { open_ := fs, nodes := .block f.inverted f.name n.nodes.reverse :: f.before }
        else .error (.unclosedSection f.name offset)
    | .part name indented => .ok { n with nodes := .part name indented :: n.nodes }
    | .delimiters _ => .ok n
    | .silent => .ok n

end Nest

/-- The nodes of a template.  Of several errors the one that comes first is given, and a section
that is left open comes last of all. -/
def parse (template : String) : Except Error (List Node) :=
  let cs := template.toList
  let (lexemes, error?) := Lexeme.ofText cs
  match (Lexeme.settleLines lexemes).foldlM Nest.add {} with
  | .error e => .error e
  | .ok n =>
    match error? with
    | some e => .error e
    | none =>
      match n.open_ with
      | f :: _ => .error (.unclosedSection f.name (Text.units cs))
      | [] => .ok n.nodes.reverse

end Template

end LoadTest

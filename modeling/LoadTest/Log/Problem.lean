import LoadTest.Log.Field
/-!
# Problems in log entries

A record with a text under `message` describes a problem, and the description of what led to it may
stand under `cause`.  A problem is shown with the messages and the stacks of its whole chain, and
with the problems among its fields shown likewise.  That fails, with `none`, where stacks have to be
written one after the other and one of them has no text.
-/

namespace LoadTest

namespace Value

/-- The value of a field, if it counts as true. -/
def trueField? (name : String) (v : Value) : Option Value := (v.field? name).filter isTrue

/-- The message of a problem, if the value describes one. -/
def problem? (v : Value) : Option String := (v.field? "message").bind text?

/-! ## Chains -/

/-- One problem of a chain. -/
structure Link where
  message : String
  stack : Value

/-- The stack of a problem, which is empty if none is given. -/
def stackOf (v : Value) : Value := (v.trueField? "stack").getD (.text "")

mutual

/-- A problem, what led to it, and so on; nothing for any other value. -/
def chain : Value → List Link
  | record fields =>
    match problem? (record fields) with
    | some message => ⟨message, stackOf (record fields)⟩ :: causeChain fields
    | none => []
  | null => []
  | bool _ => []
  | number _ => []
  | text _ => []
  | list _ => []

/-- The chain of the field `cause`. -/
def causeChain : List (String × Value) → List Link
  | [] => []
  | (name, v) :: rest => if name = "cause" then chain v else causeChain rest

end

/-- The message of a chain. -/
def chainMessage (links : List Link) : String := ": ".intercalate (links.map (·.message))

/-- The stack of a chain.  That of a single problem is kept as it is. -/
def chainStack? : List Link → Option Value
  | [link] => some link.stack
  | links => (links.mapM fun (link : Link) => link.stack.toText?).map fun texts =>
    .text (String.ofList ("\ncaused by: ".toList.intercalate texts))

/-! ## Showing a problem -/

/-- What a problem is shown with before its other fields. -/
def problemHead? (v : Value) : Option (List (String × Value)) :=
  let type? :=
    if (v.field? "constructor").isSome then v.field? "name" else some (.text "Object")
  (chainStack? v.chain).map fun stack =>
    given [("type", type?), ("message", some (.text (chainMessage v.chain))),
      ("stack", some stack)]

/-- A field of a problem that is not shown among the others: a name that is `taken` already, or a
cause that is a problem. -/
def isHidden (taken : List String) (name : String) (v : Value) : Bool :=
  taken.contains name || reservedNames.contains name || name == "raw"
    || (name == "cause" && v.problem?.isSome)

mutual

/-- A problem as it is shown; any other value stays as it is. -/
def shownProblem? : Value → Option Value
  | record fields =>
    if (problem? (record fields)).isNone then some (record fields)
    else do
      let head ← problemHead? (record fields)
      let errors ← shownErrors? fields
      let head := head ++ errors
      let others ← shownFields? (head.map (·.1)) fields
      return record (head ++ others)
  | null => some null
  | bool b => some (bool b)
  | number x => some (number x)
  | text s => some (text s)
  | list items => some (list items)

/-- The fields that are not hidden, with the problems among them as they are shown. -/
def shownFields? (taken : List String) : List (String × Value) → Option (List (String × Value))
  | [] => some []
  | (name, v) :: rest => do
    let others ← shownFields? taken rest
    if isHidden taken name v then return others
    let shown ← shownProblem? v
    return (name, shown) :: others

/-- The list under `errors`, with the problems in it as they are shown, under a name of its own. -/
def shownErrors? : List (String × Value) → Option (List (String × Value))
  | [] => some []
  | (name, v) :: rest => if name = "errors" then aggregate? v else shownErrors? rest

/-- A list with the problems in it as they are shown, under a name of its own. -/
def aggregate? : Value → Option (List (String × Value))
  | list items => (shownItems? items).map fun shown => [("aggregateErrors", list shown)]
  | _ => some []

/-- Items, with the problems among them as they are shown. -/
def shownItems? : List Value → Option (List Value)
  | [] => some []
  | v :: vs => do
    let shown ← shownProblem? v
    let others ← shownItems? vs
    return shown :: others

end

end Value

end LoadTest

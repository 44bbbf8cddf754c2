import LoadTest.Log.Problem
/-!
# Contents of log entries

What the content of an entry puts into its record.  Fields are taken as they are, apart from three
kinds.

* **Problems** under `err` are shown with the messages of their chains.
* **Calls.**  A record with a `method`, `headers` and a `socket` is a call that came in from
  outside.  What tells it from other calls is shown under `req`.
* **Names that belong to every record** are written as `written?` says.
-/

namespace LoadTest

namespace Value

/-! ## Calls -/

/-- The value describes a call. -/
def isCall (v : Value) : Bool :=
  ["method", "headers", "socket"].all fun name => (v.trueField? name).isSome

/-- A call as it is shown. -/
def callFields (v : Value) : List (String × Value) :=
  let info? := v.trueField? "info"
  let origin? := info? <|> v.field? "socket"
  let path? := (v.field? "path").filter fun p => p.text?.isSome
  let url? := (v.trueField? "url").map fun url => (url.trueField? "path").getD url
  given
    [("id", v.trueField? "id" <|> info?.bind (field? "id")),
      ("method", v.field? "method"),
      ("url", v.trueField? "originalUrl" <|> path? <|> url?),
      ("query", v.trueField? "query"),
      ("params", v.trueField? "params"),
      ("headers", v.field? "headers"),
      ("remoteAddress", origin?.bind (field? "remoteAddress")),
      ("remotePort", origin?.bind (field? "remotePort"))]

/-! ## Content -/

/-- The field of a record as it is written, if it is. -/
def writtenField : String × Value → Except Fault (List (String × Written))
  | (name, v) =>
    if name = "err" then
      match v.shownProblem? with
      | some shown => .ok [(name, .value shown)]
      | none => .error Fault.noText
    else (written? name v).map fun w? => w?.toList.map fun w => (name, w)

/-- The message that a record puts under `msg`: that of the problem under `err`, unless there is a
field `msg`. -/
def impliedMessage? (v : Value) : Option Value :=
  if (v.field? "msg").isSome then none else (v.trueField? "err").bind (field? "message")

/-- The fields that content puts into a record.  A list gives its items by their numbers, and what
is neither a record nor a list stands under `msg`. -/
def logFields : Value → Except Fault (List (String × Written))
  | list items => .ok (items.zipIdx.map fun (v, i) => (toString i, .value v))
  | record fields =>
    if isCall (record fields) then
      .ok [("req", .value (record (callFields (record fields))))]
    else
      let message : List (String × Written) :=
        (impliedMessage? (record fields)).toList.map fun v => ("msg", .value v)
      (fields.mapM writtenField).map fun written => written.flatten ++ message
  | v => .ok [("msg", .value v)]

end Value

end LoadTest

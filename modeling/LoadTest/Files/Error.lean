import LoadTest.Failure
import LoadTest.Text.Quoted
/-!
# File errors

Why a file could not be opened or read, and how that is worded and reported.
-/

namespace LoadTest

namespace Files

/-- Why a file operation failed. -/
inductive Cause
  /-- Nothing is there, or nothing leads there. -/
  | notFound
  /-- A file stands where a directory is needed. -/
  | notADirectory
  /-- A directory cannot be opened for writing. -/
  | isADirectory
  /-- A directory can be opened, but has no bytes to read. -/
  | unreadable
  /-- A name or the whole path is longer than the system takes. -/
  | nameTooLong
  /-- A path cannot hold the character of number zero. -/
  | nullInPath
  deriving DecidableEq

/-- A failed file operation: the cause and the path as it was given. -/
structure Error where
  cause : Cause
  path : String
  deriving DecidableEq

namespace Cause

/-- The system's name for a cause. -/
def code : Cause → String
  | notFound => "ENOENT"
  | notADirectory => "ENOTDIR"
  | isADirectory => "EISDIR"
  | unreadable => "EISDIR"
  | nameTooLong => "ENAMETOOLONG"
  | nullInPath => "ERR_INVALID_ARG_VALUE"

/-- The system's number for a cause; a path that never reached the system has none. -/
def number? : Cause → Option Int
  | notFound => some (-2)
  | notADirectory => some (-20)
  | isADirectory => some (-21)
  | unreadable => some (-21)
  | nameTooLong => some (-36)
  | nullInPath => none

/-- The system's words for a cause. -/
def words : Cause → String
  | notFound => "no such file or directory"
  | notADirectory => "not a directory"
  | isADirectory => "illegal operation on a directory"
  | unreadable => "illegal operation on a directory"
  | nameTooLong => "name too long"
  | nullInPath => ""

end Cause

namespace Error

/-- The wording of an error.  Only an error of opening names the path. -/
def message (e : Error) : String :=
  match e.cause with
  | .nullInPath =>
    "The argument 'path' must be a string, Uint8Array, or URL without null bytes. Received "
      ++ String.ofList (Text.abbreviated 128 (Text.inspected e.path.toList))
  | .unreadable => e.cause.code ++ ": " ++ e.cause.words ++ ", read"
  | _ => e.cause.code ++ ": " ++ e.cause.words ++ ", open '" ++ e.path ++ "'"

/-- What a log line shows of an error. -/
def fields (e : Error) : List (String × Value) :=
  let code := [("code", Value.text e.cause.code)]
  match e.cause.number? with
  | none => code
  | some n =>
    ("errno", .number (.ofInt n)) :: code ++
      (if e.cause = .unreadable then [("syscall", .text "read")]
      else [("syscall", .text "open"), ("path", .text e.path)])

/-- The error as a fault. -/
def toFault (e : Error) : Fault :=
  { sort := if e.cause = .nullInPath then .wrongType else .general
    message := e.message
    code := some e.cause.code
    fields := e.fields }

/-- How an error is reported where a file was to be read: a missing file has a report of its own,
anything else is passed on as it is. -/
def asInput (e : Error) : Failure :=
  if e.cause = .notFound then
    .reported .inputFileNotFound ("Input file \"" ++ e.path ++ "\" does not exist")
      (some (.record [("filePath", .text e.path)])) (some (.fault e.toFault))
  else .fault e.toFault

/-- How an error is reported where a file was to be written. -/
def asOutput (e : Error) : Failure :=
  .reported .outputWrite ("Failed to write \"" ++ e.path ++ "\"")
    (some (.record [("filePath", .text e.path)])) (some (.fault e.toFault))

end Error

end Files

end LoadTest

import LoadTest.Files.Error
/-!
# Paths and places

A **place** is where something stands in the tree of files: the names that lead to it from the root.
A **path** is a text that names a place, from the root or from the working directory; empty names
and `.` in it lead nowhere, and `..` leads back.
-/

namespace LoadTest

namespace Files

/-- The names that lead from the root to a place. -/
abbrev Place := List String

/-- A path cut into its parts. -/
structure Path where
  /-- The path starts at the root. -/
  isAbsolute : Bool
  /-- The names in the path, empty ones left out. -/
  names : List String
  /-- The path ends in a slash, so it asks for a directory. -/
  endsInSlash : Bool

namespace Path

/-- The most bytes a name may have. -/
def maxName : Nat := 255

/-- The most bytes a path may have. -/
def maxPath : Nat := 4095

/-- Cuts a path into its parts. -/
def ofString (path : String) : Path :=
  let cs := path.toList
  { isAbsolute := cs.head? == some '/'
    names := ((cs.splitOn '/').filter fun name => !name.isEmpty).map String.ofList
    endsInSlash := cs.getLast? == some '/' }

/-- Refuses a text that no path can be. -/
def check (path : String) : Except Cause Unit :=
  if path.toList.contains (Char.ofNat 0) then .error .nullInPath
  else if path = "" then .error .notFound
  else if maxPath < path.utf8ByteSize then .error .nameTooLong
  else .ok ()

end Path

end Files

end LoadTest

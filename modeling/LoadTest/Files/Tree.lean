import LoadTest.Files.Path
import LoadTest.Text.Lines
import LoadTest.Text.Utf8
/-!
# Trees of files

A tree of directories and files, and what reading and writing through paths does in it.  A failed
operation leaves the tree as it was, and a successful write changes one place.
-/

namespace LoadTest

namespace Files

/-- What stands at a place. -/
inductive Item
  | directory
  | file (bytes : List UInt8)
  deriving DecidableEq

/-- The working directory and what stands where.  The root is a directory and is not listed. -/
structure Tree where
  home : Place := []
  items : List (Place × Item) := []

/-- Puts an item at a place, over what stood there. -/
def putItem (place : Place) (item : Item) : List (Place × Item) → List (Place × Item)
  | [] => [(place, item)]
  | (p, i) :: rest => if p = place then (p, item) :: rest else (p, i) :: putItem place item rest

namespace Tree

/-! ## Places -/

/-- What stands at a place. -/
def item? (t : Tree) (place : Place) : Option Item :=
  if place = [] then some .directory else t.items.lookup place

/-- The tree with an item put at a place. -/
def put (t : Tree) (place : Place) (item : Item) : Tree :=
  { t with items := putItem place item t.items }

/-- The tree with directories at a place and at all places that lead to it from `above`. -/
def makeDirectories (t : Tree) (above : Place) : List String → Tree
  | [] => t
  | name :: names =>
    let place := above ++ [name]
    let t := if (t.item? place).isSome then t else t.put place .directory
    t.makeDirectories place names

/-! ## Following a path -/

/-- The directory that names lead to from a directory. -/
def walk (t : Tree) (dir : Place) : List String → Except Cause Place
  | [] => .ok dir
  | name :: names =>
    if name = "." then t.walk dir names
    else if name = ".." then t.walk dir.dropLast names
    else if Path.maxName < name.utf8ByteSize then .error .nameTooLong
    else
      match t.item? (dir ++ [name]) with
      | none => .error .notFound
      | some (.file _) => .error .notADirectory
      | some .directory => t.walk (dir ++ [name]) names

/-- What a path asks for: a directory on the way, or a name in a directory. -/
inductive Target
  | passed
  | named (dir : Place) (name : String) (asDirectory : Bool)

/-- Follows a path up to its last name. -/
def target (t : Tree) (path : String) : Except Cause Target := do
  Path.check path
  let p := Path.ofString path
  let start := if p.isAbsolute then [] else t.home
  match p.names.getLast? with
  | none => return .passed
  | some last =>
    let dir ← t.walk start p.names.dropLast
    if last = "." ∨ last = ".." then return .passed
    else return .named dir last p.endsInSlash

/-! ## Bytes -/

/-- The bytes of the file that a path names. -/
def readBytes (t : Tree) (path : String) : Except Error (List UInt8) :=
  let result : Except Cause (List UInt8) := do
    match ← t.target path with
    | .passed => throw .unreadable
    | .named dir name asDirectory =>
      if Path.maxName < name.utf8ByteSize then throw .nameTooLong
      match t.item? (dir ++ [name]) with
      | none => throw .notFound
      | some .directory => throw .unreadable
      | some (.file bytes) => if asDirectory then throw .notADirectory else return bytes
  result.mapError fun cause => ⟨cause, path⟩

/-- The place of the file that a path names for writing. -/
def writePlace (t : Tree) (path : String) : Except Cause Place := do
  match ← t.target path with
  | .passed => throw .isADirectory
  | .named dir name asDirectory =>
    if asDirectory then throw .isADirectory
    if Path.maxName < name.utf8ByteSize then throw .nameTooLong
    match t.item? (dir ++ [name]) with
    | some .directory => throw .isADirectory
    | _ => return dir ++ [name]

/-- Writes a file over what it held before. -/
def writeBytes (t : Tree) (path : String) (bytes : List UInt8) : Except Error Tree :=
  match t.writePlace path with
  | .ok place => .ok (t.put place (.file bytes))
  | .error cause => .error ⟨cause, path⟩

/-! ## Text -/

/-- The text of a file. -/
def readText (t : Tree) (path : String) : Except Error String :=
  (t.readBytes path).map fun bytes => String.ofList (Utf8.decode bytes)

/-- The lines of a file. -/
def readLines (t : Tree) (path : String) : Except Error (List String) :=
  (t.readBytes path).map fun bytes => (Lines.ofText (Utf8.decode bytes)).map String.ofList

/-- Writes a text to a file. -/
def writeText (t : Tree) (path : String) (text : String) : Except Error Tree :=
  t.writeBytes path (Utf8.encode text.toList)

/-! ## Listing -/

/-- The names that lead from one place to another below it. -/
def below? : Place → Place → Option (List String)
  | [], names => some names
  | _ :: _, [] => none
  | a :: as, b :: bs => if a = b then below? as bs else none

/-- What stands below the working directory, by its path from there. -/
def listing (t : Tree) : List (String × Item) :=
  t.items.filterMap fun (place, item) =>
    match below? t.home place with
    | some (name :: names) => some ("/".intercalate (name :: names), item)
    | _ => none

/-- What stands below the working directory and did not, or held something else, in an earlier
tree. -/
def changesSince (t earlier : Tree) : List (String × Item) :=
  let old := earlier.listing
  t.listing.filter fun (path, item) => old.lookup path != some item

end Tree

end Files

end LoadTest

import FlatHeader.Files.Access

/-!
# A file system as a value

Files and directories in a tree below the root, and a working directory from which paths lead that
do not start at the root. There are no links, and everything may be read and written.
-/

namespace FlatHeader

open Text

/-- A place in the tree: the names on the way to it, the last one first. The root has none. -/
abbrev Place := List Text

/-- What is at a place. -/
inductive Entry where
  | directory
  /-- A file. If its bytes are no text, it has no contents that could be read. -/
  | file (contents : Option Text)
deriving DecidableEq

/-- The entries of a tree by their places, and the working directory. -/
structure FileSystem where
  entries : List (Place × Entry)
  workingDirectory : Place

namespace FileSystem

/-- What is at a place, if there is anything. The root is always a directory. -/
def entry? (s : FileSystem) (place : Place) : Option Entry :=
  if place = [] then some .directory else (s.entries.find? (·.1 == place)).map Prod.snd

/-- The file system with an entry at a place, instead of what is there. -/
def put (s : FileSystem) (place : Place) (e : Entry) : FileSystem :=
  { s with entries := (place, e) :: s.entries.filter (·.1 != place) }

/-- The file system with a directory at a place, and with those on the way to it. -/
def makeDirectory (s : FileSystem) : Place → FileSystem
  | [] => s
  | name :: rest => (s.makeDirectory rest).put (name :: rest) .directory

/-! ## Where paths lead -/

/-- The greatest number of bytes in a name. -/
def maxNameSize : Nat := 255

/-- The least number of bytes that is too much for a path. -/
def pathSizeLimit : Nat := 4096

/-- The directory that a name leads to from a directory. Nothing and a dot lead nowhere else, two
dots lead up. -/
def enter (s : FileSystem) (place : Place) (name : Text) : Except FileError Place :=
  if name = [] || name = ['.'] then .ok place
  else if name = ['.', '.'] then .ok place.tail
  else if maxNameSize < byteSize name then .error .nameTooLong
  else match s.entry? (name :: place) with
    | some .directory => .ok (name :: place)
    | some (.file _) => .error .notADirectory
    | none => .error .notFound

/-- The directory a path starts from. -/
def startOf (s : FileSystem) (path : Text) : Place :=
  if path.head? = some '/' then [] else s.workingDirectory

/-- The directory that all names of a path but the last one lead to, and the last name. Behind a
slash at the end there is one more name, which is nothing. -/
def locate (s : FileSystem) (path : Text) : Except FileError (Place × Text) :=
  let names := splitOn '/' path
  if path = [] then .error .notFound
  else if pathSizeLimit ≤ byteSize path then .error .nameTooLong
  else (names.dropLast.foldlM s.enter (s.startOf path)).map (·, names.getLastD [])

/-! ## Files -/

/-- The contents of the file that a path leads to, or nothing if they are no text. -/
def fileAt (s : FileSystem) (path : Text) : Except FileError (Option Text) :=
  match s.locate path with
  | .error e => .error e
  | .ok (place, name) =>
    if name = [] || name = ['.'] || name = ['.', '.'] then .error .isADirectory
    else if maxNameSize < byteSize name then .error .nameTooLong
    else match s.entry? (name :: place) with
      | some (.file contents) => .ok contents
      | some .directory => .error .isADirectory
      | none => .error .notFound

/-- Whether a path leads to a file. -/
def isFile (s : FileSystem) (path : Text) : Bool :=
  match s.fileAt path with
  | .ok _ => true
  | .error _ => false

/-- The text in the file that a path leads to. -/
def readText (s : FileSystem) (path : Text) : Except FileError Text :=
  match s.fileAt path with
  | .ok (some contents) => .ok contents
  | .ok none => .error .notText
  | .error e => .error e

/-- The place of the file that a path leads to, which need not be there yet. A path that ends with
a slash leads to no file. -/
def placeToWrite (s : FileSystem) (path : Text) : Except FileError Place :=
  let path' := dropEndWhile (· == '/') path
  if path = [] then .error .notFound
  else if pathSizeLimit ≤ byteSize path then .error .nameTooLong
  else if path' = [] then .error .isADirectory
  else match s.locate path' with
    | .error e => .error e
    | .ok (place, name) =>
      if path' ≠ path || name = ['.'] || name = ['.', '.'] then .error .isADirectory
      else if maxNameSize < byteSize name then .error .nameTooLong
      else if s.entry? (name :: place) = some .directory then .error .isADirectory
      else .ok (name :: place)

/-- The file system with the text in the file that a path leads to. -/
def writeText (s : FileSystem) (path contents : Text) : Except FileError FileSystem :=
  (s.placeToWrite path).map fun place => s.put place (.file (some contents))

end FileSystem

end FlatHeader

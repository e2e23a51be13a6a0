import FlatHeader.Text.Basic

/-!
# Access to files

The little that a program has to do with files: to ask whether there is one, to read it and to
write it. Paths are given as text.
-/

namespace FlatHeader

/-- Why a file cannot be read or written. -/
inductive FileError where
  | notFound
  /-- Something within the path is a file, where a directory has to be. -/
  | notADirectory
  | isADirectory
  | nameTooLong
  /-- The bytes of the file are not the UTF-8 encoding of a text. -/
  | notText
  /-- A cause that the system gives a number. -/
  | system (description : String) (number : Nat)
  | other (description : String)
deriving DecidableEq

namespace FileError

/-- A description with the number by which the system knows the cause. -/
def numbered (description : String) (number : Nat) : String :=
  s!"{description} (os error {number})"

/-- The sentence shown for an error. -/
def message : FileError → String
  | notFound => numbered "No such file or directory" 2
  | notADirectory => numbered "Not a directory" 20
  | isADirectory => numbered "Is a directory" 21
  | nameTooLong => numbered "File name too long" 36
  | notText => "stream did not contain valid UTF-8"
  | system description number => numbered description number
  | other description => description

end FileError

/-- Actions that have to do with files. -/
class FileAccess (m : Type → Type) where
  /-- Whether a path leads to a file; a directory is none. -/
  isFile (path : Text) : m Bool
  /-- The contents of a file. -/
  read (path : Text) : m (Except FileError Text)
  /-- Gives a file its contents, and makes the file if there is none. -/
  write (path contents : Text) : m (Except FileError Unit)

/-! ## Paths -/

/-- The path that leads to `path` from the directory `base`. A path from the root leads there from
everywhere. -/
def joinPaths (base path : Text) : Text :=
  if path.head? = some '/' then path
  else if base.getLast?.all (· == '/') then base ++ path
  else base ++ '/' :: path

end FlatHeader

import Chip8.Error

/-! # Folders

Finding a file in a folder by its path. -/

namespace Chip8

/-- What a path leads to. -/
inductive Opened
  | file (contents : List UInt8)
  /-- Something that can be opened but not read. -/
  | unreadable (e : DeviceError)
deriving DecidableEq, Repr

/-- A directory can be opened but not read. -/
def Opened.directory : Opened := .unreadable ⟨"Is a directory (os error 21)"⟩

/-- Why a path leads nowhere. -/
inductive OpenError
  | notFound
  | notDirectory
  | nameTooLong
  /-- A path with a NUL byte in it is refused before anything is looked up. -/
  | nulInName
deriving DecidableEq, Repr

namespace OpenError

/-- The number that the system gives to the cause, if the system was asked at all. -/
def code : OpenError → Option Nat
  | notFound => some 2
  | notDirectory => some 20
  | nameTooLong => some 36
  | nulInName => none

def kind : OpenError → String
  | notFound => "NotFound"
  | notDirectory => "NotADirectory"
  | nameTooLong => "InvalidFilename"
  | nulInName => "InvalidInput"

def message : OpenError → String
  | notFound => "No such file or directory"
  | notDirectory => "Not a directory"
  | nameTooLong => "File name too long"
  | nulInName => "file name contained an unexpected NUL byte"

/-- Number, kind and message on one line. -/
def describe (e : OpenError) : String :=
  let number := match e.code with
    | some n => "Os \x7b code: " ++ Numeral.decimal n ++ ", "
    | none => "Error \x7b "
  number ++ "kind: " ++ e.kind ++ ", message: \"" ++ e.message ++ "\" \x7d"

end OpenError

/-- The files in a folder, by name. -/
structure Folder where
  files : List (String × List UInt8)
deriving DecidableEq, Repr

namespace Folder

/-- What is known of the root and of the folders above: no file in them has a name. -/
def outside : Folder := ⟨[]⟩

/-- The names between the slashes of a path. -/
def names (path : String) : List String := (path.splitOn "/").filter (· ≠ "")

/-- A name may have 255 bytes. -/
def nameLimit : Nat := 255

/-- A whole path may have 4095 bytes. -/
def pathLimit : Nat := 4095

/-- Follows names that start in the folder. Two dots lead outside, and from the root back to it.
Behind a file there can be nothing. -/
def follow (f : Folder) (mustBeDirectory : Bool) : List String → Except OpenError Opened
  | [] => .ok .directory
  | "." :: rest => follow f mustBeDirectory rest
  | ".." :: rest => follow outside mustBeDirectory rest
  | name :: rest =>
    if nameLimit < name.utf8ByteSize then .error .nameTooLong
    else match f.files.lookup name with
      | none => .error .notFound
      | some contents =>
        if rest = [] ∧ !mustBeDirectory then .ok (.file contents) else .error .notDirectory

/-- Opens a path; one that ends in a slash has to lead to a directory, and one that starts with a
slash leads out of the folder. The empty path leads nowhere. -/
def openPath (f : Folder) (path : String) : Except OpenError Opened :=
  if path.contains '\x00' then .error .nulInName
  else if path = "" then .error .notFound
  else if pathLimit < path.utf8ByteSize then .error .nameTooLong
  else follow (if path.startsWith "/" then outside else f) (path.endsWith "/") (names path)

end Folder

end Chip8

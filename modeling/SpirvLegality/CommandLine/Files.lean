/-!
# Files

Reading a file by its path either yields bytes or fails with a `FileError`. `FileTree` holds files
in memory, and `FileTree.read` finds one along a path: names divided by slashes, where a point stays
in a directory and two points leave it, and where every name but the last must lead to a directory.
-/

namespace SpirvLegality.CommandLine

/-- Why a file cannot be read. -/
inductive FileError where
  | notFound
  | notDirectory
  | isDirectory
  | nameTooLong
  | denied
  | notText
  /-- Another reason, in the words of the system. -/
  | other (reason : String)
deriving DecidableEq, Repr

/-- The wording of a file error, with the number that the system gives to it. -/
def FileError.message : FileError → String
  | .notFound => "No such file or directory (os error 2)"
  | .denied => "Permission denied (os error 13)"
  | .notDirectory => "Not a directory (os error 20)"
  | .isDirectory => "Is a directory (os error 21)"
  | .nameTooLong => "File name too long (os error 36)"
  | .notText => "stream did not contain valid UTF-8"
  | .other reason => reason

/-- What reading the file at a path yields. -/
abbrev Files := String → Except FileError ByteArray

/-- Files held in memory. A place in the tree is the list of the names that lead to it from the
root. -/
structure FileTree where
  files : List (List String × ByteArray)
  /-- The place where a path begins that does not begin at the root. -/
  workingDirectory : List String

namespace FileTree

/-- What stands at a place. -/
inductive Entry where
  | file (content : ByteArray)
  | directory
  | nothing

/-- What stands at a place. The places above a file or the working directory are directories. -/
def entry (tree : FileTree) (place : List String) : Entry :=
  match tree.files.lookup place with
  | some content => .file content
  | none =>
    if (tree.workingDirectory :: tree.files.map Prod.fst).any place.isPrefixOf then .directory
    else .nothing

/-- The greatest length of a name, in bytes. -/
def nameLimit : Nat := 255

/-- The greatest length of a path, in bytes. -/
def pathLimit : Nat := 4095

/-- Reads the file to which some names lead from a place. -/
def readFrom (tree : FileTree) (place : List String) : List String → Except FileError ByteArray
  | [] =>
    match tree.entry place with
    | .file content => .ok content
    | .directory => .error .isDirectory
    | .nothing => .error .notFound
  | name :: rest =>
    match tree.entry place with
    | .file _ => .error .notDirectory
    | .nothing => .error .notFound
    | .directory =>
      if name = "" ∨ name = "." then tree.readFrom place rest
      else if name = ".." then tree.readFrom place.dropLast rest
      else if name.utf8ByteSize > nameLimit then .error .nameTooLong
      else tree.readFrom (place ++ [name]) rest

/-- The names of a path. -/
def names (path : String) : List String := (path.toList.splitOn '/').map String.ofList

/-- Reads the file at a path. -/
def read (tree : FileTree) (path : String) : Except FileError ByteArray :=
  if path.isEmpty then .error .notFound
  else if path.utf8ByteSize > pathLimit then .error .nameTooLong
  else
    tree.readFrom (if path.toList.head? = some '/' then [] else tree.workingDirectory)
      (names path)

end FileTree

end SpirvLegality.CommandLine

import Liveset.Path

/-!
# File trees

A snapshot of files and directories. Every place is given by its names from the root. A directory
exists when it is listed, when something lies in it, or when it leads to the working directory. A
path is followed piece by piece, as a file system does: every piece but the last must lead to a
directory, and a slash or dot after a plain file is a fault. A relative path starts in the working
directory, and the directory above the root is the root.

What this module delivers: `FileTree`, `FileTree.locate`, `FileTree.read` and the reasons why
reading fails.
-/

set_option autoImplicit false

namespace Liveset

/-- Why a file cannot be read. -/
inductive ReadFailure where
  | notFound
  | isDirectory
  | notDirectory
  | notText
deriving DecidableEq, Inhabited, Repr

/-- The wording of a reason. -/
def ReadFailure.message : ReadFailure → String
  | .notFound => "No such file or directory (os error 2)"
  | .isDirectory => "Is a directory (os error 21)"
  | .notDirectory => "Not a directory (os error 20)"
  | .notText => "stream did not contain valid UTF-8"

/-- Files with their contents and directories, each by its names from the root. -/
structure FileTree where
  /-- The working directory. -/
  base : List String := []
  files : List (List String × ByteArray) := []
  directories : List (List String) := []
deriving Inhabited

namespace FileTree

/-- What is found at a place. -/
inductive Found where
  | file (contents : ByteArray)
  | directory
  | nothing
deriving Inhabited

/-- What is found under the given names. -/
def found (tree : FileTree) (names : List String) : Found :=
  match tree.files.lookup names with
  | some contents => .file contents
  | none =>
    if names.isPrefixOf tree.base ∨ tree.directories.any names.isPrefixOf
        ∨ tree.files.any (fun file => names.isPrefixOf file.1) then .directory
    else .nothing

/-- Follow one piece of a path. -/
def follow (tree : FileTree) (place : List String) (piece : String) :
    Except ReadFailure (List String) :=
  match tree.found place with
  | .nothing => .error .notFound
  | .file _ => .error .notDirectory
  | .directory =>
    if piece = "" ∨ piece = "." then .ok place
    else if piece = ".." then .ok place.dropLast
    else .ok (place ++ [piece])

/-- Follow the pieces of a path one after the other. -/
def followAll (tree : FileTree) (place : List String) :
    List String → Except ReadFailure (List String)
  | [] => .ok place
  | piece :: rest =>
    match tree.follow place piece with
    | .error failure => .error failure
    | .ok next => followAll tree next rest

/-- What a path leads to. The empty path leads nowhere. -/
def locate (tree : FileTree) (path : Path) : Except ReadFailure Found :=
  if path.pieces = [""] then .error .notFound
  else
    let start := if path.isAbsolute then [] else tree.base
    match tree.followAll start path.pieces with
    | .error failure => .error failure
    | .ok place => .ok (tree.found place)

/-- The contents of the file at a path. -/
def contents (tree : FileTree) (path : Path) : Except ReadFailure ByteArray :=
  match tree.locate path with
  | .error failure => .error failure
  | .ok .nothing => .error .notFound
  | .ok .directory => .error .isDirectory
  | .ok (.file contents) => .ok contents

/-- The text of the file at a path. -/
def read (tree : FileTree) (path : Path) : Except ReadFailure String :=
  match tree.contents path with
  | .error failure => .error failure
  | .ok contents =>
    match String.fromUTF8? contents with
    | some text => .ok text
    | none => .error .notText

end FileTree

end Liveset

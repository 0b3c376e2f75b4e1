import Liveset.CommandLine.Outcome

/-!
# The program

The outer layer of the command line: it takes a snapshot of the files that an invocation names, asks
`CommandLine.outcome` what they lead to, and prints that. It does not return where there is no
outcome.
-/

set_option autoImplicit false

namespace Liveset.CommandLine

/-- How the program is called. -/
def usage : String :=
  "Usage: liveset [OPTIONS] COMMAND\n\n" ++
  "Commands:\n" ++
  "  analyze PROGRAM [-r|--root NAME]... [--json]\n" ++
  "      Compute the reachable set and list reachable types\n" ++
  "  explain PROGRAM NAME [-r|--root NAME]...\n" ++
  "      Explain why an entity is retained\n" ++
  "  help [COMMAND]\n" ++
  "      Print this help\n\n" ++
  "Options:\n" ++
  "  -c, --config FILE   Settings file (default: retain.toml next to the program)\n" ++
  "      --classes DIR   Directory of foreign class descriptions\n" ++
  "  -h, --help          Print this help\n"

/-- The names from the root that a path leads to, by its text alone. -/
def placeOf (base : List String) (path : Path) : List String :=
  path.pieces.foldl
    (fun place piece =>
      if piece = "" ∨ piece = "." then place
      else if piece = ".." then place.dropLast
      else place ++ [piece])
    (if path.isAbsolute then [] else base)

/-- Add the file or directory at a path to a snapshot. -/
def captureOne (tree : FileTree) (path : Path) : IO FileTree := do
  let place := placeOf tree.base path
  let there := (← IO.currentDir).join path.text
  if ← there.isDir then return { tree with directories := place :: tree.directories }
  if ← there.pathExists then
    return { tree with files := (place, ← IO.FS.readBinFile there) :: tree.files }
  return tree

/-- Add what lies along a path to a snapshot. -/
def capture (tree : FileTree) (path : Path) : IO FileTree :=
  (List.range path.pieces.length).foldlM
    (fun tree n => captureOne tree ⟨path.pieces.take (n + 1)⟩) tree

/-- Add everything below a directory to a snapshot. -/
partial def captureBelow (tree : FileTree) (path : Path) : IO FileTree := do
  let there := (← IO.currentDir).join path.text
  unless ← there.isDir do return tree
  let mut tree := tree
  for entry in ← there.readDir do
    let inner := path.push entry.fileName
    tree ← captureOne tree inner
    tree ← captureBelow tree inner
  return tree

/-- A snapshot of the files that an invocation names: the program, the settings and, once the
settings are known, everything in the class directory. -/
def snapshot (i : Invocation) : IO FileTree := do
  let base := (← IO.currentDir).components.filter (· ≠ "")
  let tree ← capture { base } i.programPath
  let tree ← capture tree i.settingsPath
  match Settings.load tree i.settingsPath with
  | .error _ => return tree
  | .ok settings =>
    let directory := i.classDirectory settings
    captureBelow (← capture tree directory) directory

/-- Go on for ever, where a command has no outcome. -/
partial def neverReturn {α : Type} [Inhabited α] : IO α := do
  IO.sleep 1000
  neverReturn

end Liveset.CommandLine

open Liveset.CommandLine in
/-- Run the command line. -/
def main (arguments : List String) : IO UInt32 := do
  let tree ← match Invocation.parse arguments with
    | .error _ => pure {}
    | .ok invocation => snapshot invocation
  let result ← match outcome tree arguments with
    | some result => pure result
    | none => neverReturn
  match result with
  | .refused .helpRequested => IO.print usage
  | .refused .misuse => IO.eprint usage
  | .failed failure => IO.eprintln ("Error: " ++ failure.message)
  | .printed text => IO.print text
  return UInt32.ofNat result.status

/-!
# Paths

A path is a text whose pieces are separated by slashes. Pieces are kept as they were written, so a
path prints as it was given: `a//b` has an empty piece in the middle, `a/` one at the end, and `/a`
one at the front, which makes it absolute.

Where a path leads depends on its components only. Empty pieces and pieces that are a single dot are
no components, except that a dot at the very front stands for the current directory.

What this module delivers: `Path` with `ofText` and `text`, `components`, `join`, `parent?` and
`withExtension`.
-/

set_option autoImplicit false

namespace Liveset

/-- A path, as the pieces between its slashes. -/
structure Path where
  pieces : List String
deriving DecidableEq, Inhabited, Repr

namespace Path

/-! ## Text -/

/-- Cut characters at every slash. There is always at least one piece. -/
def cut : List Char → List (List Char)
  | [] => [[]]
  | '/' :: rest => [] :: cut rest
  | c :: rest =>
    match cut rest with
    | [] => [[c]]
    | piece :: pieces => (c :: piece) :: pieces

/-- The path with a written text. -/
def ofText (text : String) : Path := ⟨(cut text.toList).map String.ofList⟩

/-- The written text. -/
def text (path : Path) : String := String.intercalate "/" path.pieces

/-- The path with the empty text. -/
def empty : Path := ⟨[""]⟩

/-! ## Components -/

/-- A component of a path. -/
inductive Component where
  | root
  | current
  | parent
  | normal (name : String)
deriving DecidableEq, Inhabited, Repr

/-- Does the text begin with a slash? -/
def isAbsolute (path : Path) : Bool :=
  match path.pieces with
  | "" :: _ :: _ => true
  | _ => false

/-- The component of a piece that does not stand at the front. -/
def component? (piece : String) : Option Component :=
  if piece = "" ∨ piece = "." then none
  else if piece = ".." then some .parent
  else some (.normal piece)

/-- The component of the front piece of a path. -/
def frontComponent? (absolute : Bool) (piece : String) : Option Component :=
  if absolute then some .root
  else if piece = "." then some .current
  else component? piece

/-- The components of a path. -/
def components (path : Path) : List Component :=
  match path.pieces with
  | [] => []
  | front :: rest =>
    (frontComponent? path.isAbsolute front).toList ++ rest.filterMap component?

/-! ## Joining -/

/-- Go on from `base` along `path`. An absolute path starts anew; otherwise a slash is put between
the two, unless `base` is empty or ends in one. -/
def join (base path : Path) : Path :=
  if path.isAbsolute then path
  else if base.pieces.getLast? = some "" then ⟨base.pieces.dropLast ++ path.pieces⟩
  else ⟨base.pieces ++ path.pieces⟩

/-- Append one piece. -/
def push (base : Path) (piece : String) : Path :=
  if base.pieces.getLast? = some "" then ⟨base.pieces.dropLast ++ [piece]⟩
  else ⟨base.pieces ++ [piece]⟩

/-! ## The last component -/

/-- Does a piece stand for no component, if it does not stand at the front? -/
def isIdle (piece : String) : Bool := piece = "" || piece = "."

/-- Drop the idle pieces at the end; pieces stand last first, and the front piece stays. -/
def trimBack : List String → List String
  | [] => []
  | [front] => [front]
  | piece :: next :: rest => if isIdle piece then trimBack (next :: rest) else piece :: next :: rest

/-- The pieces without the idle ones at the end. -/
def trimmed (path : Path) : List String := (trimBack path.pieces.reverse).reverse

/-- The path of the pieces in front of a last component. A lone empty piece is the root of an
absolute path. -/
def ofFront (absolute : Bool) (pieces : List String) : Path :=
  match (trimBack pieces.reverse).reverse with
  | [] => empty
  | [""] => if absolute then ⟨["", ""]⟩ else empty
  | kept => ⟨kept⟩

/-- The path without its last component; a path without components, and the root, have none. -/
def parent? (path : Path) : Option Path :=
  match path.trimmed with
  | [] => none
  | [""] => none
  | pieces => some (ofFront path.isAbsolute pieces.dropLast)

/-- A name up to its last dot. A name whose only dot stands in front has no extension. -/
def stem (name : String) : String :=
  let back := name.toList.reverse
  match (back.dropWhile (· ≠ '.')).drop 1 with
  | [] => name
  | kept => String.ofList kept.reverse

/-- Replace the extension of the last component, if that is a name; what follows it is cut off. -/
def withExtension (path : Path) (extension : String) : Path :=
  match path.trimmed.reverse with
  | [] => path
  | name :: front =>
    if name = ".." ∨ name = "" ∨ (name = "." ∧ front = []) then path
    else ⟨(front.reverse) ++ [stem name ++ "." ++ extension]⟩

end Path

end Liveset

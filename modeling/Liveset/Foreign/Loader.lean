import Liveset.Foreign.ClassFile
import Liveset.Error

/-!
# Loaders

A loader finds the description of a foreign class by its name. It answers `ok none` for a class that
does not exist, and with a failure for one that exists and cannot be read. All descriptions that it
can ever give are listed beside it: that there are finitely many of them is what bounds a pass that
follows classes to their parents. So whatever is said of all loaders is said of those with finitely
many descriptions. Over a source whose classes have endlessly many ancestors a marking need not
return; one that returns has asked for finitely many names, and is also the marking over a loader
that knows just these.

Two loaders are given: one over classes held in memory, where of two classes with the same normal
name the later one counts, and one over a directory of documents.
-/

set_option autoImplicit false

namespace Liveset

/-- A source of class descriptions, finitely many of them. -/
structure Loader where
  /-- Find a class by its name. -/
  load : String → Except Error (Option ClassFile)
  /-- Every description that can be found. -/
  classes : List ClassFile
  /-- Nothing else is ever found. -/
  mem_classes : ∀ name c, load name = .ok (some c) → c ∈ classes

namespace Loader

/-! ## Classes in memory -/

/-- The last of the classes with this normal name. -/
def findLast? (classes : List ClassFile) (name : String) : Option ClassFile :=
  classes.reverse.find? fun c => normalizeClassName c.name = normalizeClassName name

/-- A loader over the given classes. -/
def ofClasses (classes : List ClassFile) : Loader where
  load name := .ok (findLast? classes name)
  classes := classes
  mem_classes name c found := by
    have : findLast? classes name = some c := by simpa using found
    simpa using List.mem_of_find?_eq_some this

/-- A loader that finds nothing. -/
def empty : Loader := ofClasses []

/-! ## A directory of documents -/

/-- The path of the document that describes a class: one piece per segment of the normal name, and
the last component with the extension `json`. -/
def classPath (root : Path) (name : String) : Path :=
  ((Path.ofText (normalizeClassName name)).pieces.foldl Path.push root).withExtension "json"

/-- Read a class description from the contents of a file. -/
def decode (path : Path) (contents : ByteArray) : Except Error ClassFile :=
  match String.fromUTF8? contents with
  | none => .error (.unreadable path .notText)
  | some text =>
    match ClassFile.parse? text with
    | none => .error .malformedDocument
    | some c => .ok c

/-- The description in the contents of a file, if there is one. -/
def described? (contents : ByteArray) : Option ClassFile :=
  (String.fromUTF8? contents).bind ClassFile.parse?

/-- Find a class below a directory. A path that does not lead to a plain file is a miss. -/
def loadFrom (tree : FileTree) (root : Path) (name : String) : Except Error (Option ClassFile) :=
  let path := classPath root name
  match tree.contents path with
  | .error _ => .ok none
  | .ok contents =>
    match decode path contents with
    | .error error => .error error
    | .ok c => .ok (some c)

/-- Whatever is read from a tree is the contents of one of its files. -/
theorem exists_file_of_contents {tree : FileTree} {path : Path} {contents : ByteArray}
    (h : tree.contents path = .ok contents) : ∃ names, (names, contents) ∈ tree.files := by
  unfold FileTree.contents at h
  split at h
  · simp at h
  · simp at h
  · simp at h
  · rename_i bytes located
    obtain rfl : bytes = contents := by simpa using h
    unfold FileTree.locate at located
    split at located
    · simp at located
    · dsimp only at located
      split at located
      · simp at located
      · rename_i place _
        have found : tree.found place = .file bytes := by simpa using located
        unfold FileTree.found at found
        split at found
        · rename_i stored listed
          obtain rfl : stored = bytes := by simpa using found
          obtain ⟨before, after, split, _⟩ := List.lookup_eq_some_iff.1 listed
          exact ⟨place, by simp [split]⟩
        · split at found <;> simp at found

/-- Decoding succeeds exactly on contents that hold a description. -/
theorem described_of_decode {path : Path} {contents : ByteArray} {c : ClassFile}
    (h : decode path contents = .ok c) : described? contents = some c := by
  unfold decode at h
  split at h
  · simp at h
  · rename_i text decoded
    split at h
    · simp at h
    · rename_i parsed stated
      obtain rfl : parsed = c := by simpa using h
      simp [described?, decoded, stated]

/-- A loader over the documents below `root`. -/
def ofDirectory (tree : FileTree) (root : Path) : Loader where
  load := loadFrom tree root
  classes := tree.files.filterMap fun file => described? file.2
  mem_classes name c found := by
    unfold loadFrom at found
    dsimp only at found
    split at found
    · simp at found
    · rename_i contents located
      obtain ⟨names, listed⟩ := exists_file_of_contents located
      split at found
      · simp at found
      · rename_i parsed decoded
        obtain rfl : parsed = c := by simpa using found
        exact List.mem_filterMap.2 ⟨_, listed, described_of_decode decoded⟩

end Loader

end Liveset

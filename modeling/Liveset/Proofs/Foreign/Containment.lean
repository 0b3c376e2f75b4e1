import Liveset.Foreign.Loader
import Liveset.Proofs.Path.Components

/-!
# Where a directory loader looks

Class names come unchecked from programs and from other class descriptions. A loader over a
directory cuts a name at its dots and slashes, so no segment of it leads up, and pushes the segments
on the path of the directory. If there is a segment that is not empty, the document of the class
lies below the directory, and so does the file that is read for it. But the extension is given to
the last component of the path, whatever that is. For a name made of dots and slashes alone it is
the directory's own name, and then the document lies beside the directory, not in it
(`Loader.documentPlaced`).
-/

set_option autoImplicit false

namespace Liveset

/-- The path goes on below the directory: its components are those of the directory and then some
more, and none of these leads up again. -/
def Path.LiesBelow (path root : Path) : Prop :=
  ∃ below, below ≠ [] ∧ path.components = root.components ++ below ∧ .parent ∉ below

namespace Loader

/-! ## Segments -/

/-- The parts of a class name between its dots and slashes, without those that are empty. -/
def segments (name : String) : List String :=
  (Path.ofText (normalizeClassName name)).pieces.filter (· ≠ "")

theorem mem_normalizeClassName_iff {name : String} {c : Char} :
    c ∈ (normalizeClassName name).toList ∧ c ≠ '/' ↔ c ∈ name.toList ∧ c ≠ '.' ∧ c ≠ '/' := by
  rw [normalizeClassName, String.toList_ofList, List.mem_map]
  constructor
  · rintro ⟨⟨d, listed, rfl⟩, letter⟩
    by_cases dot : d = '.'
    · rw [if_pos dot] at letter
      exact absurd rfl letter
    · rw [if_neg dot] at letter ⊢
      exact ⟨listed, dot, letter⟩
  · rintro ⟨listed, noDot, letter⟩
    exact ⟨⟨c, listed, if_neg noDot⟩, letter⟩

/-- The segments hold the characters of the name other than dots and slashes. -/
theorem exists_mem_segments_iff {name : String} {c : Char} :
    (∃ segment ∈ segments name, c ∈ segment.toList) ↔ c ∈ name.toList ∧ c ≠ '.' ∧ c ≠ '/' := by
  rw [← mem_normalizeClassName_iff, ← Path.exists_mem_cut_iff]
  constructor
  · rintro ⟨segment, listed, inside⟩
    obtain ⟨piece, cutOut, rfl⟩ := List.mem_map.1 (List.mem_filter.1 listed).1
    rw [String.toList_ofList] at inside
    exact ⟨piece, cutOut, inside⟩
  · rintro ⟨piece, cutOut, inside⟩
    refine ⟨String.ofList piece, List.mem_filter.2 ⟨List.mem_map_of_mem cutOut, ?_⟩, ?_⟩
    · rw [decide_eq_true_eq]
      intro empty
      have empty : piece = [] := by simpa using congrArg String.toList empty
      subst empty
      cases inside
    · rwa [String.toList_ofList]

theorem segments_ne_nil_iff {name : String} :
    segments name ≠ [] ↔ ∃ c ∈ name.toList, c ≠ '.' ∧ c ≠ '/' := by
  constructor
  · intro nonempty
    obtain ⟨segment, listed⟩ := List.exists_mem_of_ne_nil _ nonempty
    -- A segment is not empty, so it has a character, which the name has as well.
    have filled : segment ≠ "" := by simpa using (List.mem_filter.1 listed).2
    obtain ⟨c, inside⟩ := List.exists_mem_of_ne_nil segment.toList (by simpa using filled)
    exact ⟨c, exists_mem_segments_iff.1 ⟨segment, listed, inside⟩⟩
  · rintro ⟨c, known⟩ none
    obtain ⟨segment, listed, -⟩ := exists_mem_segments_iff.2 known
    rw [none] at listed
    cases listed

/-- No segment leads up or stays, and none has an extension. -/
theorem isName_of_mem_segments {name segment : String} (listed : segment ∈ segments name) :
    Path.IsName segment ∧ '.' ∉ segment.toList ∧ '/' ∉ segment.toList := by
  have plain (c : Char) (inside : c ∈ segment.toList) : c ≠ '.' ∧ c ≠ '/' :=
    (exists_mem_segments_iff.1 ⟨segment, listed, inside⟩).2
  have filled : segment ≠ "" := by simpa using (List.mem_filter.1 listed).2
  refine ⟨Path.isName_iff.2 ⟨filled, ?_, ?_⟩, fun dot => (plain _ dot).1 rfl,
    fun slash => (plain _ slash).2 rfl⟩
  · rintro rfl
    exact (plain '.' (by decide)).1 rfl
  · rintro rfl
    exact (plain '.' (by decide)).1 rfl

/-! ## The path of a document -/

/-- What reading a document amounts to: a miss, or the description in the file at its path. -/
theorem loadFrom_cases (tree : FileTree) (root : Path) (name : String) :
    loadFrom tree root name = .ok none ∨ ∃ bytes, tree.contents (classPath root name) = .ok bytes ∧
      loadFrom tree root name = (decode (classPath root name) bytes).map some := by
  unfold loadFrom
  dsimp only
  cases tree.contents (classPath root name) with
  | error failure => exact .inl rfl
  | ok bytes =>
    refine .inr ⟨bytes, rfl, ?_⟩
    dsimp only
    split <;> rename_i decoded <;> rw [decoded] <;> rfl

section Placing

variable {root : Path} {front idle inner : List String} {directory name last : String}

/-- Before the extension is set, the pieces are those of the directory and the segments of the name,
apart from idle ones. -/
theorem exists_pushed (ends : root.EndsIn front directory idle) (name : String) :
    ∃ kept more, (∀ piece ∈ kept, Path.component? piece = none) ∧
      (∀ piece ∈ more, Path.component? piece = none) ∧
      ((Path.ofText (normalizeClassName name)).pieces.foldl Path.push root).pieces =
        front ++ directory :: (kept ++ segments name ++ more) := by
  obtain ⟨kept, settled, idleKept⟩ := ends.exists_settled
  obtain ⟨more, pushed, idleMore⟩ :=
    root.exists_foldl_push (Path.ofText (normalizeClassName name)).pieces
  refine ⟨kept, more, idleKept, idleMore, ?_⟩
  rw [pushed, settled, List.append_assoc, List.append_assoc, List.append_assoc]
  rfl

/-- The last segment becomes the name of the document, below the directory. -/
theorem exists_classPath_of_segments (ends : root.EndsIn front directory idle)
    (segmented : segments name = inner ++ [last]) :
    ∃ kept, (∀ piece ∈ kept, Path.component? piece = none) ∧
      classPath root name = ⟨front ++ [directory] ++ (kept ++ (inner ++ [last ++ ".json"]))⟩ := by
  obtain ⟨kept, more, idleKept, idleMore, pushed⟩ := exists_pushed ends name
  have listed : last ∈ segments name := segmented ▸ List.mem_append_right _ List.mem_cons_self
  obtain ⟨isName, noDot, -⟩ := isName_of_mem_segments listed
  refine ⟨kept, idleKept, ?_⟩
  -- The last segment is what the path ends in, since only idle pieces come after it.
  have split : front ++ directory :: (kept ++ segments name ++ more) =
      front ++ directory :: (kept ++ inner) ++ last :: more := by simp [segmented]
  rw [classPath, Path.EndsIn.withExtension_eq ⟨pushed.trans split, isName, idleMore⟩,
    Path.stem_eq_self noDot]
  simp [String.append_assoc]

/-- Without a segment the extension goes to the directory itself. -/
theorem classPath_of_no_segments (ends : root.EndsIn front directory idle)
    (none : segments name = []) :
    classPath root name = ⟨front ++ [Path.stem directory ++ ".json"]⟩ := by
  obtain ⟨kept, more, idleKept, idleMore, pushed⟩ := exists_pushed ends name
  rw [none, List.append_nil] at pushed
  rw [classPath, Path.EndsIn.withExtension_eq
    ⟨pushed, ends.isName, List.forall_mem_append.2 ⟨idleKept, idleMore⟩⟩, String.append_assoc]
  rfl

/-- The segments and the document's own name are all names. -/
theorem isName_of_mem_document (segmented : segments name = inner ++ [last]) :
    ∀ piece ∈ inner ++ [last ++ ".json"], Path.IsName piece := by
  refine List.forall_mem_append.2 ⟨fun piece listed => ?_, ?_⟩
  · exact (isName_of_mem_segments (segmented ▸ List.mem_append_left _ listed)).1
  · exact List.forall_mem_singleton.2 (Path.isName_append_json last)

theorem components_of_segments (ends : root.EndsIn front directory idle)
    (segmented : segments name = inner ++ [last]) :
    (classPath root name).components =
      root.components ++ (inner ++ [last ++ ".json"]).map .normal := by
  obtain ⟨kept, idleKept, path⟩ := exists_classPath_of_segments ends segmented
  rw [path, Path.components_append ends.ne_nil.1 ends.ne_nil.2, List.filterMap_append,
    List.filterMap_eq_nil_iff.2 idleKept, List.nil_append,
    Path.filterMap_names (isName_of_mem_document segmented), ends.components_eq]

theorem components_of_no_segments (ends : root.EndsIn front directory idle)
    (none : segments name = []) :
    (classPath root name).components =
      root.components.dropLast ++ [.normal (Path.stem directory ++ ".json")] := by
  obtain ⟨leading, concat⟩ := Path.exists_components_concat front
  rw [classPath_of_no_segments ends none, ends.components_eq, concat _ ends.isName,
    concat _ (Path.isName_append_json _), List.dropLast_concat]

/-- Following the path of a document, one gets to the place of the directory first. -/
theorem place_of_segments (ends : root.EndsIn front directory idle)
    (segmented : segments name = inner ++ [last]) {tree : FileTree} {place next : List String}
    (ledRoot : tree.leadsTo root = .ok place)
    (led : tree.leadsTo (classPath root name) = .ok next) :
    next = place ++ (inner ++ [last ++ ".json"]) := by
  obtain ⟨kept, idleKept, path⟩ := exists_classPath_of_segments ends segmented
  have start : (classPath root name).isAbsolute = root.isAbsolute := by
    have extended := Path.isAbsolute_append ends.ne_nil.1 ends.ne_nil.2
    have own := extended idle
    rw [← ends.pieces_eq] at own
    rw [path, extended]
    exact own.symm
  rw [FileTree.leadsTo, ends.pieces_eq] at ledRoot
  rw [FileTree.leadsTo, start, path] at led
  --  Both paths begin with the pieces of the directory, from the same start, so they get to the
  -- same place.
  obtain ⟨there, toDirectory, stays⟩ := FileTree.followAll_append_eq_ok ledRoot
  obtain ⟨again, toDirectory', below⟩ := FileTree.followAll_append_eq_ok led
  cases toDirectory.symm.trans toDirectory'
  obtain ⟨same, waits, down⟩ := FileTree.followAll_append_eq_ok below
  rw [FileTree.followAll_names (isName_of_mem_document segmented) down,
    FileTree.followAll_idle idleKept waits, FileTree.followAll_idle ends.nothing stays]

/-- The path of a document ends in its extension, and there are no slashes in its pieces. -/
theorem exists_classPath_eq (ends : root.EndsIn front directory idle) (proper : root.Proper)
    (name : String) :
    ∃ before stem, classPath root name = ⟨before ++ [stem ++ ".json"]⟩ ∧
      (∀ piece ∈ before, '/' ∉ piece.toList) ∧ '/' ∉ stem.toList := by
  have unbroken := proper.unbroken
  rw [ends.pieces_eq, List.forall_mem_append] at unbroken
  have own : ∀ piece ∈ front ++ [directory], '/' ∉ piece.toList := unbroken.1
  rcases List.eq_nil_or_concat (segments name) with none | ⟨inner, last, segmented⟩
  · refine ⟨front, Path.stem directory, classPath_of_no_segments ends none, ?_, ?_⟩
    · exact (List.forall_mem_append.1 own).1
    · exact fun slash => own directory (by simp) (Path.mem_of_mem_stem slash)
  · rw [List.concat_eq_append] at segmented
    have inside : ∀ piece ∈ inner ++ [last], '/' ∉ piece.toList :=
      fun piece listed => (isName_of_mem_segments (segmented ▸ listed)).2.2
    obtain ⟨unbrokenInner, unbrokenLast⟩ := List.forall_mem_append.1 inside
    obtain ⟨kept, idleKept, path⟩ := exists_classPath_of_segments ends segmented
    refine ⟨front ++ [directory] ++ (kept ++ inner), last, by rw [path]; simp, ?_, ?_⟩
    · refine List.forall_mem_append.2
        ⟨own, List.forall_mem_append.2 ⟨fun piece listed => ?_, unbrokenInner⟩⟩
      exact Path.unbroken_of_idle (idleKept piece listed)
    · exact unbrokenLast last List.mem_cons_self

end Placing

/-! ## Below or beside the directory -/

/-- Where a loader over `root`, a path to something called `directory`, looks for a class. Its
document is written as a path that ends in `.json`. With a segment in the name it lies below the
directory, at the components that the segments name, and whatever the loader finds is in the file at
that place. Without one it lies beside the directory. So it lies below the directory exactly if the
name has a character other than dots and slashes. -/
structure DocumentPlaced (root : Path) (directory name : String) : Prop where
  written : Path.ofText (classPath root name).text = classPath root name
  extension : ".json".toList <:+ (classPath root name).text.toList
  below : ∀ inner last, segments name = inner ++ [last] →
    (classPath root name).components = root.components ++ (inner ++ [last ++ ".json"]).map .normal
  file : ∀ inner last, segments name = inner ++ [last] →
    ∀ tree place, tree.leadsTo root = .ok place →
    loadFrom tree root name = .ok none ∨
      ∃ bytes, (place ++ (inner ++ [last ++ ".json"]), bytes) ∈ tree.files ∧
      loadFrom tree root name = (decode (classPath root name) bytes).map some
  beside : segments name = [] →
    (classPath root name).components =
      root.components.dropLast ++ [.normal (Path.stem directory ++ ".json")]
  liesBelow_iff : (classPath root name).LiesBelow root ↔ ∃ c ∈ name.toList, c ≠ '.' ∧ c ≠ '/'

/-- A document below the directory has more components than the directory, and one beside it has
not. -/
theorem liesBelow_classPath_iff {root : Path} {front idle : List String} {directory : String}
    (ends : root.EndsIn front directory idle) (name : String) :
    (classPath root name).LiesBelow root ↔ segments name ≠ [] := by
  constructor
  · rintro ⟨below, nonempty, extended, -⟩ none
    rw [components_of_no_segments ends none] at extended
    obtain ⟨leading, concat⟩ := Path.exists_components_concat front
    rw [ends.components_eq, concat _ ends.isName, List.dropLast_concat] at extended
    have length := congrArg List.length extended
    simp only [List.length_append, List.length_singleton] at length
    exact nonempty (List.eq_nil_of_length_eq_zero (by omega))
  · intro nonempty
    rcases List.eq_nil_or_concat (segments name) with none | ⟨inner, last, segmented⟩
    · exact absurd none nonempty
    · rw [List.concat_eq_append] at segmented
      refine ⟨_, ?_, components_of_segments ends segmented, ?_⟩
      · simp
      · simp

/-- The document of every class is placed by the segments of its name, in every directory whose path
ends in a name. -/
theorem documentPlaced {text directory : String}
    (named : (Path.ofText text).components.getLast? = some (.normal directory)) (name : String) :
    DocumentPlaced (.ofText text) directory name := by
  obtain ⟨front, idle, ends⟩ := Path.exists_endsIn_of_named named
  obtain ⟨before, stem, path, unbroken, unbrokenStem⟩ :=
    exists_classPath_eq ends (Path.proper_ofText text) name
  constructor
  case written =>
    apply Path.ofText_text
    rw [path]
    exact Path.proper_concat_json unbroken unbrokenStem
  case extension =>
    rw [path]
    refine List.IsSuffix.trans ?_ (Path.suffix_text_concat before (stem ++ ".json"))
    rw [String.toList_append]
    exact List.suffix_append _ _
  case below => exact fun inner last segmented => components_of_segments ends segmented
  case file =>
    intro inner last segmented tree place ledRoot
    rcases loadFrom_cases tree (.ofText text) name with miss | ⟨bytes, read, answer⟩
    · exact .inl miss
    · obtain ⟨next, led, listed⟩ := FileTree.exists_place_of_contents read
      rw [place_of_segments ends segmented ledRoot led] at listed
      exact .inr ⟨bytes, listed, answer⟩
  case beside => exact components_of_no_segments ends
  case liesBelow_iff => rw [liesBelow_classPath_iff ends, segments_ne_nil_iff]

/-- A directory called `lib` in the working directory, with a document beside it. -/
def shed : FileTree where
  files := [(["lib.json"], ⟨#[123, 125]⟩), (["lib", "a", "B.json"], ⟨#[91, 93]⟩)]
  directories := [["lib"]]

/-- Dots and slashes in excess do no harm, and a directory may have a dot in its name. -/
theorem documentPlaced_versioned :
    (Path.ofText "jars/lib.v1/.").components.getLast? = some (.normal "lib.v1") ∧
      segments "..a//B." = ["a", "B"] ∧
      (classPath (.ofText "jars/lib.v1/.") "..a//B.").text = "jars/lib.v1/./a/B.json" ∧
      DocumentPlaced (.ofText "jars/lib.v1/.") "lib.v1" "..a//B." :=
  have named : (Path.ofText "jars/lib.v1/.").components.getLast? = some (.normal "lib.v1") := by
    decide +kernel
  ⟨named, by decide +kernel, by decide +kernel, documentPlaced named "..a//B."⟩

/-- For a name of two dots the document beside the directory is read, which does not lie below
it. -/
theorem dots_leave_directory :
    (Path.ofText "lib").components = [.normal "lib"] ∧
      ¬ (classPath (.ofText "lib") "..").LiesBelow (.ofText "lib") ∧
      shed.leadsTo (.ofText "lib") = .ok ["lib"] ∧
      shed.contents (classPath (.ofText "lib") "..") = .ok ⟨#[123, 125]⟩ := by
  have root : (Path.ofText "lib").components = [.normal "lib"] := by decide +kernel
  have path : (classPath (.ofText "lib") "..").components = [.normal "lib.json"] := by
    decide +kernel
  refine ⟨root, ?_, by rfl, by rfl⟩
  rintro ⟨below, -, extended, -⟩
  rw [root, path, List.singleton_append] at extended
  exact absurd (List.cons.inj extended).1 (by decide)

end Loader

end Liveset

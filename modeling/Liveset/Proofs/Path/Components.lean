import Liveset.FileTree
import Mathlib.Data.List.Basic
import Mathlib.Data.List.TakeWhile

/-!
# The components of a path

Where a path leads is decided by its components. This module says what the operations on paths do to
them. Appended pieces go on from the components there are (`components_append`); pushing names one
after the other appends those that are not empty (`exists_foldl_push`); a new extension replaces the
last component and cuts off the idle pieces behind it (`EndsIn.withExtension_eq`). A path whose last
component is a name is that name with idle pieces behind it (`exists_endsIn_of_named`).

Pieces without slashes are the ones that are found when the text of a path is read again
(`ofText_text`). In a file tree idle pieces lead nowhere else and names lead down
(`FileTree.followAll_names`).
-/

set_option autoImplicit false

namespace Liveset

namespace Path

/-! ## Text -/

/-- There is a piece, and no piece has a slash in it. -/
structure Proper (path : Path) : Prop where
  nonempty : path.pieces ≠ []
  unbroken : ∀ piece ∈ path.pieces, '/' ∉ piece.toList

theorem cut_slash (cs : List Char) : cut ('/' :: cs) = [] :: cut cs := by
  rw [cut]

theorem cut_ne_nil (cs : List Char) : cut cs ≠ [] := by
  unfold cut
  split
  · exact List.cons_ne_nil _ _
  · exact List.cons_ne_nil _ _
  · split <;> exact List.cons_ne_nil _ _

/-- Characters other than slashes join the first of the pieces behind them. -/
theorem cut_append {piece : List Char} (unbroken : '/' ∉ piece) (cs : List Char) :
    ∃ first rest, cut cs = first :: rest ∧ cut (piece ++ cs) = (piece ++ first) :: rest := by
  obtain ⟨first, rest, split⟩ := List.exists_cons_of_ne_nil (cut_ne_nil cs)
  refine ⟨first, rest, split, ?_⟩
  induction piece with
  | nil => exact split
  | cons c piece ih =>
    obtain ⟨letter, unbroken⟩ := not_or.1 (mt List.mem_cons.2 unbroken)
    rw [List.cons_append, cut, ih unbroken]
    · rfl
    · exact Ne.symm letter

/-- The pieces hold the characters of the text other than slashes. -/
theorem exists_mem_cut_iff {cs : List Char} {c : Char} :
    (∃ piece ∈ cut cs, c ∈ piece) ↔ c ∈ cs ∧ c ≠ '/' := by
  induction cs with
  | nil => simp [cut]
  | cons d ds ih =>
    by_cases slash : d = '/'
    · subst slash
      rw [cut_slash, List.exists_mem_cons_iff, ih, List.mem_cons]
      constructor
      · rintro (inside | ⟨listed, letter⟩)
        · cases inside
        · exact ⟨.inr listed, letter⟩
      · rintro ⟨rfl | listed, letter⟩
        · exact absurd rfl letter
        · exact .inr ⟨listed, letter⟩
    · obtain ⟨first, rest, split, extended⟩ :=
        cut_append (mt List.mem_singleton.1 (Ne.symm slash)) ds
      rw [split, List.exists_mem_cons_iff] at ih
      rw [List.singleton_append] at extended
      rw [extended, List.exists_mem_cons_iff, List.singleton_append, List.mem_cons, or_assoc, ih,
        List.mem_cons]
      constructor
      · rintro (rfl | ⟨listed, letter⟩)
        · exact ⟨.inl rfl, slash⟩
        · exact ⟨.inr listed, letter⟩
      · rintro ⟨rfl | listed, letter⟩
        · exact .inl rfl
        · exact .inr ⟨listed, letter⟩

theorem proper_ofText (text : String) : (ofText text).Proper where
  nonempty none := cut_ne_nil text.toList (List.map_eq_nil_iff.1 none)
  unbroken piece listed slash := by
    obtain ⟨cs, cutOut, rfl⟩ := List.mem_map.1 listed
    rw [String.toList_ofList] at slash
    exact (exists_mem_cut_iff.1 ⟨cs, cutOut, slash⟩).2 rfl

theorem cut_intercalate {pieces : List (List Char)} (nonempty : pieces ≠ [])
    (unbroken : ∀ piece ∈ pieces, '/' ∉ piece) : cut (List.intercalate ['/'] pieces) = pieces := by
  induction pieces with
  | nil => exact absurd rfl nonempty
  | cons piece rest ih =>
    obtain ⟨first, others⟩ := List.forall_mem_cons.1 unbroken
    cases rest with
    | nil =>
      obtain ⟨_, _, split, extended⟩ := cut_append first []
      cases split
      rw [List.append_nil] at extended
      rw [List.intercalate_singleton]
      exact extended
    | cons next rest =>
      obtain ⟨_, _, split, extended⟩ :=
        cut_append first ('/' :: List.intercalate ['/'] (next :: rest))
      rw [cut_slash, ih (List.cons_ne_nil _ _) others] at split
      cases split
      rw [List.append_nil] at extended
      rw [List.intercalate_cons_cons, List.append_assoc, List.singleton_append]
      exact extended

/-- A path of proper pieces is what its text is read as. -/
theorem ofText_text {path : Path} (proper : path.Proper) : ofText path.text = path := by
  have pieces : cut path.text.toList = path.pieces.map String.toList := by
    rw [text, String.toList_intercalate]
    apply cut_intercalate
    · exact mt List.map_eq_nil_iff.1 proper.nonempty
    · intro piece listed
      obtain ⟨written, member, rfl⟩ := List.mem_map.1 listed
      exact proper.unbroken written member
  obtain ⟨given⟩ := path
  rw [ofText, pieces, List.map_map]
  congr 1
  exact (List.map_congr_left fun piece _ => String.ofList_toList).trans (List.map_id _)

/-- The text of a path ends as its last piece does. -/
theorem suffix_text_concat (front : List String) (last : String) :
    last.toList <:+ (text ⟨front ++ [last]⟩).toList := by
  rw [text, String.toList_intercalate, List.map_append, List.map_singleton]
  induction front with
  | nil =>
    simp only [List.map_nil, List.nil_append, List.intercalate_singleton]
    exact List.suffix_refl _
  | cons piece front ih =>
    refine ih.trans ?_
    rw [List.map_cons, List.cons_append]
    cases below : List.map String.toList front ++ [last.toList] with
    | nil => exact List.nil_suffix
    | cons next rest =>
      rw [List.intercalate_cons_cons]
      exact List.suffix_append _ _

/-! ## Components -/

/-- The piece is a name: it leads to something below the place where it stands. -/
def IsName (piece : String) : Prop := component? piece = some (.normal piece)

theorem isName_iff {piece : String} : IsName piece ↔ piece ≠ "" ∧ piece ≠ "." ∧ piece ≠ ".." := by
  unfold IsName component?
  by_cases idle : piece = "" ∨ piece = "."
  · simp only [if_pos idle, reduceCtorEq, false_iff]
    rintro ⟨filled, noDot, -⟩
    exact idle.elim filled noDot
  · obtain ⟨filled, noDot⟩ := not_or.1 idle
    by_cases up : piece = ".." <;> simp [filled, noDot, up]

theorem eq_of_component?_eq_normal {piece name : String}
    (h : component? piece = some (.normal name)) :
    piece = name := by
  unfold component? at h
  split at h
  · cases h
  · split at h
    · cases h
    · cases h
      rfl

theorem component?_eq_none_iff {piece : String} : component? piece = none ↔ isIdle piece := by
  unfold component? isIdle
  split
  · rename_i idle
    simpa using idle
  · rename_i busy
    split <;> simpa using busy

theorem isAbsolute_cons (front : String) (rest : List String) :
    isAbsolute ⟨front :: rest⟩ = (front = "" && !rest.isEmpty) := by
  cases rest with
  | nil => simp [isAbsolute]
  | cons next rest =>
    by_cases empty : front = ""
    · subst empty
      rfl
    · simp [isAbsolute, empty]

/-- More pieces at the end leave the front as it is, unless there is nothing but an empty piece,
which they make the root. -/
theorem isAbsolute_append {pieces : List String} (nonempty : pieces ≠ []) (filled : pieces ≠ [""])
    (more : List String) : isAbsolute ⟨pieces ++ more⟩ = isAbsolute ⟨pieces⟩ := by
  cases pieces with
  | nil => exact absurd rfl nonempty
  | cons front rest =>
    rw [List.cons_append, isAbsolute_cons, isAbsolute_cons]
    by_cases empty : front = ""
    · subst empty
      cases rest with
      | nil => exact absurd rfl filled
      | cons next rest => rfl
    · simp [empty]

/-- The components go on with those of the pieces that are appended. -/
theorem components_append {pieces : List String} (nonempty : pieces ≠ []) (filled : pieces ≠ [""])
    (more : List String) :
    components ⟨pieces ++ more⟩ = components ⟨pieces⟩ ++ more.filterMap component? := by
  have front := isAbsolute_append nonempty filled more
  cases pieces with
  | nil => exact absurd rfl nonempty
  | cons first rest =>
    rw [List.cons_append] at front ⊢
    simp only [components, front, List.filterMap_append, List.append_assoc]

theorem filterMap_names {names : List String} (named : ∀ name ∈ names, IsName name) :
    names.filterMap component? = names.map .normal := by
  induction names with
  | nil => rfl
  | cons name rest ih =>
    obtain ⟨first, others⟩ := List.forall_mem_cons.1 named
    rw [List.filterMap_cons_some first, List.map_cons, ih others]

/-- A name at the end is the last component, and what stands in front of it does not depend on
it. -/
theorem exists_components_concat (front : List String) :
    ∃ leading, ∀ name, IsName name → components ⟨front ++ [name]⟩ = leading ++ [.normal name] := by
  cases front with
  | nil =>
    refine ⟨[], fun name isName => ?_⟩
    obtain ⟨-, noDot, -⟩ := isName_iff.1 isName
    have first : frontComponent? false name = some (.normal name) := by
      rw [frontComponent?, if_neg Bool.false_ne_true, if_neg noDot]
      exact isName
    simp only [components, List.nil_append, isAbsolute_cons, List.isEmpty_nil, Bool.not_true,
      Bool.and_false, first]
    rfl
  | cons first rest =>
    refine ⟨(frontComponent? (first = "") first).toList ++ rest.filterMap component?,
      fun name isName => ?_⟩
    have last : [name].filterMap component? = [.normal name] :=
      filterMap_names (List.forall_mem_singleton.2 isName)
    have followed : (rest ++ [name]).isEmpty = false := by cases rest <;> rfl
    simp [components, isAbsolute_cons, last, followed]

/-- The path ends in `name`: there are other pieces in front of it, and idle ones behind it. -/
structure EndsIn (path : Path) (front : List String) (name : String)
    (idle : List String) : Prop where
  split : path.pieces = front ++ name :: idle
  isName : IsName name
  nothing : ∀ piece ∈ idle, component? piece = none

theorem EndsIn.ne_nil {path : Path} {front idle : List String} {name : String}
    (ends : path.EndsIn front name idle) : front ++ [name] ≠ [] ∧ front ++ [name] ≠ [""] := by
  constructor
  · exact List.append_ne_nil_of_right_ne_nil _ (List.cons_ne_nil _ _)
  · intro empty
    have last := congrArg List.getLast? empty
    rw [List.getLast?_concat] at last
    cases last
    exact (isName_iff.1 ends.isName).1 rfl

theorem EndsIn.pieces_eq {path : Path} {front idle : List String} {name : String}
    (ends : path.EndsIn front name idle) : path.pieces = front ++ [name] ++ idle := by
  rw [ends.split, List.append_assoc, List.singleton_append]

/-- Idle pieces at the end have no components. -/
theorem EndsIn.components_eq {path : Path} {front idle : List String} {name : String}
    (ends : path.EndsIn front name idle) : path.components = components ⟨front ++ [name]⟩ := by
  have appended := components_append ends.ne_nil.1 ends.ne_nil.2 idle
  rw [← ends.pieces_eq, List.filterMap_eq_nil_iff.2 ends.nothing, List.append_nil] at appended
  exact appended

/-- A path whose last component is a name ends in that name. -/
theorem exists_endsIn_of_named {path : Path} {name : String}
    (named : path.components.getLast? = some (.normal name)) :
    ∃ front idle, path.EndsIn front name idle := by
  obtain ⟨pieces⟩ := path
  cases pieces with
  | nil => cases named
  | cons first rest =>
    -- The last component comes from the last piece that has one, which may be the front piece.
    cases below : rest.filterMap component? with
    | nil =>
      have named : frontComponent? (isAbsolute ⟨first :: rest⟩) first = some (.normal name) := by
        simp only [components, below, List.append_nil] at named
        cases front : frontComponent? (isAbsolute ⟨first :: rest⟩) first with
        | none => simp [front] at named
        | some c => simpa [front] using named
      unfold frontComponent? at named
      split at named
      · cases named
      · split at named
        · cases named
        · cases eq_of_component?_eq_normal named
          exact ⟨[], rest, rfl, named, List.filterMap_eq_nil_iff.1 below⟩
    | cons c cs =>
      simp only [components, below, List.getLast?_append_of_ne_nil _ (List.cons_ne_nil c cs)]
        at named
      rw [← below, List.getLast?_eq_some_iff] at named
      obtain ⟨before, named⟩ := named
      obtain ⟨front, back, rfl, -, back_eq⟩ := List.filterMap_eq_append_iff.1 named
      obtain ⟨skipped, piece, idle, rfl, -, isName, nothing⟩ := List.filterMap_eq_cons_iff.1 back_eq
      cases eq_of_component?_eq_normal isName
      refine ⟨first :: front ++ skipped, idle, ?_, isName, List.filterMap_eq_nil_iff.1 nothing⟩
      simp

theorem unbroken_of_idle {piece : String} (nothing : component? piece = none) :
    '/' ∉ piece.toList := by
  rw [component?_eq_none_iff, isIdle, Bool.or_eq_true, decide_eq_true_eq, decide_eq_true_eq]
    at nothing
  rcases nothing with rfl | rfl <;> decide

/-! ## Pushing pieces -/

/-- The pieces to which one more is appended. An empty piece at the end only stands for the
slash. -/
def settled (path : Path) : List String :=
  if path.pieces.getLast? = some "" then path.pieces.dropLast else path.pieces

theorem push_eq (base : Path) (piece : String) : base.push piece = ⟨base.settled ++ [piece]⟩ := by
  unfold push settled
  split <;> rfl

theorem settled_concat (front : List String) (piece : String) :
    settled ⟨front ++ [piece]⟩ = front ++ [piece].filter (· ≠ "") := by
  unfold settled
  by_cases empty : piece = "" <;> simp [empty]

theorem exists_settled (path : Path) :
    ∃ idle, path.pieces = path.settled ++ idle ∧ ∀ piece ∈ idle, component? piece = none := by
  unfold settled
  split
  · rename_i last
    obtain ⟨front, split⟩ := List.getLast?_eq_some_iff.1 last
    refine ⟨[""], ?_, ?_⟩
    · rw [split, List.dropLast_concat]
    · exact List.forall_mem_singleton.2 rfl
  · exact ⟨[], (List.append_nil _).symm, nofun⟩

/-- Pieces that are pushed one after the other follow the settled pieces, the empty ones left out;
at the end only idle pieces are added. -/
theorem exists_foldl_push (base : Path) (pieces : List String) :
    ∃ idle, (pieces.foldl push base).pieces = base.settled ++ pieces.filter (· ≠ "") ++ idle ∧
      ∀ piece ∈ idle, component? piece = none := by
  induction pieces generalizing base with
  | nil =>
    rw [List.filter_nil, List.append_nil]
    exact base.exists_settled
  | cons piece rest ih =>
    obtain ⟨idle, pushed, nothing⟩ := ih (base.push piece)
    refine ⟨idle, ?_, nothing⟩
    have first : (piece :: rest).filter (· ≠ "") = [piece].filter (· ≠ "") ++
        rest.filter (· ≠ "") :=
      List.filter_append [piece] rest
    rw [List.foldl_cons, pushed, push_eq, settled_concat, first, List.append_assoc base.settled]

/-- Settling leaves a name where it is and only takes idle pieces away. -/
theorem EndsIn.exists_settled {path : Path} {front idle : List String} {name : String}
    (ends : path.EndsIn front name idle) :
    ∃ kept, path.settled = front ++ name :: kept ∧ ∀ piece ∈ kept, component? piece = none := by
  obtain ⟨split, isName, nothing⟩ := ends
  obtain ⟨pieces⟩ := path
  obtain rfl : pieces = front ++ name :: idle := split
  rcases List.eq_nil_or_concat idle with rfl | ⟨before, last, rfl⟩
  · refine ⟨[], ?_, nofun⟩
    rw [settled_concat]
    simp [(isName_iff.1 isName).1]
  · rw [List.concat_eq_append] at nothing ⊢
    refine ⟨before ++ [last].filter (· ≠ ""), ?_, fun piece listed => nothing piece ?_⟩
    · rw [← List.cons_append, ← List.append_assoc, settled_concat, List.append_assoc,
        List.cons_append]
    · rw [List.mem_append] at listed ⊢
      exact listed.imp id fun member => (List.mem_filter.1 member).1

/-! ## Extensions -/

theorem trimBack_append {idle : List String} {name : String} (front : List String)
    (nothing : ∀ piece ∈ idle, component? piece = none) (isName : IsName name) :
    trimBack (idle ++ name :: front) = name :: front := by
  induction idle with
  | nil =>
    have busy : ¬ isIdle name := by
      rw [← component?_eq_none_iff, isName]
      exact nofun
    cases front with
    | nil => rfl
    | cons next rest => rw [List.nil_append, trimBack, if_neg busy]
  | cons piece idle ih =>
    obtain ⟨first, others⟩ := List.forall_mem_cons.1 nothing
    have trimmed := ih others
    cases idle with
    | nil =>
      rwa [List.cons_append, List.nil_append, trimBack, if_pos (component?_eq_none_iff.1 first)]
    | cons next idle =>
      rwa [List.cons_append, List.cons_append, trimBack, if_pos (component?_eq_none_iff.1 first)]

/-- A new extension goes to the last component, if that is a name; idle pieces behind it are
dropped. -/
theorem EndsIn.withExtension_eq {path : Path} {front idle : List String} {name : String}
    (ends : path.EndsIn front name idle) (extension : String) :
    path.withExtension extension = ⟨front ++ [stem name ++ "." ++ extension]⟩ := by
  obtain ⟨split, isName, nothing⟩ := ends
  obtain ⟨filled, noDot, notUp⟩ := isName_iff.1 isName
  have trimmed : path.trimmed = front ++ [name] := by
    have idling (piece : String) (listed : piece ∈ idle.reverse) : component? piece = none :=
      nothing piece (List.mem_reverse.1 listed)
    rw [trimmed, split, List.reverse_append, List.reverse_cons, List.append_assoc,
      List.singleton_append, trimBack_append _ idling isName, List.reverse_cons,
      List.reverse_reverse]
  simp only [withExtension, trimmed, List.reverse_append, List.reverse_singleton,
    List.singleton_append, filled, noDot, notUp, false_and, or_self, if_false, List.reverse_reverse]

/-- A name without dots has no extension. -/
theorem stem_eq_self {name : String} (plain : '.' ∉ name.toList) : stem name = name := by
  have all : name.toList.reverse.dropWhile (· ≠ '.') = [] := by
    rw [List.dropWhile_eq_nil_iff]
    intro c listed
    rw [decide_eq_true_eq]
    rintro rfl
    exact plain (List.mem_reverse.1 listed)
  simp only [stem, all, List.drop_nil]

theorem mem_of_mem_stem {name : String} {c : Char} (inside : c ∈ (stem name).toList) :
    c ∈ name.toList := by
  unfold stem at inside
  dsimp only at inside
  split at inside
  · exact inside
  · rename_i kept
    rw [String.toList_ofList, List.mem_reverse] at inside
    exact List.mem_reverse.1 (List.dropWhile_subset _ (List.drop_subset _ _ inside))

/-- A text with an extension is a name. -/
theorem isName_append_json (stem : String) : IsName (stem ++ ".json") := by
  rw [isName_iff]
  refine ⟨?_, ?_, ?_⟩
  all_goals
    intro same
    have length := congrArg (fun text => text.toList.length) same
    simp at length

theorem proper_concat_json {front : List String} {stem : String}
    (unbroken : ∀ piece ∈ front, '/' ∉ piece.toList) (unbrokenStem : '/' ∉ stem.toList) :
    Proper ⟨front ++ [stem ++ ".json"]⟩ where
  nonempty := List.append_ne_nil_of_right_ne_nil _ (List.cons_ne_nil _ _)
  unbroken := by
    refine List.forall_mem_append.2 ⟨unbroken, List.forall_mem_singleton.2 fun slash => ?_⟩
    rw [String.toList_append, List.mem_append] at slash
    exact slash.elim unbrokenStem (by decide)

end Path

/-! ## File trees -/

namespace FileTree

variable {tree : FileTree} {place next : List String}

/-- Where the pieces of a path lead, from the root or from the working directory. -/
def leadsTo (tree : FileTree) (path : Path) : Except ReadFailure (List String) :=
  tree.followAll (if path.isAbsolute then [] else tree.base) path.pieces

theorem followAll_append_eq_ok {front back : List String}
    (h : tree.followAll place (front ++ back) = .ok next) :
    ∃ middle, tree.followAll place front = .ok middle ∧ tree.followAll middle back = .ok next := by
  induction front generalizing place with
  | nil => exact ⟨place, rfl, h⟩
  | cons piece front ih =>
    rw [List.cons_append, followAll] at h
    rw [followAll]
    cases followed : tree.follow place piece with
    | error failure => simp [followed] at h
    | ok there =>
      simp only [followed] at h
      exact ih h

theorem follow_eq_ok {piece : String} (h : tree.follow place piece = .ok next) :
    (Path.component? piece = none → next = place) ∧
      (Path.IsName piece → next = place ++ [piece]) := by
  unfold follow at h
  split at h
  · cases h
  · cases h
  · rw [Path.isName_iff, Path.component?_eq_none_iff, Path.isIdle]
    split at h
    · rename_i idle
      cases h
      refine ⟨fun _ => rfl, ?_⟩
      rintro ⟨filled, noDot, -⟩
      exact absurd idle (not_or.2 ⟨filled, noDot⟩)
    · rename_i busy
      refine ⟨fun idle => absurd (by simpa using idle) busy, fun isName => ?_⟩
      rw [if_neg isName.2.2] at h
      cases h
      rfl

/-- Idle pieces lead nowhere else. -/
theorem followAll_idle {pieces : List String}
    (nothing : ∀ piece ∈ pieces, Path.component? piece = none)
    (h : tree.followAll place pieces = .ok next) : next = place := by
  induction pieces generalizing place with
  | nil => cases h; rfl
  | cons piece rest ih =>
    obtain ⟨first, others⟩ := List.forall_mem_cons.1 nothing
    rw [followAll] at h
    split at h
    · cases h
    · rename_i followed
      rw [ih others h, (follow_eq_ok followed).1 first]

/-- Names lead down one after the other. -/
theorem followAll_names {names : List String} (named : ∀ name ∈ names, Path.IsName name)
    (h : tree.followAll place names = .ok next) : next = place ++ names := by
  induction names generalizing place with
  | nil => cases h; exact (List.append_nil _).symm
  | cons name rest ih =>
    obtain ⟨first, others⟩ := List.forall_mem_cons.1 named
    rw [followAll] at h
    split at h
    · cases h
    · rename_i followed
      rw [ih others h, (follow_eq_ok followed).2 first, List.append_assoc, List.singleton_append]

/-- What is read at a path is the file at the place to which the path leads. -/
theorem exists_place_of_contents {path : Path} {bytes : ByteArray}
    (h : tree.contents path = .ok bytes) :
    ∃ place, tree.leadsTo path = .ok place ∧ (place, bytes) ∈ tree.files := by
  unfold contents locate at h
  split at h
  case _ | _ | _ => cases h
  rename_i stored located
  cases h
  split at located
  · cases located
  · dsimp only at located
    split at located
    · cases located
    · rename_i place led
      refine ⟨place, led, ?_⟩
      have isFile : tree.found place = .file bytes := by simpa using located
      unfold found at isFile
      split at isFile
      · rename_i listed
        cases isFile
        obtain ⟨before, after, split, -⟩ := List.lookup_eq_some_iff.1 listed
        rw [split]
        exact List.mem_append_right _ List.mem_cons_self
      · split at isFile <;> cases isFile

end FileTree

end Liveset

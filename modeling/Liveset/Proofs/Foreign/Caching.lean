import Liveset.Proofs.Foreign.Fidelity
import Mathlib.Data.List.Induction
import Mathlib.Data.List.ReduceOption

/-!
# A repository is a cache of its loader

A fresh repository gets requests for classes one after the other. `Repository.handles` has the
answer to each of them, `Repository.afterRequests` is the repository they leave, and
`Repository.log` lists the names for which the loader was asked.

All answers can be read off the repository that is left, since it only grows (`answer?_of_handle`),
and there they are those of the loader (`Faithful`). What one request does to the log and to the
handles in use is said by `log_tryLoad` and `tryLoad_cases`. Together they make the repository a
cache (`Caches`): the loader is asked once for every normal name and for nothing else, what it says
is what the requests are told, and the classes it finds are numbered as they come.

A loader lists all it can ever find. A run of requests looks at finitely many names, so an arbitrary
function from names to answers is as good as a loader (`Loader.answers_limited`).
-/

set_option autoImplicit false

namespace Liveset

/-- A normal spelling stays as it is. -/
theorem normalizeClassName_normalizeClassName (name : String) :
    normalizeClassName (normalizeClassName name) = normalizeClassName name := by
  simp only [normalizeClassName, String.toList_ofList, List.map_map]
  congr 1
  apply List.map_congr_left
  intro c _
  by_cases dot : c = '.' <;> simp [dot]

/-! ## Loaders for given names -/

namespace Loader

/-- The loader answers as `load` does for the normal spellings of the names. -/
def Answers (loader : Loader) (load : String → Except Error (Option ClassFile))
    (names : List String) : Prop :=
  ∀ name ∈ names, loader.load (normalizeClassName name) = load (normalizeClassName name)

/-- The loader that answers as `load` does for some keys and finds nothing under any other one. -/
def limited (load : String → Except Error (Option ClassFile)) (keys : List String) : Loader where
  load key := if key ∈ keys then load key else .ok none
  classes := keys.filterMap fun key => (load key).toOption.join
  mem_classes key c found := by
    split at found
    · rename_i listed
      exact List.mem_filterMap.2 ⟨key, listed, by rw [found]; rfl⟩
    · cases found

theorem answers_limited (load : String → Except Error (Option ClassFile)) (names : List String) :
    (limited load (names.map normalizeClassName)).Answers load names := by
  intro name listed
  exact if_pos (List.mem_map_of_mem listed)

end Loader

namespace Repository

variable {r r' : Repository} {name key : String} {names : List String}

/-! ## Requests one after the other -/

/-- The repository after several requests. -/
def afterRequests (r : Repository) (names : List String) : Repository :=
  names.foldl (fun r name => (r.tryLoad name).2) r

/-- What each of several requests is answered. -/
def handles (r : Repository) : List String → List (Option ClassId)
  | [] => []
  | name :: rest => (r.tryLoad name).1 :: (r.tryLoad name).2.handles rest

/-- The names for which the loader was asked, newest first. -/
def log (r : Repository) : List String := r.answers.map (·.1)

theorem afterRequests_append (r : Repository) (names later : List String) :
    r.afterRequests (names ++ later) = (r.afterRequests names).afterRequests later :=
  List.foldl_append

theorem handles_append (r : Repository) (names later : List String) :
    r.handles (names ++ later) = r.handles names ++ (r.afterRequests names).handles later := by
  induction names generalizing r with
  | nil => rfl
  | cons name rest ih =>
    show (r.tryLoad name).1 :: (r.tryLoad name).2.handles (rest ++ later) = _
    rw [ih]
    rfl

theorem length_handles (r : Repository) (names : List String) :
    (r.handles names).length = names.length := by
  induction names generalizing r with
  | nil => rfl
  | cons name rest ih => exact congrArg (· + 1) (ih _)

/-- What a request keeps, requests keep. -/
theorem keeps_afterRequests {P : Repository → Prop} (request : ∀ r name, P r → P (r.tryLoad name).2)
    (start : P r) (names : List String) : P (r.afterRequests names) := by
  induction names generalizing r with
  | nil => exact start
  | cons name rest ih => exact ih (request r name start)

theorem extends_afterRequests (r : Repository) (names : List String) :
    r.Extends (r.afterRequests names) := by
  apply keeps_afterRequests (P := fun r' => r.Extends r')
  · intro r' name grown
    exact grown.trans (extends_tryLoad r' name)
  · exact .refl r

theorem faithful_afterRequests (loader : Loader) (names : List String) :
    ((fresh loader).afterRequests names).Faithful :=
  keeps_afterRequests (fun _ name faithful => faithful.tryLoad name) (.fresh loader) names

theorem loader_afterRequests (loader : Loader) (names : List String) :
    ((fresh loader).afterRequests names).loader = loader :=
  (extends_afterRequests (fresh loader) names).loader_eq

/-- Earlier requests are answered the same whatever comes after them. -/
theorem getElem?_handles_take (r : Repository) {i n : Nat} (early : i < n) :
    (r.handles (names.take n))[i]? = (r.handles names)[i]? := by
  by_cases inside : i < (names.take n).length
  · have split := r.handles_append (names.take n) (names.drop n)
    rw [List.take_append_drop] at split
    rw [split, List.getElem?_append_left (by rwa [length_handles])]
  · have short : names.length ≤ i := by
      rw [List.length_take] at inside
      omega
    rw [List.take_of_length_le (by omega)]

theorem getElem?_handles {i : Nat} (asked : names[i]? = some name) :
    (r.handles names)[i]? = some ((r.afterRequests (names.take i)).tryLoad name).1 := by
  induction names generalizing r i with
  | nil => simp at asked
  | cons first rest ih =>
    cases i with
    | zero =>
      obtain rfl : first = name := Option.some.inj asked
      rfl
    | succ i => exact ih asked

/-- The answer to a request is remembered from then on. -/
theorem answer?_of_handle {i : Nat} (asked : names[i]? = some name) :
    ∃ answer, (r.handles names)[i]? = some answer ∧
      (r.afterRequests names).answer? (normalizeClassName name) = some answer := by
  induction names generalizing r i with
  | nil => simp at asked
  | cons first rest ih =>
    cases i with
    | zero =>
      -- The first request: what it adds is kept by the others.
      obtain rfl : first = name := Option.some.inj asked
      refine ⟨(r.tryLoad first).1, rfl, ?_⟩
      exact (extends_afterRequests _ rest).answer?_eq (answer?_tryLoad r first)
    | succ i => exact ih asked

/-! ## The log -/

/-- A name has an answer exactly if the loader was asked for it. -/
theorem answer?_eq_none : r.answer? key = none ↔ key ∉ r.log := by
  rw [answer?, List.lookup_eq_none_iff, log, List.mem_map]
  constructor
  · rintro different ⟨entry, listed, rfl⟩
    exact absurd (different entry listed) (by simp)
  · intro missing entry listed
    rw [bne_iff_ne]
    rintro rfl
    exact missing ⟨entry, listed, rfl⟩

theorem log_ask (r : Repository) (key : String) : (r.ask key).2.log = key :: r.log := by
  unfold ask
  split <;> rfl

/-- A request asks the loader for the normal spelling of its name, unless that was done before. -/
theorem log_tryLoad (r : Repository) (name : String) :
    (normalizeClassName name ∈ r.log ∧ (r.tryLoad name).2 = r) ∨
      (normalizeClassName name ∉ r.log ∧
        (r.tryLoad name).2.log = normalizeClassName name :: r.log) := by
  unfold tryLoad
  split
  · rename_i answer known
    refine .inl ⟨?_, rfl⟩
    by_contra missing
    rw [answer?_eq_none.2 missing] at known
    cases known
  · rename_i new
    exact .inr ⟨answer?_eq_none.1 new, log_ask r _⟩

theorem mem_log_tryLoad :
    key ∈ (r.tryLoad name).2.log ↔ key = normalizeClassName name ∨ key ∈ r.log := by
  rcases r.log_tryLoad name with ⟨known, same⟩ | ⟨-, added⟩
  · rw [same]
    constructor
    · exact .inr
    · rintro (rfl | listed)
      · exact known
      · exact listed
  · rw [added, List.mem_cons]

/-- The log has the normal spellings of the names that were requested, and nothing else. -/
theorem mem_log_afterRequests :
    key ∈ (r.afterRequests names).log ↔
      (∃ name ∈ names, key = normalizeClassName name) ∨ key ∈ r.log := by
  induction names generalizing r with
  | nil => simp [afterRequests]
  | cons name rest ih =>
    show key ∈ ((r.tryLoad name).2.afterRequests rest).log ↔ _
    rw [ih, mem_log_tryLoad, List.exists_mem_cons_iff, or_left_comm, or_assoc]

/-- What is in the log is answered without the loader, so another one would do as well. -/
theorem tryLoad_of_mem_log (logged : normalizeClassName name ∈ r.log) (other : Loader) :
    { r with loader := other }.tryLoad name = ((r.tryLoad name).1, { r with loader := other }) := by
  have same : { r with loader := other }.answer? (normalizeClassName name) =
      r.answer? (normalizeClassName name) := rfl
  cases known : r.answer? (normalizeClassName name) with
  | none => exact absurd logged (answer?_eq_none.1 known)
  | some answer => simp only [tryLoad, same, known]

theorem nodup_log_tryLoad (r : Repository) (name : String) (once : r.log.Nodup) :
    (r.tryLoad name).2.log.Nodup := by
  rcases r.log_tryLoad name with ⟨-, same⟩ | ⟨new, added⟩
  · rwa [same]
  · rw [added]
    exact List.nodup_cons.2 ⟨new, once⟩

/-! ## Handles in order -/

/-- A request is told a handle in use, or the next one, or that there is no class. -/
theorem tryLoad_cases (faithful : r.Faithful) (name : String) :
    ((r.tryLoad name).1 = none ∧ (r.tryLoad name).2.size = r.size) ∨
      (∃ id, (r.tryLoad name).1 = some id ∧ id.index < r.size ∧ (r.tryLoad name).2.size = r.size) ∨
      ((r.tryLoad name).1 = some ⟨r.size⟩ ∧ (r.tryLoad name).2.size = r.size + 1) := by
  unfold tryLoad
  split
  · rename_i answer known
    cases answer with
    | none => exact .inl ⟨rfl, rfl⟩
    | some id =>
      obtain ⟨c, -, loaded⟩ := faithful.found _ id known
      obtain ⟨inside, -⟩ := Array.getElem?_eq_some_iff.1 loaded
      exact .inr (.inl ⟨id, rfl, inside, rfl⟩)
  · rcases r.ask_cases (normalizeClassName name) with ⟨c, -, next, classes⟩ | ⟨-, none, classes⟩
    · exact .inr (.inr ⟨next, by rw [size, classes, Array.size_push, size]⟩)
    · exact .inl ⟨none, by rw [size, classes, size]⟩

/-- The handles that the requests are told, without repetition, are numbered from zero in the order
in which they come up. -/
theorem eraseDups_handles (loader : Loader) (names : List String) :
    ((fresh loader).handles names).reduceOption.eraseDups =
      (List.range ((fresh loader).afterRequests names).size).map ClassId.mk := by
  -- By induction on the number of requests, so that the last request is the one that is looked at.
  induction names using List.reverseRecOn with
  | nil => rfl
  | append_singleton names name ih =>
    have known {id : ClassId} :
        id ∈ ((fresh loader).handles names).reduceOption ↔
          id.index < ((fresh loader).afterRequests names).size := by
      rw [← List.mem_eraseDups, ih, List.mem_map]
      constructor
      · rintro ⟨n, listed, rfl⟩
        exact List.mem_range.1 listed
      · intro inside
        exact ⟨id.index, List.mem_range.2 inside, rfl⟩
    rw [handles_append, afterRequests_append, List.reduceOption_append, List.eraseDups_append, ih]
    show _ ++ (([((fresh loader).afterRequests names).tryLoad name |>.1]).reduceOption.removeAll
      _).eraseDups = (List.range (((fresh loader).afterRequests names).tryLoad name).2.size).map _
    rcases tryLoad_cases (faithful_afterRequests loader names) name with
      ⟨none, same⟩ | ⟨id, old, inside, same⟩ | ⟨new, more⟩
    · rw [none, same]
      exact List.append_nil _
    · rw [old, same]
      simp [List.removeAll, known, inside]
    · rw [new, more, List.range_succ, List.map_append]
      simp [List.removeAll, known, List.eraseDups_cons]

/-! ## Two loaders -/

/-- The repositories remember the same answers and have the same classes. -/
structure SameContents (r r' : Repository) : Prop where
  answers : r'.answers = r.answers
  classes : r'.classes = r.classes

theorem SameContents.tryLoad (h : r.SameContents r') (name : String)
    (loads : normalizeClassName name ∉ r.log →
      r'.loader.load (normalizeClassName name) = r.loader.load (normalizeClassName name)) :
    (r'.tryLoad name).1 = (r.tryLoad name).1 ∧
      (r.tryLoad name).2.SameContents (r'.tryLoad name).2 := by
  have known : r'.answer? (normalizeClassName name) = r.answer? (normalizeClassName name) := by
    rw [answer?, h.answers, answer?]
  unfold Repository.tryLoad
  rw [known]
  split
  · exact ⟨rfl, h⟩
  · rename_i new
    unfold ask
    rw [loads (answer?_eq_none.1 new), h.answers, h.classes]
    split <;> exact ⟨rfl, rfl, rfl⟩

/-- Loaders that agree on the names in the log lead to the same answers. -/
theorem SameContents.handles (h : r.SameContents r') (names : List String)
    (loads : ∀ key ∈ (r.afterRequests names).log, r'.loader.load key = r.loader.load key) :
    r'.handles names = r.handles names ∧
      (r.afterRequests names).SameContents (r'.afterRequests names) := by
  induction names generalizing r r' with
  | nil => exact ⟨rfl, h⟩
  | cons name rest ih =>
    have listed : normalizeClassName name ∈ (r.afterRequests (name :: rest)).log :=
      mem_log_afterRequests.2 (.inl ⟨name, List.mem_cons_self, rfl⟩)
    obtain ⟨first, same⟩ := h.tryLoad name fun _ => loads _ listed
    obtain ⟨others, final⟩ := ih same fun key logged => by
      rw [(extends_tryLoad r' name).loader_eq, (extends_tryLoad r name).loader_eq]
      exact loads key logged
    exact ⟨congrArg₂ List.cons first others, final⟩

/-! ## Caches -/

/-- The requests `names` to a repository are answered as `load` answers, from a cache. -/
structure Caches (load : String → Except Error (Option ClassFile)) (r : Repository)
    (names : List String) : Prop where
  /-- The loader is asked once for each normal name that is requested, and for no other name. -/
  once : (r.afterRequests names).log.Nodup
  normal : ∀ key ∈ (r.afterRequests names).log, normalizeClassName key = key
  requested : ∀ key, key ∈ (r.afterRequests names).log ↔
    ∃ name ∈ names, key = normalizeClassName name
  /-- For a name that was requested before it is not asked: any other loader would do then. -/
  repeated : ∀ (i : Nat) (name : String), names[i]? = some name →
    (∃ earlier ∈ names.take i, normalizeClassName earlier = normalizeClassName name) →
    ∃ answer, (r.handles names)[i]? = some answer ∧ ∀ other : Loader,
      { r.afterRequests (names.take i) with loader := other }.tryLoad name =
        (answer, { r.afterRequests (names.take i) with loader := other })
  /-- Nothing depends on what the loader would have said about other names. -/
  determined : ∀ other : Loader, (∀ key ∈ (r.afterRequests names).log, other.load key = load key) →
    (fresh other).handles names = r.handles names ∧
      ((fresh other).afterRequests names).classes = (r.afterRequests names).classes
  /-- Every request is answered, with a handle exactly if there is a class and it can be read. -/
  answered : ∀ (i : Nat) (name : String), names[i]? = some name →
    ∃ answer, (r.handles names)[i]? = some answer ∧
      (answer.isSome ↔ ∃ c, load (normalizeClassName name) = .ok (some c))
  /-- The class of a handle is the one that was loaded, from its request on. -/
  kept : ∀ (i n : Nat) (name : String) (id : ClassId), names[i]? = some name →
    (r.handles names)[i]? = some (some id) → i < n →
    ∃ c, load (normalizeClassName name) = .ok (some c) ∧
      (r.afterRequests (names.take n)).class? id = some c
  /-- Two requests share a handle exactly if they are for one class. -/
  same_iff : ∀ (i j : Nat) (name name' : String) (id id' : ClassId),
    names[i]? = some name → names[j]? = some name' →
    (r.handles names)[i]? = some (some id) → (r.handles names)[j]? = some (some id') →
    (id = id' ↔ normalizeClassName name = normalizeClassName name')
  /-- The handles are given out in order, and there are as many as classes. -/
  numbered : (r.handles names).reduceOption.eraseDups =
    (List.range (r.afterRequests names).size).map ClassId.mk

/-- The requests `names` to a repository find the given classes by their normal names, and of
several with the same one the last. -/
structure FindsLast (classes : List ClassFile) (r : Repository) (names : List String) : Prop where
  hit_iff : ∀ (i : Nat) (name : String), names[i]? = some name →
    ((∃ id, (r.handles names)[i]? = some (some id)) ↔
      ∃ c ∈ classes, normalizeClassName c.name = normalizeClassName name)
  last : ∀ (i : Nat) (name : String) (id : ClassId), names[i]? = some name →
    (r.handles names)[i]? = some (some id) →
    ∃ before c after, classes = before ++ c :: after ∧
      normalizeClassName c.name = normalizeClassName name ∧
      (∀ c' ∈ after, normalizeClassName c'.name ≠ normalizeClassName name) ∧
      (r.afterRequests names).class? id = some c

/-- A handle belongs to the class that the loader gives for the name. -/
theorem exists_class_of_handle {loader : Loader} {i : Nat} {id : ClassId}
    (asked : names[i]? = some name) (told : ((fresh loader).handles names)[i]? = some (some id)) :
    ∃ c, loader.load (normalizeClassName name) = .ok (some c) ∧
      ((fresh loader).afterRequests names).class? id = some c := by
  obtain ⟨answer, told', remembered⟩ := answer?_of_handle (r := fresh loader) asked
  rw [told] at told'
  cases told'
  have found := (faithful_afterRequests loader names).found _ id remembered
  rwa [loader_afterRequests] at found

theorem isSome_handle_iff (loader : Loader) {i : Nat} (asked : names[i]? = some name) :
    ∃ answer, ((fresh loader).handles names)[i]? = some answer ∧
      (answer.isSome ↔ ∃ c, loader.load (normalizeClassName name) = .ok (some c)) := by
  obtain ⟨answer, told, remembered⟩ := answer?_of_handle (r := fresh loader) asked
  refine ⟨answer, told, ?_⟩
  cases answer with
  | some id =>
    obtain ⟨c, loads, -⟩ := exists_class_of_handle asked told
    exact ⟨fun _ => ⟨c, loads⟩, fun _ => rfl⟩
  | none =>
    constructor
    · intro absent
      cases absent
    · rintro ⟨c, loads⟩
      have missed := (faithful_afterRequests loader names).missed _ c remembered
      rw [loader_afterRequests] at missed
      exact absurd loads missed

theorem caches_fresh {load : String → Except Error (Option ClassFile)} {loader : Loader}
    (answers : loader.Answers load names) : (fresh loader).Caches load names := by
  have requested (key : String) : key ∈ ((fresh loader).afterRequests names).log ↔
      ∃ name ∈ names, key = normalizeClassName name := by
    rw [mem_log_afterRequests]
    exact or_iff_left List.not_mem_nil
  have answers' {i : Nat} {name : String} (asked : names[i]? = some name) :=
    answers name (List.mem_of_getElem? asked)
  constructor
  case once =>
    apply keeps_afterRequests nodup_log_tryLoad
    exact List.nodup_nil
  case normal =>
    intro key logged
    obtain ⟨name, -, rfl⟩ := (requested key).1 logged
    exact normalizeClassName_normalizeClassName name
  case requested => exact requested
  case repeated =>
    rintro i name asked ⟨earlier, listed, same⟩
    refine ⟨_, getElem?_handles asked, tryLoad_of_mem_log ?_⟩
    exact mem_log_afterRequests.2 (.inl ⟨earlier, listed, same.symm⟩)
  case determined =>
    intro other agrees
    have same : (fresh loader).SameContents (fresh other) := ⟨rfl, rfl⟩
    obtain ⟨told, final⟩ := same.handles names fun key logged => by
      obtain ⟨name, listed, rfl⟩ := (requested key).1 logged
      exact (agrees _ logged).trans (answers name listed).symm
    exact ⟨told, final.classes⟩
  case answered =>
    intro i name asked
    rw [← answers' asked]
    exact isSome_handle_iff loader asked
  case kept =>
    intro i n name id asked told early
    rw [← getElem?_handles_take _ early] at told
    rw [← answers' asked]
    exact exists_class_of_handle (by rwa [List.getElem?_take_of_lt early]) told
  case same_iff =>
    intro i j name name' id id' asked asked' told told'
    obtain ⟨_, again, remembered⟩ := answer?_of_handle (r := fresh loader) asked
    obtain ⟨_, again', remembered'⟩ := answer?_of_handle (r := fresh loader) asked'
    rw [told] at again
    rw [told'] at again'
    cases again
    cases again'
    constructor
    · rintro rfl
      exact (faithful_afterRequests loader names).unique _ _ id remembered remembered'
    · intro same
      rw [same, remembered'] at remembered
      cases remembered
      rfl
  case numbered => exact eraseDups_handles loader names

theorem findsLast_fresh (classes : List ClassFile) (names : List String) :
    (fresh (.ofClasses classes)).FindsLast classes names := by
  have load_eq (name : String) (answer : Option ClassFile) :
      (Loader.ofClasses classes).load (normalizeClassName name) = .ok answer ↔
        classes.reverse.find? (fun c => normalizeClassName c.name = normalizeClassName name) =
          answer := by
    simp [Loader.ofClasses, Loader.findLast?, normalizeClassName_normalizeClassName]
  constructor
  case hit_iff =>
    intro i name asked
    obtain ⟨answer, told, isSome_iff⟩ := isSome_handle_iff (.ofClasses classes) asked
    have found : (∃ c, (Loader.ofClasses classes).load (normalizeClassName name) = .ok (some c)) ↔
        ∃ c ∈ classes, normalizeClassName c.name = normalizeClassName name := by
      simp only [load_eq, ← Option.isSome_iff_exists, List.find?_isSome, List.mem_reverse,
        decide_eq_true_eq]
    rw [← found, ← isSome_iff, told, Option.isSome_iff_exists]
    simp
  case last =>
    intro i name id asked told
    obtain ⟨c, loads, loaded⟩ := exists_class_of_handle asked told
    obtain ⟨same, later, earlier, split, others⟩ :=
      List.find?_eq_some_iff_append.1 ((load_eq name _).1 loads)
    refine ⟨earlier.reverse, c, later.reverse, ?_, by simpa using same, ?_, loaded⟩
    · rw [← List.reverse_reverse classes, split]
      simp
    · intro c' listed
      simpa using others c' (List.mem_reverse.1 listed)

/-- A repository is a faithful cache. Whatever function says which classes there are, some loader
answers as it does for the names that are requested; and a fresh repository over any such loader
answers the requests from a cache of the function. Over classes in memory it finds them by their
normal names, the last of several with the same one. -/
theorem caches_requests (load : String → Except Error (Option ClassFile)) (names : List String) :
    (∃ loader : Loader, loader.Answers load names) ∧
      (∀ loader : Loader, loader.Answers load names → (fresh loader).Caches load names) ∧
      ∀ classes : List ClassFile, (fresh (.ofClasses classes)).FindsLast classes names := by
  refine ⟨⟨_, Loader.answers_limited load names⟩, fun loader answers => ?_, fun classes => ?_⟩
  · exact caches_fresh answers
  · exact findsLast_fresh classes names

/-- A class under every name, except that one of them cannot be read. -/
def boundless (name : String) : Except Error (Option ClassFile) :=
  if name = "acme/Broken" then .error .malformedDocument
  else if name = "acme/Missing" then .ok none
  else .ok (some { name })

/-- Two spellings of one name, a class that cannot be read and one that does not exist, each
requested twice, and another class. -/
theorem caches_boundless :
    let names := ["acme.Port", "acme.Broken", "acme/Port", "acme/Missing", "acme/Broken",
      "acme.Missing", "acme.Bus"]
    let r := fresh (.limited boundless (names.map normalizeClassName))
    r.handles names = [some ⟨0⟩, none, some ⟨0⟩, none, none, none, some ⟨1⟩] ∧
      (r.afterRequests names).log = ["acme/Bus", "acme/Missing", "acme/Broken", "acme/Port"] ∧
      r.Caches boundless names := by
  intro names r
  refine ⟨by decide +kernel, by decide +kernel, ?_⟩
  exact (caches_requests boundless names).2.1 _ (Loader.answers_limited boundless names)

end Repository

end Liveset

import Liveset.Foreign.Repository

/-!
# Repositories only grow

Asking a repository for a class keeps every answer it has given and every class it has loaded
(`Repository.extends_tryLoad`), so whoever asks for the same name later gets the same handle, and
the repository stays as it is (`Repository.tryLoad_of_extends`). The handles that a repository hands
out belong to loaded classes; `Consistent` says so and is kept by every request.
-/

set_option autoImplicit false

namespace Liveset.Repository

/-- `r'` gives every answer and has every class that `r` does, from the same loader. -/
structure Extends (r r' : Repository) : Prop where
  loader_eq : r'.loader = r.loader
  answer?_eq : ∀ {key : String} {answer : Option ClassId},
    r.answer? key = some answer → r'.answer? key = some answer
  class?_eq : ∀ {id : ClassId} {c : ClassFile}, r.class? id = some c → r'.class? id = some c

namespace Extends

variable {r r' r'' : Repository}

theorem refl (r : Repository) : r.Extends r := ⟨rfl, id, id⟩

theorem trans (h : r.Extends r') (h' : r'.Extends r'') : r.Extends r'' where
  loader_eq := h'.loader_eq.trans h.loader_eq
  answer?_eq answered := h'.answer?_eq (h.answer?_eq answered)
  class?_eq loaded := h'.class?_eq (h.class?_eq loaded)

/-- A loaded class stays loaded. -/
theorem isSome_class? (h : r.Extends r') {id : ClassId} (loaded : (r.class? id).isSome) :
    (r'.class? id).isSome := by
  obtain ⟨c, found⟩ := Option.isSome_iff_exists.1 loaded
  rw [h.class?_eq found]
  rfl

end Extends

/-- Every handle that was handed out belongs to a loaded class. -/
def Consistent (r : Repository) : Prop :=
  ∀ (key : String) (id : ClassId), r.answer? key = some (some id) → (r.class? id).isSome

theorem consistent_fresh (loader : Loader) : (fresh loader).Consistent := by
  intro key id answered
  simp [fresh, answer?] at answered

variable {r r' : Repository}

/-! ## Requests -/

/-- Adding an answer for a name that has none keeps the other answers. -/
theorem lookup_cons_of_new {key : String} {answer : Option ClassId} (new : r.answer? key = none)
    {key' : String} {answer' : Option ClassId} (answered : r.answer? key' = some answer') :
    ((key, answer) :: r.answers).lookup key' = some answer' := by
  have different : (key' == key) = false := by
    rw [beq_eq_false_iff_ne]
    rintro rfl
    rw [new] at answered
    cases answered
  rw [List.lookup_cons, different]
  exact answered

theorem class?_push {id : ClassId} {c new : ClassFile} (loaded : r.class? id = some c) :
    (r.classes.push new)[id.index]? = some c := by
  obtain ⟨inside, rfl⟩ := Array.getElem?_eq_some_iff.1 loaded
  exact Array.getElem?_push_lt inside

theorem extends_ask {key : String} (new : r.answer? key = none) : r.Extends (r.ask key).2 := by
  unfold ask
  split
  · exact ⟨rfl, lookup_cons_of_new new, class?_push⟩
  · exact ⟨rfl, lookup_cons_of_new new, id⟩

theorem answer?_ask (r : Repository) (key : String) :
    (r.ask key).2.answer? key = some (r.ask key).1 := by
  unfold ask
  split <;> exact List.lookup_cons_self

/-- A request keeps what the repository knows. -/
theorem extends_tryLoad (r : Repository) (name : String) : r.Extends (r.tryLoad name).2 := by
  unfold tryLoad
  split
  · exact .refl r
  · rename_i new
    exact extends_ask new

/-- A request is answered from memory from then on. -/
theorem answer?_tryLoad (r : Repository) (name : String) :
    (r.tryLoad name).2.answer? (normalizeClassName name) = some (r.tryLoad name).1 := by
  unfold tryLoad
  split
  · assumption
  · exact answer?_ask r _

/-- A request that is repeated later gives the same handle and changes nothing. -/
theorem tryLoad_of_extends {name : String} (h : (r.tryLoad name).2.Extends r') :
    r'.tryLoad name = ((r.tryLoad name).1, r') := by
  have answered := h.answer?_eq (answer?_tryLoad r name)
  rw [tryLoad, answered]

/-- A request that goes to the loader adds one answer and keeps the others. -/
theorem answer?_ask_eq_some {key key' : String} {answer : Option ClassId} :
    (r.ask key).2.answer? key' = some answer ↔
      (key' = key ∧ answer = (r.ask key).1) ∨ (key' ≠ key ∧ r.answer? key' = some answer) := by
  by_cases same : key' = key
  · subst same
    rw [answer?_ask, Option.some.injEq]
    simp [eq_comm]
  · have kept : (r.ask key).2.answer? key' = r.answer? key' := by
      unfold ask
      split <;> simp [answer?, List.lookup_cons, beq_eq_false_iff_ne.2 same]
    simp [kept, same]

/-- The loader finds a class, which gets the next handle, or it does not. -/
theorem ask_cases (r : Repository) (key : String) :
    (∃ c, r.loader.load key = .ok (some c) ∧ (r.ask key).1 = some ⟨r.classes.size⟩ ∧
      (r.ask key).2.classes = r.classes.push c) ∨
    ((∀ c, r.loader.load key ≠ .ok (some c)) ∧ (r.ask key).1 = none ∧
      (r.ask key).2.classes = r.classes) := by
  unfold ask
  split
  · rename_i c found
    exact .inl ⟨c, found, rfl, rfl⟩
  · rename_i missing
    exact .inr ⟨missing, rfl, rfl⟩

theorem Consistent.ask (h : r.Consistent) {key : String} (new : r.answer? key = none) :
    (r.ask key).2.Consistent := by
  intro key' id answered
  rcases answer?_ask_eq_some.1 answered with ⟨rfl, given⟩ | ⟨-, before⟩
  · -- The new answer: a handle is given only for a class that was just added.
    rcases r.ask_cases key' with ⟨c, -, handle, classes⟩ | ⟨-, none, -⟩
    · obtain rfl : id = ⟨r.classes.size⟩ := Option.some.inj (given.trans handle)
      simp [class?, classes]
    · cases given.trans none
  · exact (extends_ask new).isSome_class? (h key' id before)

theorem Consistent.tryLoad (h : r.Consistent) (name : String) : (r.tryLoad name).2.Consistent := by
  unfold Repository.tryLoad
  split
  · exact h
  · rename_i new
    exact h.ask new

/-- The handle that answers a request belongs to a loaded class. -/
theorem Consistent.isSome_class?_tryLoad (h : r.Consistent) {name : String} {id : ClassId}
    (found : (r.tryLoad name).1 = some id) : ((r.tryLoad name).2.class? id).isSome := by
  have answered := answer?_tryLoad r name
  rw [found] at answered
  exact h.tryLoad name _ id answered

end Liveset.Repository

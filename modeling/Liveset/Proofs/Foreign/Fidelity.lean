import Liveset.Proofs.Foreign.Growth

/-!
# A repository is faithful to its loader

The answers that a repository remembers are those of its loader: a handle belongs to the class that
the loader gives for the name, a miss to a name for which it gives none, and two names never share a
handle. `Faithful` says so. It is kept by every request, so whatever two repositories over one
loader are asked for, both find the class or both miss it (`Faithful.exists_sameClass`), and the
class is the same.
-/

set_option autoImplicit false

namespace Liveset.Repository

variable {r r' : Repository}

/-- The answers remembered are those of the loader. -/
structure Faithful (r : Repository) : Prop where
  found : ∀ key id, r.answer? key = some (some id) →
    ∃ c, r.loader.load key = .ok (some c) ∧ r.class? id = some c
  missed : ∀ key c, r.answer? key = some none → r.loader.load key ≠ .ok (some c)
  unique : ∀ key key' id, r.answer? key = some (some id) →
    r.answer? key' = some (some id) → key = key'

namespace Faithful

theorem fresh (loader : Loader) : (Repository.fresh loader).Faithful where
  found key id answered := by simp [Repository.fresh, answer?] at answered
  missed key c answered := by simp [Repository.fresh, answer?] at answered
  unique key key' id answered := by simp [Repository.fresh, answer?] at answered

/-- The next handle is not in use. -/
theorem ne_next (h : r.Faithful) {key : String} {id : ClassId}
    (answered : r.answer? key = some (some id)) : id ≠ ⟨r.classes.size⟩ := by
  rintro rfl
  obtain ⟨c, -, loaded⟩ := h.found key _ answered
  simp [class?] at loaded

theorem ask (h : r.Faithful) {key : String} (new : r.answer? key = none) :
    (r.ask key).2.Faithful := by
  have grown := extends_ask new
  -- What the new answer says, if it is a handle and if it is a miss.
  have handle {id : ClassId} (given : some id = (r.ask key).1) :
      id = ⟨r.classes.size⟩ ∧ ∃ c, r.loader.load key = .ok (some c) ∧
        (r.ask key).2.class? id = some c := by
    rcases r.ask_cases key with ⟨c, loads, next, classes⟩ | ⟨-, none, -⟩
    · obtain rfl := Option.some.inj (given.trans next)
      exact ⟨rfl, c, loads, by simp [class?, classes]⟩
    · cases given.trans none
  have miss (given : none = (r.ask key).1) (c : ClassFile) : r.loader.load key ≠ .ok (some c) := by
    rcases r.ask_cases key with ⟨c, -, next, -⟩ | ⟨missing, -, -⟩
    · cases given.trans next
    · exact missing c
  constructor
  case found =>
    intro key' id answered
    rw [grown.loader_eq]
    rcases answer?_ask_eq_some.1 answered with ⟨rfl, given⟩ | ⟨-, before⟩
    · exact (handle given).2
    · obtain ⟨c, loads, loaded⟩ := h.found key' id before
      exact ⟨c, loads, grown.class?_eq loaded⟩
  case missed =>
    intro key' c answered
    rw [grown.loader_eq]
    rcases answer?_ask_eq_some.1 answered with ⟨rfl, given⟩ | ⟨-, before⟩
    · exact miss given c
    · exact h.missed key' c before
  case unique =>
    -- Old handles differ from the next one, so an old name and the new one do not share a handle.
    intro key₁ key₂ id answered₁ answered₂
    rcases answer?_ask_eq_some.1 answered₁ with ⟨same₁, given₁⟩ | ⟨-, before₁⟩ <;>
      rcases answer?_ask_eq_some.1 answered₂ with ⟨same₂, given₂⟩ | ⟨-, before₂⟩
    · rw [same₁, same₂]
    · exact absurd (handle given₁).1 (h.ne_next before₂)
    · exact absurd (handle given₂).1 (h.ne_next before₁)
    · exact h.unique key₁ key₂ id before₁ before₂

theorem tryLoad (h : r.Faithful) (name : String) : (r.tryLoad name).2.Faithful := by
  unfold Repository.tryLoad
  split
  · exact h
  · rename_i new
    exact h.ask new

end Faithful

/-! ## Two repositories over one loader -/

/-- The two handles belong to one class: the repositories have given them for the same name. -/
def SameClass (r r' : Repository) (id id' : ClassId) : Prop :=
  ∃ key, r.answer? key = some (some id) ∧ r'.answer? key = some (some id')

theorem SameClass.exists_class {id id' : ClassId} (h : r.SameClass r' id id')
    (faithful : r.Faithful) (faithful' : r'.Faithful) (loader : r'.loader = r.loader) :
    ∃ c, r.class? id = some c ∧ r'.class? id' = some c := by
  obtain ⟨key, answered, answered'⟩ := h
  obtain ⟨c, loads, loaded⟩ := faithful.found key id answered
  obtain ⟨c', loads', loaded'⟩ := faithful'.found key id' answered'
  rw [loader, loads] at loads'
  cases loads'
  exact ⟨c, loaded, loaded'⟩

/-- What one repository found, the other finds too, if it has been asked. -/
theorem Faithful.exists_sameClass (h : r.Faithful) (h' : r'.Faithful)
    (loader : r'.loader = r.loader) {name : String} {id : ClassId} (asked : (r.tryLoad name).2 = r)
    (asked' : (r'.tryLoad name).2 = r') (found : (r.tryLoad name).1 = some id) :
    ∃ id', (r'.tryLoad name).1 = some id' ∧ r.SameClass r' id id' := by
  have answered := answer?_tryLoad r name
  have answered' := answer?_tryLoad r' name
  rw [asked, found] at answered
  rw [asked'] at answered'
  obtain ⟨c, loads, -⟩ := h.found _ id answered
  cases found' : (r'.tryLoad name).1 with
  | none =>
    rw [found'] at answered'
    exact absurd (loader ▸ loads) (h'.missed _ c answered')
  | some id' =>
    rw [found'] at answered'
    exact ⟨id', rfl, _, answered, answered'⟩

end Liveset.Repository

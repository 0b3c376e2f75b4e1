import Liveset.Foreign.Loader
import Liveset.Entity

/-!
# The repository of foreign classes

A repository remembers every answer of its loader by the normal spelling of the name, misses
included, so that no name is asked for twice. Each class found gets the next handle. A class that
cannot be read counts as missing.

What this module delivers: `Repository`, `tryLoad`, `class?`, `findField?` and `findMethod?`.
-/

set_option autoImplicit false

namespace Liveset

/-- The classes found so far, and the answers given so far by normal name, newest first. -/
structure Repository where
  loader : Loader := .empty
  answers : List (String × Option ClassId) := []
  classes : Array ClassFile := #[]

namespace Repository

/-- A repository that has not been asked for anything. -/
def fresh (loader : Loader) : Repository := { loader }

/-- The remembered answer for a normal name. -/
def answer? (r : Repository) (key : String) : Option (Option ClassId) := r.answers.lookup key

/-- Ask the loader for a normal name and remember what it says. -/
def ask (r : Repository) (key : String) : Option ClassId × Repository :=
  match r.loader.load key with
  | .ok (some c) =>
    let id : ClassId := ⟨r.classes.size⟩
    (some id, { r with answers := (key, some id) :: r.answers, classes := r.classes.push c })
  | _ => (none, { r with answers := (key, none) :: r.answers })

/-- The handle of a class, if it exists and can be read. -/
def tryLoad (r : Repository) (name : String) : Option ClassId × Repository :=
  match r.answer? (normalizeClassName name) with
  | some answer => (answer, r)
  | none => r.ask (normalizeClassName name)

/-- The description of a class. -/
def class? (r : Repository) (id : ClassId) : Option ClassFile := r.classes[id.index]?

/-- The position of a field in a class. -/
def findField? (r : Repository) (id : ClassId) (name descriptor : String) : Option Nat :=
  (r.class? id).bind fun c => c.findField? name descriptor

/-- The position of a method in a class. -/
def findMethod? (r : Repository) (id : ClassId) (name descriptor : String) : Option Nat :=
  (r.class? id).bind fun c => c.findMethod? name descriptor

/-- How many classes were found. -/
def size (r : Repository) : Nat := r.classes.size

/-- How many names the loader was asked for. -/
def asked (r : Repository) : Nat := r.answers.length

/-- A summary of the repository. -/
def summary (r : Repository) : String :=
  "ClassRepository \x7b cached: " ++ toString r.asked ++ ", loaded: " ++ toString r.size ++ " \x7d"

end Repository

end Liveset

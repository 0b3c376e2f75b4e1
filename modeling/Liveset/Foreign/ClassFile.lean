import Liveset.Json.Form
import Liveset.Json.Reader

/-!
# Foreign classes

A class from outside the program, described by its name, its super class, its interfaces and its
members. Members are told apart by name and type descriptor together. Class names are accepted with
dots or with slashes; the normal spelling has slashes.
-/

set_option autoImplicit false

namespace Liveset

/-- A member of a foreign class. -/
structure ForeignMember where
  name : String
  descriptor : String
deriving DecidableEq, Inhabited, Repr

/-- The description of a foreign class. -/
structure ClassFile where
  name : String
  superClass : Option String := none
  interfaces : List String := []
  fields : List ForeignMember := []
  methods : List ForeignMember := []
deriving DecidableEq, Inhabited, Repr

/-- The spelling of a class name with slashes. -/
def normalizeClassName (name : String) : String :=
  String.ofList (name.toList.map fun c => if c = '.' then '/' else c)

namespace ForeignMember

/-- The written form. -/
def form (m : ForeignMember) : Json :=
  .object [("name", toJson m.name), ("descriptor", toJson m.descriptor)]

/-- Read a member. -/
def ofForm? (value : Json) : Option ForeignMember := do
  let [name, descriptor] ← value.components? ["name", "descriptor"] | none
  return { name := ← Json.required name, descriptor := ← Json.required descriptor }

instance : JsonForm ForeignMember where
  toJson := form
  ofJson? := ofForm?

end ForeignMember

namespace ClassFile

/-- The names of the super class and the interfaces. -/
def parents (c : ClassFile) : List String := c.superClass.toList ++ c.interfaces

/-- The position of the first field with this name and descriptor. -/
def findField? (c : ClassFile) (name descriptor : String) : Option Nat :=
  c.fields.findIdx? fun m => m = ⟨name, descriptor⟩

/-- The position of the first method with this name and descriptor. -/
def findMethod? (c : ClassFile) (name descriptor : String) : Option Nat :=
  c.methods.findIdx? fun m => m = ⟨name, descriptor⟩

/-- The component names of the written form. -/
def names : List String := ["name", "super_class", "interfaces", "fields", "methods"]

/-- The written form. -/
def form (c : ClassFile) : Json :=
  .object (names.zip [toJson c.name, .ofOption c.superClass, toJson c.interfaces, toJson c.fields,
    toJson c.methods])

/-- Read a class description. -/
def ofForm? (value : Json) : Option ClassFile := do
  let [name, superClass, interfaces, fields, methods] ← value.components? names | none
  return {
    name := ← Json.required name
    superClass := ← Json.optional superClass
    interfaces := ← Json.orElse [] interfaces
    fields := ← Json.orElse [] fields
    methods := ← Json.orElse [] methods }

instance : JsonForm ClassFile where
  toJson := form
  ofJson? := ofForm?

/-- Read a class description from a document. -/
def parse? (text : String) : Option ClassFile :=
  (Json.parse? text).bind ofForm?

end ClassFile

end Liveset

import Liveset.Program.Basic
import Liveset.Error

/-!
# The support namespace

Emitted code relies on types of a support namespace: for boxing, for checked arithmetic, for the
description of generics and attributes. They are looked up by name in the program, and one that is
missing ends a pass.

What this module delivers: `Support.type`, `Support.methodsWhere` and `Support.methodsNamed`.
-/

set_option autoImplicit false

namespace Liveset

/-- The namespace in which support types are looked up. -/
structure Support where
  namespaceName : String := "Compiler.Internal"
deriving DecidableEq, Inhabited, Repr

namespace Support

/-- The full name of a support type. -/
def qualify (support : Support) (name : String) : String := support.namespaceName ++ "." ++ name

/-- The support type called `name`. -/
def type (support : Support) (p : Program) (name : String) : Except SupportError TypeId :=
  match p.findType? (support.qualify name) with
  | some id => .ok id
  | none => .error (.missingType (support.qualify name))

/-- The method definitions of a type whose name and number of parameters pass a test. -/
def matching (p : Program) (test : String → Nat → Bool) (id : TypeId) : List MethodId :=
  match p.typeDefinition? id with
  | none => []
  | some d =>
    d.methods.filter fun m =>
      match p.methodDefinition? m with
      | some method => test method.name method.parameters.length
      | none => false

/-- The methods of a support type that pass a test; that there are none is a failure, which calls
them `member`. -/
def methodsWhere (support : Support) (p : Program) (typeName member : String)
    (test : String → Nat → Bool) : Except SupportError (List MethodId) :=
  match support.type p typeName with
  | .error error => .error error
  | .ok id =>
    match matching p test id with
    | [] => .error (.missingMember (support.qualify typeName) member)
    | found => .ok found

/-- The methods of a support type that are called `member`. -/
def methodsNamed (support : Support) (p : Program) (typeName member : String) :
    Except SupportError (List MethodId) :=
  support.methodsWhere p typeName member fun name _ => name = member

/-- Does a name start with the word for taking out of a box? -/
def isUnboxName (name : String) : Bool := ['U', 'n', 'b', 'o', 'x'].isPrefixOf name.toList

end Support

end Liveset

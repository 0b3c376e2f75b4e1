import Liveset.Foreign.Repository
import Liveset.Metadata.Member

/-!
# Needs and steps

An expansion rule says what an entity needs. Most needs name an entity outright; two kinds depend on
the state of the pass. A method needs the method it overrides only if the type that declares that
one is reached by the time its turn comes. A foreign class or member is known only once its class
has been loaded, which the repository does when the rule is applied.

Loading turns needs into steps: a step names an entity, or the method whose overridden method is
wanted. An imported member that its class does not have leaves a diagnostic.

What this module delivers: `Need`, `Step`, `Diagnostic` and `Need.supply`.
-/

set_option autoImplicit false

namespace Liveset

/-- The two kinds of foreign members. -/
inductive ForeignKind where
  | field
  | method
deriving DecidableEq, Inhabited, Repr

/-- Something an expansion rule asks for. -/
inductive Need where
  /-- An entity. -/
  | entity (target : Entity)
  /-- The method that `method` overrides, if its declaring type is reached by then. -/
  | overridden (method : MethodId)
  /-- A foreign class, if it can be loaded. -/
  | foreignClass (name : String)
  /-- A foreign member that `requester` stands for, with its class. -/
  | foreignMember (kind : ForeignKind) (imported : MemberImport) (requester : Entity)
deriving DecidableEq, Inhabited, Repr

/-- Something to do next, once the foreign classes are loaded. -/
inductive Step where
  /-- Mark an entity. -/
  | mark (target : Entity)
  /-- Mark the method that `method` overrides, if its declaring type is reached by then. -/
  | markOverridden (method : MethodId)
deriving DecidableEq, Inhabited, Repr

/-- A problem that does not end a pass. -/
inductive Diagnostic where
  /-- An imported member that its class does not have. -/
  | foreignMemberNotFound (imported : MemberImport) (requester : Entity)
deriving DecidableEq, Inhabited, Repr

/-- What applying a rule gives: the steps, the repository after loading, and diagnostics. -/
structure Expansion where
  steps : List Step := []
  repository : Repository
  diagnostics : List Diagnostic := []

namespace Need

/-- The foreign member that an import names in a loaded class. -/
def foreignTarget? (r : Repository) (kind : ForeignKind) (imported : MemberImport) (id : ClassId) :
    Option Entity :=
  match kind with
  | .field => (r.findField? id imported.memberName imported.descriptor).map (.foreignField id)
  | .method => (r.findMethod? id imported.memberName imported.descriptor).map (.foreignMethod id)

/-- Meet one need. A class that cannot be loaded asks for nothing. -/
def meet (r : Repository) : Need → Expansion
  | .entity target => { steps := [.mark target], repository := r }
  | .overridden method => { steps := [.markOverridden method], repository := r }
  | .foreignClass name =>
    match r.tryLoad name with
    | (some id, r) => { steps := [.mark (.foreignClass id)], repository := r }
    | (none, r) => { repository := r }
  | .foreignMember kind imported requester =>
    match r.tryLoad imported.className with
    | (some id, r) =>
      match foreignTarget? r kind imported id with
      | some target => { steps := [.mark (.foreignClass id), .mark target], repository := r }
      | none =>
        { steps := [.mark (.foreignClass id)]
          repository := r
          diagnostics := [.foreignMemberNotFound imported requester] }
    | (none, r) => { repository := r }

/-- Meet needs one after the other. -/
def supply (r : Repository) : List Need → Expansion
  | [] => { repository := r }
  | need :: rest =>
    let first := need.meet r
    let others := supply first.repository rest
    { steps := first.steps ++ others.steps
      repository := others.repository
      diagnostics := first.diagnostics ++ others.diagnostics }

end Need

end Liveset

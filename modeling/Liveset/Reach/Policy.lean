import Liveset.Program.Basic

/-!
# Inclusion policies

Which members of a reached type are kept though nothing refers to them. A property is as visible as
the more visible of its two accessors, an event as the more visible of the methods that subscribe
and unsubscribe; accessors that are not definitions do not count.
-/

set_option autoImplicit false

namespace Liveset

/-- The policies that settings can name. -/
inductive Policy where
  /-- Keep the members that can be reached from outside the program. -/
  | visible
  /-- Keep every member. -/
  | all
  /-- Keep no member for its own sake. -/
  | none
deriving DecidableEq, Inhabited, Repr

namespace Program

/-- The visibilities of those accessors that are definitions. -/
def accessorVisibilities (p : Program) (accessors : List (Option MethodId)) : List Visibility :=
  accessors.filterMap fun accessor =>
    (accessor.bind p.methodDefinition?).map (·.visibility)

/-- The visibility of a member, if it is a definition. -/
def memberVisibility? (p : Program) : Member → Option Visibility
  | .method id => (p.methodDefinition? id).map (·.visibility)
  | .field id => (p.fieldDefinition? id).map (·.visibility)
  | .property id =>
    (p.property? id).map fun d => .widestOf (p.accessorVisibilities [d.getter, d.setter])
  | .event id => (p.event? id).map fun d => .widestOf (p.accessorVisibilities [d.add, d.remove])

end Program

/-- Does the policy keep a member of a reached type? -/
def Policy.includes (policy : Policy) (p : Program) (member : Member) : Bool :=
  match policy with
  | .all => true
  | .none => false
  | .visible => (p.memberVisibility? member).any Visibility.isExternal

end Liveset

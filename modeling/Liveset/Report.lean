import Liveset.Reach.Session
import Liveset.Entity.Form
import Liveset.Json.Printer

/-!
# Reports

A report sums up a pass with entities spelled by name, and an explanation spells out the chain that
keeps one entity. Both are written as JSON; a report of a finished pass is also what the command
line prints on request.
-/

set_option autoImplicit false

namespace Liveset

/-! ## Written forms -/

/-- The written form of arena sizes. -/
def ProgramStats.form (s : ProgramStats) : Json :=
  .object [("types", .ofNat s.types), ("type_definitions", .ofNat s.typeDefinitions),
    ("methods", .ofNat s.methods), ("fields", .ofNat s.fields),
    ("properties", .ofNat s.properties), ("events", .ofNat s.events),
    ("attributes", .ofNat s.attributes)]

/-- The written form of a diagnostic. -/
def Diagnostic.form : Diagnostic → Json
  | .foreignMemberNotFound imported requester =>
    .object [("kind", .string "foreign_member_not_found"),
      ("class_name", .string imported.className), ("member_name", .string imported.memberName),
      ("descriptor", .string imported.descriptor), ("referenced_by", toJson requester)]

/-- The wording of a diagnostic. -/
def Diagnostic.message : Diagnostic → String
  | .foreignMemberNotFound imported _ =>
    imported.className ++ " has no member " ++ imported.memberName ++ " " ++ imported.descriptor

/-- The written form of a count per kind. -/
def KindTally.form (tally : KindTally) : Json :=
  .object (tally.entries.map fun (kind, count) => (kind.name, .ofNat count))

/-- The written form of the counters of a pass. -/
def passStatsForm (roots : Nat) (expansions : KindTally) (classesLoaded : Nat) : Json :=
  .object [("roots", .ofNat roots), ("expansions", expansions.form),
    ("foreign_classes_loaded", .ofNat classesLoaded)]

/-! ## Reports -/

/-- A summary of a pass. -/
structure Report where
  program : ProgramStats
  entities : Nat
  types : List String
  foreignClasses : List String
  nullable : List String
  diagnostics : List Diagnostic
  roots : Nat
  expansions : KindTally
  classesLoaded : Nat
deriving Inhabited

namespace Report

/-- The summary of a finished pass. -/
def ofReachable (p : Program) (result : Reachable) : Report where
  program := p.stats
  entities := result.size
  types := result.types.map p.fullName
  foreignClasses := result.foreignClasses.map Prod.snd
  nullable := result.nullable.map p.fullName
  diagnostics := result.diagnostics
  roots := result.roots
  expansions := result.expansions
  classesLoaded := result.classesLoaded

/-- The written form. -/
def form (r : Report) : Json :=
  .object [("program", r.program.form), ("reachable_entities", .ofNat r.entities),
    ("reachable_types", toJson r.types), ("foreign_classes", toJson r.foreignClasses),
    ("used_in_nullable", toJson r.nullable),
    ("diagnostics", .array (r.diagnostics.map Diagnostic.form)),
    ("stats", passStatsForm r.roots r.expansions r.classesLoaded)]

/-- A heading with the number of names, and the names below it. -/
def listing (title : String) (names : List String) : List String :=
  (title ++ " (" ++ toString names.length ++ "):") :: names.map ("  " ++ ·)

/-- The lines of the summary for a reader. -/
def lines (r : Report) : List String :=
  listing "Reachable types" r.types ++
    (if r.foreignClasses.isEmpty then [] else listing "Foreign classes" r.foreignClasses) ++
    r.diagnostics.map (fun d => "warning: " ++ d.message) ++
    [toString r.entities ++ " entities reachable from " ++ toString r.roots ++ " roots"]

end Report

/-! ## Explanations -/

/-- Why an entity is kept: its name, and the names of the chain from a root to it. The chain is
empty when the entity is not reached. -/
structure Explanation where
  entity : String
  chain : List String
deriving DecidableEq, Inhabited, Repr

namespace Explanation

/-- The explanation of an entity after a pass. -/
def ofReachable (p : Program) (result : Reachable) (entity : Entity) : Explanation where
  entity := p.caption entity
  chain := ((result.explain? entity).getD []).map p.caption

/-- Explain an entity after a pass, if the questions for all these names return. -/
def ofReachable? (p : Program) (result : Reachable) (entity : Entity) : Option Explanation :=
  if (entity :: (result.explain? entity).getD []).all p.captionReturns then
    some (ofReachable p result entity)
  else none

/-- Is the entity kept? -/
def isReachable (e : Explanation) : Bool := !e.chain.isEmpty

/-- Names one below the other, each indented by two blanks more than the one before. -/
def indented (level : Nat) : List String → List String
  | [] => []
  | name :: rest =>
    (String.ofList (List.replicate (2 * level) ' ') ++ name) :: indented (level + 1) rest

/-- The lines of the explanation for a reader. -/
def lines (e : Explanation) : List String :=
  if e.isReachable then indented 0 e.chain else [e.entity ++ " is not reachable"]

end Explanation

end Liveset

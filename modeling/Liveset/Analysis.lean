import Liveset.Program.Document
import Liveset.Reach.Returning

/-!
# Whole analyses

From a program and root names to the result of a pass: the roots are marked in order, then the
attributes of the program are walked. Neither the search for the roots nor the pass need return;
both are undefined then.

What this module delivers: `resolveRoots`, `PassSettings`, `analyze` and `Program.load`.
-/

set_option autoImplicit false

namespace Liveset

/-- Read a program from a file. -/
def Program.load (tree : FileTree) (path : Path) : Except Error Program :=
  match tree.read path with
  | .error reason => .error (.unreadable path reason)
  | .ok text =>
    match Program.parse? text with
    | none => .error .malformedDocument
    | some p => .ok p

/-- The entities with the given qualified names, in order. A name that nothing bears is a
failure. -/
def resolveRoots (p : Program) : List String → ExceptT Error Option (List Entity)
  | [] => return []
  | name :: rest => do
    let found ← p.lookup name
    if found = [] then throw (.unknownRoot name)
    return found ++ (← resolveRoots p rest)

/-- How a pass is set up. -/
structure PassSettings where
  strategy : Strategy := .worklist
  recordRetention : Bool := true
  support : Support := {}
  policy : Policy := .visible
deriving DecidableEq, Inhabited, Repr

/-- A fresh session under the given settings. -/
def Session.configured (p : Program) (settings : PassSettings) (loader : Loader) : Session :=
  .fresh { program := p, includes := settings.policy.includes p, support := settings.support }
    settings.strategy loader settings.recordRetention

/-- Run a whole pass. -/
def analyze (p : Program) (roots : List Entity) (settings : PassSettings) (loader : Loader) :
    ExceptT SupportError Option Reachable := do
  let (verdict, session) ← (Session.configured p settings loader).markRoots? roots
  verdict
  let (verdict, session) ← session.walkProgramAttributes?
  verdict
  return session.finish

end Liveset

import Liveset.Analysis
import Liveset.Toml.Table

/-!
# Settings

The settings file of an analysis. It has four tables: `walk` with the strategy and whether retention
is recorded, `helpers` with the support namespace, `include` with the policy, and `foreign` with the
directory of class files. Everything may be left out and unknown names are skipped; a missing file
means that nothing was set.

What this module delivers: `Settings`, `Settings.parse?`, `Settings.load` and `Settings.form`.
-/

set_option autoImplicit false

namespace Liveset

/-- What a settings file decides. -/
structure Settings where
  pass : PassSettings := {}
  /-- The directory of class files, from where the settings file lies. -/
  classPath : String := "classes"
deriving DecidableEq, Inhabited, Repr

/-! ## Names of choices -/

/-- The name of a strategy. -/
def Strategy.name : Strategy → String
  | .worklist => "worklist"
  | .recursive => "recursive"

/-- The strategy with a name. -/
def Strategy.ofName? (name : String) : Option Strategy :=
  [Strategy.worklist, .recursive].find? (·.name = name)

/-- The name of a policy. -/
def Policy.name : Policy → String
  | .visible => "visible"
  | .all => "all"
  | .none => "none"

/-- The policy with a name. -/
def Policy.ofName? (name : String) : Option Policy :=
  [Policy.visible, .all, .none].find? (·.name = name)

namespace Settings

open Toml (Entry)

/-! ## Reading -/

/-- Read an entry if it is there. -/
def given {α : Type} (fallback : α) (read : Entry → Option α) : Option Entry → Option α
  | none => some fallback
  | some entry => read entry

/-- Apply the table `walk`. -/
def applyWalk (settings : Settings) (entry : Entry) : Option Settings := do
  match ← entry.components? ["strategy", "record_retention"] with
  | [strategy, recording] =>
    let strategy ← given settings.pass.strategy (·.choice?.bind Strategy.ofName?) strategy
    let recordRetention ← given settings.pass.recordRetention Entry.bool? recording
    return { settings with pass := { settings.pass with strategy, recordRetention } }
  | _ => none

/-- Apply the table `helpers`. -/
def applySupport (settings : Settings) (entry : Entry) : Option Settings := do
  match ← entry.components? ["namespace"] with
  | [name] =>
    let namespaceName ← given settings.pass.support.namespaceName Entry.string? name
    return { settings with pass := { settings.pass with support := { namespaceName } } }
  | _ => none

/-- Apply the table `include`. -/
def applyInclude (settings : Settings) (entry : Entry) : Option Settings := do
  match ← entry.components? ["policy"] with
  | [policy] =>
    let policy ← given settings.pass.policy (·.choice?.bind Policy.ofName?) policy
    return { settings with pass := { settings.pass with policy } }
  | _ => none

/-- Apply the table `foreign`. -/
def applyForeign (settings : Settings) (entry : Entry) : Option Settings := do
  match ← entry.components? ["class_path"] with
  | [path] => return { settings with classPath := ← given settings.classPath Entry.string? path }
  | _ => none

/-- The settings of a table. -/
def ofTable? (table : Toml.Table) : Option Settings := do
  let settings : Settings := {}
  let settings ← given settings settings.applyWalk (← table.entry? "walk")
  let settings ← given settings settings.applySupport (← table.entry? "helpers")
  let settings ← given settings settings.applyInclude (← table.entry? "include")
  given settings settings.applyForeign (← table.entry? "foreign")

/-- A text of one empty section may name a choice by the last part of its header. -/
def ofHeader? : List Toml.Section → Option Settings
  | [{ header := "walk" :: "strategy" :: rest, pairs := [], .. }] => do
    return { pass := { strategy := ← Strategy.ofName? (← rest.getLast?) } }
  | [{ header := "include" :: "policy" :: rest, pairs := [], .. }] => do
    return { pass := { policy := ← Policy.ofName? (← rest.getLast?) } }
  | _ => none

/-- The settings in a text. -/
def parse? (text : String) : Option Settings := do
  let sections ← Toml.sections? text
  match ofHeader? sections with
  | some settings => some settings
  | none => ofTable? (← Toml.Table.ofSections? sections)

/-- Read settings from a file; a file that is not there sets nothing. -/
def load (tree : FileTree) (path : Path) : Except Error Settings :=
  match tree.read path with
  | .error .notFound => .ok {}
  | .error reason => .error (.unreadable path reason)
  | .ok text =>
    match parse? text with
    | none => .error .malformedSettings
    | some settings => .ok settings

/-! ## Writing -/

/-- The written form of settings. -/
def form (settings : Settings) : Json :=
  .object
    [("walk", .object
      [("strategy", .string settings.pass.strategy.name),
        ("record_retention", .bool settings.pass.recordRetention)]),
      ("helpers", .object [("namespace", .string settings.pass.support.namespaceName)]),
      ("include", .object [("policy", .string settings.pass.policy.name)]),
      ("foreign", .object [("class_path", .string settings.classPath)])]

end Settings

end Liveset

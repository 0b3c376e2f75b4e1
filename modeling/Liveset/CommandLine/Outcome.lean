import Liveset.CommandLine.Arguments
import Liveset.Report
import Liveset.Settings

/-!
# Outcomes of a command

What a command line prints. The program is loaded first, then the settings; then the names are
looked up and the pass is run. The settings file lies beside the program unless another one is
given, and the class directory is found from where the settings file lies unless it is given itself.
A command that fails prints nothing but the reason. A command that does not return has no outcome.

What this module delivers: `Outcome`, `Failure` and `outcome`.
-/

set_option autoImplicit false

namespace Liveset.CommandLine

/-- Why a command fails. -/
inductive Failure where
  /-- The program cannot be loaded. -/
  | program (path : String) (error : Error)
  | general (error : Error)
  | unknownName (name : String)
  | noRoots
deriving DecidableEq, Inhabited, Repr

/-- The wording of a failure, with its causes. -/
def Failure.message : Failure → String
  | .program path error => "Failed to load program " ++ path ++ ": " ++ error.trail
  | .general error => error.trail
  | .unknownName name => "No type or member named '" ++ name ++ "'"
  | .noRoots => "No roots given and the program declares no entry points"

/-- What a command line leads to. -/
inductive Outcome where
  | refused (refusal : Refusal)
  | failed (failure : Failure)
  | printed (text : String)
deriving DecidableEq, Inhabited, Repr

namespace Outcome

/-- The exit status. -/
def status : Outcome → Nat
  | .refused .helpRequested => 0
  | .refused .misuse => 2
  | .failed _ => 1
  | .printed _ => 0

/-- What is printed as the result. -/
def output : Outcome → String
  | .printed text => text
  | _ => ""

end Outcome

/-! ## Paths -/

/-- The directory that a path lies in. -/
def directoryOf (path : Path) : Path := path.parent?.getD .empty

namespace Invocation

/-- The name of a settings file that is not given. -/
def settingsName : Path := .ofText "retain.toml"

/-- The path of the program. -/
def programPath (i : Invocation) : Path := .ofText i.program

/-- The path of the settings file. -/
def settingsPath (i : Invocation) : Path :=
  match i.settings with
  | some text => .ofText text
  | none => (directoryOf i.programPath).join settingsName

/-- The directory of class files. -/
def classDirectory (i : Invocation) (settings : Settings) : Path :=
  match i.classes with
  | some text => .ofText text
  | none => (directoryOf i.settingsPath).join (.ofText settings.classPath)

/-! ## Commands -/

/-- What a command works on. -/
structure Workspace where
  program : Program
  settings : Settings
  loader : Loader

/-- Load what an invocation names. -/
def workspace (i : Invocation) (tree : FileTree) : Except Failure Workspace := do
  let program ← (Program.load tree i.programPath).mapError (Failure.program i.program)
  let settings ← (Settings.load tree i.settingsPath).mapError Failure.general
  return { program, settings, loader := .ofDirectory tree (i.classDirectory settings) }

/-- The roots: the named ones, or the entry points of the program if none is named. -/
def rootsIn (i : Invocation) (p : Program) : ExceptT Failure Option (List Entity) :=
  if i.roots ≠ [] then (resolveRoots p i.roots).adapt Failure.general
  else if p.entryPoints = [] then throw .noRoots
  else return p.entryPoints

/-- The result of the pass over a workspace. -/
def pass (i : Invocation) (w : Workspace) (settings : PassSettings) :
    ExceptT Failure Option Reachable := do
  let roots ← i.rootsIn w.program
  (analyze w.program roots settings w.loader).adapt fun error => .general (.support error)

/-- The lines of an overview. -/
def overview (i : Invocation) (w : Workspace) (json : Bool) :
    ExceptT Failure Option (List String) := do
  let report := Report.ofReachable w.program (← i.pass w w.settings.pass)
  return if json then [report.form.pretty] else report.lines

/-- The lines that say why the entities with a name are kept. -/
def reasons (i : Invocation) (w : Workspace) (name : String) :
    ExceptT Failure Option (List String) := do
  let targets ← w.program.lookup name
  if targets = [] then throw (.unknownName name)
  let result ← i.pass w { w.settings.pass with recordRetention := true }
  let explanations ← targets.mapM fun target => Explanation.ofReachable? w.program result target
  return explanations.flatMap Explanation.lines

/-- The lines that an invocation prints. -/
def lines (i : Invocation) (tree : FileTree) : ExceptT Failure Option (List String) := do
  let w ← i.workspace tree
  match i.request with
  | .overview json => i.overview w json
  | .reason name => i.reasons w name

end Invocation

/-- Lines as text, each with its line break. -/
def textOfLines (lines : List String) : String :=
  lines.foldl (fun text line => text ++ line ++ "\n") ""

/-- What arguments lead to over a file tree. -/
def outcome (tree : FileTree) (arguments : List String) : Option Outcome :=
  match Invocation.parse arguments with
  | .error refusal => some (.refused refusal)
  | .ok invocation =>
    (invocation.lines tree).run.map fun
      | .error failure => .failed failure
      | .ok lines => .printed (textOfLines lines)

end Liveset.CommandLine

/-!
# Command-line arguments

The grammar of the command line. There are two commands, `analyze PROGRAM` and
`explain PROGRAM NAME`. Both take any number of roots; `analyze` also takes the switch for a JSON
report. The settings file and the class directory may be given in front of the command or behind it,
and the one behind it counts.

Arguments are taken one after the other. A value is written behind its option as the next argument
or in the same one: `--root X`, `--root=X`, `-rX`, `-r=X` and `-r X` are the same. A lone `--` ends
the options. The first fault or request for help decides. A value that stands in an argument of its
own is only checked when the next option or operand is taken, or at the end.

What this module delivers: `Invocation`, `Refusal` and `Invocation.parse`.
-/

set_option autoImplicit false

namespace Liveset.CommandLine

/-! ## Parameters -/

/-- What an argument can give a value to. -/
inductive Parameter where
  | settings
  | classes
  | root
  | json
  | program
  | name
deriving DecidableEq, Inhabited, Repr

namespace Parameter

/-- The long name of an option. Operands have none. -/
def longName? : Parameter → Option String
  | .settings => some "config"
  | .classes => some "classes"
  | .root => some "root"
  | .json => some "json"
  | .program => none
  | .name => none

/-- The letter of an option. -/
def letter? : Parameter → Option Char
  | .settings => some 'c'
  | .root => some 'r'
  | _ => none

/-- A switch takes no value. -/
def isSwitch (p : Parameter) : Bool := p = .json

/-- May the parameter be given more than once? -/
def isRepeatable (p : Parameter) : Bool := p = .root

/-- Is the value a path? A path is never empty. -/
def isPath (p : Parameter) : Bool := p = .settings || p = .classes || p = .program

end Parameter

/-- A command. -/
inductive Command where
  | analyze
  | explain
deriving DecidableEq, Inhabited, Repr

namespace Command

/-- The name of a command. -/
def name : Command → String
  | .analyze => "analyze"
  | .explain => "explain"

/-- The command with a name. -/
def ofName? (name : String) : Option Command := [analyze, explain].find? (·.name = name)

/-- The options that are known in front of the command. -/
def globalOptions : List Parameter := [.settings, .classes]

/-- The options that are known behind a command. -/
def options : Command → List Parameter
  | .analyze => .root :: .json :: globalOptions
  | .explain => .root :: globalOptions

/-- The operands of a command, in order. All of them are required. -/
def operands : Command → List Parameter
  | .analyze => [.program]
  | .explain => [.program, .name]

end Command

/-! ## Taking arguments -/

/-- Why arguments do not make an invocation. -/
inductive Refusal where
  | helpRequested
  | misuse
deriving DecidableEq, Inhabited, Repr

/-- What has been taken so far. -/
structure Reading where
  /-- The operands still to come. -/
  operands : List Parameter := []
  /-- The parameters given so far, newest first. -/
  given : List (Parameter × String) := []
  /-- A parameter whose value is still to come, or to be checked. -/
  pending : Option (Parameter × Option String) := none
  /-- Have the options ended? -/
  isLiteral : Bool := false
deriving DecidableEq, Inhabited, Repr

namespace Reading

/-- Is the next argument the value of an option? -/
def awaits (r : Reading) : Bool :=
  !r.isLiteral && r.pending.any fun p => p.2.isNone

/-- Note a value. -/
def note (r : Reading) (p : Parameter) (value : String) : Except Refusal Reading :=
  if p.isPath && value = "" then .error .misuse
  else if !p.isRepeatable && r.given.any (·.1 = p) then .error .misuse
  else .ok { r with given := (p, value) :: r.given }

/-- Note the pending value. One that never came is a misuse. -/
def settle (r : Reading) : Except Refusal Reading :=
  match r.pending with
  | none => .ok r
  | some (_, none) => .error .misuse
  | some (p, some value) => { r with pending := none }.note p value

/-- Wait for the value of an option. -/
def expect (r : Reading) (p : Parameter) : Except Refusal Reading := do
  return { ← r.settle with pending := some (p, none) }

/-- Take a value that stands in the same argument as its option. -/
def attach (r : Reading) (p : Parameter) (value : String) : Except Refusal Reading := do
  (← r.settle).note p value

/-- A request for help. Pending values are checked before. -/
def help (r : Reading) : Except Refusal Reading := do
  let _ ← r.settle
  .error .helpRequested

/-- Take an option by its long name, with the value behind the equals sign. -/
def takeLong (options : List Parameter) (r : Reading) (name : String) (value : Option String) :
    Except Refusal Reading :=
  if name = "help" then if value.isSome then .error .misuse else r.help
  else match options.find? (·.longName? = some name) with
    | none => .error .misuse
    | some p =>
      match value with
      | none => if p.isSwitch then r.attach p "" else r.expect p
      | some value => if p.isSwitch then .error .misuse else r.attach p value

/-- Take an option by its letter, with the rest of the argument as its value. -/
def takeLetter (options : List Parameter) (r : Reading) (letter : Char) (rest : List Char) :
    Except Refusal Reading :=
  if letter = 'h' then r.help
  else match options.find? (·.letter? = some letter) with
    | none => .error .misuse
    | some p =>
      match rest with
      | [] => r.expect p
      | '=' :: value => r.attach p (String.ofList value)
      | value => r.attach p (String.ofList value)

/-- Take an operand. -/
def takeOperand (r : Reading) (value : String) : Except Refusal Reading :=
  match r.operands with
  | [] => .error .misuse
  | p :: rest => do
    return { ← r.settle with operands := rest, pending := some (p, some value) }

/-- Cut an option at its first equals sign. -/
def splitValue (chars : List Char) : String × Option String :=
  match chars.span (· ≠ '=') with
  | (name, []) => (String.ofList name, none)
  | (name, _ :: value) => (String.ofList name, some (String.ofList value))

/-- Take one argument. -/
def take (options : List Parameter) (r : Reading) (argument : String) : Except Refusal Reading :=
  if r.isLiteral then r.takeOperand argument
  else match argument.toList with
    | ['-', '-'] => .ok { r with isLiteral := true }
    | '-' :: '-' :: chars =>
      let (name, value) := splitValue chars
      r.takeLong options name value
    | '-' :: letter :: rest => r.takeLetter options letter rest
    | _ =>
      match r.pending with
      | some (p, none) => .ok { r with pending := some (p, some argument) }
      | _ => r.takeOperand argument

/-- Take all arguments and check that nothing is missing. -/
def takeAll (options : List Parameter) (r : Reading) (arguments : List String) :
    Except Refusal Reading := do
  let r ← (← arguments.foldlM (take options) r).settle
  if r.operands.isEmpty then return r else throw .misuse

/-- The value of a parameter. -/
def value? (r : Reading) (p : Parameter) : Option String := r.given.lookup p

/-- All values of a parameter, in the order in which they were given. -/
def values (r : Reading) (p : Parameter) : List String :=
  (r.given.reverse.filter (·.1 = p)).map Prod.snd

end Reading

/-! ## Invocations -/

/-- What is asked for: an overview of what is kept, or the reason why an entity is. -/
inductive Request where
  | overview (json : Bool)
  | reason (name : String)
deriving DecidableEq, Inhabited, Repr

/-- A complete command line. -/
structure Invocation where
  settings : Option String
  classes : Option String
  program : String
  roots : List String
  request : Request
deriving DecidableEq, Inhabited, Repr

/-- The invocation made of what was taken in front of the command and behind it. -/
def Invocation.ofReadings (front back : Reading) (command : Command) : Invocation where
  settings := back.value? .settings <|> front.value? .settings
  classes := back.value? .classes <|> front.value? .classes
  program := (back.value? .program).getD ""
  roots := back.values .root
  request := match command with
    | .analyze => .overview (back.value? .json).isSome
    | .explain => .reason ((back.value? .name).getD "")

/-- What the command `help` leads to. -/
def helpOn : List String → Refusal
  | [] => .helpRequested
  | [topic] =>
    if topic = "help" || (Command.ofName? topic).isSome then .helpRequested else .misuse
  | _ => .misuse

/-- Take the arguments behind a command. -/
def Invocation.parseBehind (front : Reading) (command : Command) (arguments : List String) :
    Except Refusal Invocation := do
  let back ← Reading.takeAll command.options { operands := command.operands } arguments
  return Invocation.ofReadings (← front.settle) back command

/-- Take the arguments up to the command, then those behind it. The value of an option, and whatever
stands behind a lone `--`, is no command. -/
def Invocation.parseFrom (front : Reading) : List String → Except Refusal Invocation
  | [] => .error .misuse
  | argument :: rest =>
    let isPlain := !front.isLiteral && !front.awaits
    if isPlain && argument = "help" then .error (helpOn rest)
    else match if isPlain then Command.ofName? argument else none with
      | some command => Invocation.parseBehind front command rest
      | none =>
        match front.take Command.globalOptions argument with
        | .error refusal => .error refusal
        | .ok front => Invocation.parseFrom front rest

/-- The invocation that arguments make. -/
def Invocation.parse (arguments : List String) : Except Refusal Invocation :=
  Invocation.parseFrom {} arguments

end Liveset.CommandLine

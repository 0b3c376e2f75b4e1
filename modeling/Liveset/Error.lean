import Liveset.FileTree

/-!
# Failures

Why an operation of the library fails. A pass itself can only fail because a support type or one of
its methods is missing (`SupportError`); everything else concerns the input. `message` gives the
wording and `trail` the chain of causes: a reason for failing to read stands twice in a trail, once
inside the message that names the path and once on its own.
-/

set_option autoImplicit false

namespace Liveset

/-- A support type, or a method of one, that a program lacks. Names are in full. -/
inductive SupportError where
  | missingType (fullName : String)
  | missingMember (typeName member : String)
deriving DecidableEq, Inhabited, Repr

/-- The wording of a missing support type or method. -/
def SupportError.message : SupportError → String
  | .missingType fullName => "Helper type not found in support namespace: " ++ fullName
  | .missingMember typeName member => "Helper member not found: " ++ typeName ++ "." ++ member

/-- Why an operation fails. -/
inductive Error where
  | support (error : SupportError)
  | unknownRoot (name : String)
  | unreadable (path : Path) (reason : ReadFailure)
  | malformedDocument
  | malformedSettings
deriving DecidableEq, Inhabited, Repr

namespace Error

/-- The wording of a failure. -/
def message : Error → String
  | .support error => error.message
  | .unknownRoot name => "Unknown root: " ++ name
  | .unreadable path reason => "Failed to read " ++ path.text ++ ": " ++ reason.message
  | .malformedDocument => "JSON error"
  | .malformedSettings => "Invalid config"

/-- The wording of a failure followed by what caused it. -/
def trail : Error → String
  | .unreadable path reason =>
    (Error.unreadable path reason).message ++ ": " ++ reason.message
  | error => error.message

end Error

end Liveset

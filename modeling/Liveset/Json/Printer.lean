import Liveset.Json.Value

/-!
# Writing JSON values

Two layouts of a value: `compact` on one line without blanks, and `pretty` with two blanks of
indentation per level, one item or field per line, a blank after each colon, and an empty array or
object kept on one line. Strings escape the quote, the backslash and the control characters and
leave every other character as it is.

An unreadable value has no text that could be kept, and `null` stands in its place.

The layouts share one function from a value to pieces of text, so they differ only in what stands
between the pieces.
-/

set_option autoImplicit false

namespace Liveset.Json

/-! ## Strings -/

/-- A hexadecimal digit in lower case. -/
def hexChar (n : Nat) : Char :=
  if n < 10 then Char.ofNat ('0'.toNat + n) else Char.ofNat ('a'.toNat + (n - 10))

/-- The written form of a character inside a string. -/
def escapeChar (c : Char) : List Char :=
  if c = '"' then ['\\', '"']
  else if c = '\\' then ['\\', '\\']
  else if c = '\n' then ['\\', 'n']
  else if c = '\r' then ['\\', 'r']
  else if c = '\t' then ['\\', 't']
  else if c = '\x08' then ['\\', 'b']
  else if c = '\x0c' then ['\\', 'f']
  else if c.toNat < 0x20 then
    ['\\', 'u', '0', '0', hexChar (c.toNat / 16), hexChar (c.toNat % 16)]
  else [c]

/-- A string in quotes. -/
def quote (s : String) : List Char :=
  '"' :: (s.toList.flatMap escapeChar ++ ['"'])

/-! ## Layouts -/

/-- What stands between the parts of a value. `level` counts the arrays and objects around it. -/
structure Layout where
  /-- Written after an opening bracket, after a comma and before a closing bracket. -/
  newline : (level : Nat) → List Char
  /-- Written after the name of a field. -/
  colon : List Char

/-- Everything on one line without blanks. -/
def Layout.compact : Layout where
  newline _ := []
  colon := [':']

/-- One item per line, indented by two blanks per level. -/
def Layout.pretty : Layout where
  newline level := '\n' :: List.replicate (2 * level) ' '
  colon := [':', ' ']

mutual

/-- The characters of a value inside `level` arrays and objects. -/
def chars (layout : Layout) (level : Nat) : Json → List Char
  | .null => ['n', 'u', 'l', 'l']
  | .bool true => ['t', 'r', 'u', 'e']
  | .bool false => ['f', 'a', 'l', 's', 'e']
  | .number n => n.chars
  | .string s => quote s
  | .unreadable => ['n', 'u', 'l', 'l']
  | .array [] => ['[', ']']
  | .array (item :: rest) =>
    '[' :: (layout.newline (level + 1) ++ chars layout (level + 1) item ++
      itemChars layout (level + 1) rest ++ layout.newline level ++ [']'])
  | .object [] => ['{', '}']
  | .object ((name, value) :: rest) =>
    '{' :: (layout.newline (level + 1) ++ quote name ++ layout.colon ++
      chars layout (level + 1) value ++ fieldChars layout (level + 1) rest ++
      layout.newline level ++ ['}'])

/-- The characters of the items after the first. -/
def itemChars (layout : Layout) (level : Nat) : List Json → List Char
  | [] => []
  | item :: rest =>
    ',' :: (layout.newline level ++ chars layout level item ++ itemChars layout level rest)

/-- The characters of the fields after the first. -/
def fieldChars (layout : Layout) (level : Nat) : List (String × Json) → List Char
  | [] => []
  | (name, value) :: rest =>
    ',' :: (layout.newline level ++ quote name ++ layout.colon ++ chars layout level value ++
      fieldChars layout level rest)

end

/-- The value on one line. -/
def compact (value : Json) : String := String.ofList (chars .compact 0 value)

/-- The value with one item or field per line. -/
def pretty (value : Json) : String := String.ofList (chars .pretty 0 value)

end Liveset.Json

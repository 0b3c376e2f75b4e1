import Liveset.Json.Token

/-!
# Reading JSON values

The grammatical half of reading. The reader is a machine with a stack: an opening bracket pushes a
part-built array or object, a finished value is handed to the one on top, and a closing bracket
finishes that one in turn. It takes one token per step, so the run over a text is a fold and nesting
has no limit here.

An object with an unreadable name still has to obey the grammar, and is then unreadable itself.

What this module delivers: `Reader.step`, and `Json.parse?`, which reads a whole text.
-/

set_option autoImplicit false

namespace Liveset.Json

namespace Reader

/-- A part-built array or object. Finished items and fields stand newest first. -/
inductive Frame where
  /-- An array with its finished items. -/
  | items (done : List Json)
  /-- An object between two fields. -/
  | fields (done : List (String × Json))
  /-- An object whose next field has a name and waits for its value. -/
  | named (done : List (String × Json)) (name : String)
  /-- An object that has had an unreadable name. -/
  | spoiled
deriving Inhabited

/-- What may come next. -/
inductive Expected where
  /-- A value. -/
  | value
  /-- The first item of an array, or its end. -/
  | firstItem
  /-- The first field name of an object, or its end. -/
  | firstName
  /-- A field name. -/
  | name
  /-- The colon after a field name. -/
  | colon
  /-- A comma, or the end of the innermost array or object. -/
  | next
  /-- Nothing: the text has had its value. -/
  | nothing (value : Json)
deriving Inhabited

end Reader

/-- The reader: what may come next, and the part-built arrays and objects, innermost first. -/
structure Reader where
  expected : Reader.Expected := .value
  stack : List Reader.Frame := []
deriving Inhabited

namespace Reader

/-- Hand a finished value to the innermost part-built array or object. -/
def give (value : Json) : List Frame → Option Reader
  | [] => some ⟨.nothing value, []⟩
  | .items done :: outer => some ⟨.next, .items (value :: done) :: outer⟩
  | .named done name :: outer => some ⟨.next, .fields ((name, value) :: done) :: outer⟩
  | .spoiled :: outer => some ⟨.next, .spoiled :: outer⟩
  | .fields _ :: _ => none

/-- A token where a value may begin. -/
def beginValue (stack : List Frame) : Token → Option Reader
  | .null => give .null stack
  | .bool b => give (.bool b) stack
  | .number n => give (.number n) stack
  | .string s => give (.string s) stack
  | .unreadable => give .unreadable stack
  | .openArray => some ⟨.firstItem, .items [] :: stack⟩
  | .openObject => some ⟨.firstName, .fields [] :: stack⟩
  | _ => none

/-- The name of a field, for the innermost part-built object. -/
def beginField : List Frame → Token → Option Reader
  | .fields done :: outer, .string name => some ⟨.colon, .named done name :: outer⟩
  | .fields _ :: outer, .unreadable => some ⟨.colon, .spoiled :: outer⟩
  | .spoiled :: outer, .string _ => some ⟨.colon, .spoiled :: outer⟩
  | .spoiled :: outer, .unreadable => some ⟨.colon, .spoiled :: outer⟩
  | _, _ => none

/-- Take one token. -/
def step (reader : Reader) (token : Token) : Option Reader :=
  match reader.expected, reader.stack, token with
  | .firstItem, .items done :: outer, .closeArray => give (.array done.reverse) outer
  | .firstItem, stack, token => beginValue stack token
  | .value, stack, token => beginValue stack token
  | .firstName, .fields done :: outer, .closeObject => give (.object done.reverse) outer
  | .firstName, stack, token => beginField stack token
  | .name, stack, token => beginField stack token
  | .colon, stack, .colon => some ⟨.value, stack⟩
  | .next, .items done :: outer, .comma => some ⟨.value, .items done :: outer⟩
  | .next, .items done :: outer, .closeArray => give (.array done.reverse) outer
  | .next, .fields done :: outer, .comma => some ⟨.name, .fields done :: outer⟩
  | .next, .fields done :: outer, .closeObject => give (.object done.reverse) outer
  | .next, .spoiled :: outer, .comma => some ⟨.name, .spoiled :: outer⟩
  | .next, .spoiled :: outer, .closeObject => give .unreadable outer
  | _, _, _ => none

/-- Take the tokens one after the other. -/
def run (reader : Reader) : List Token → Option Reader
  | [] => some reader
  | token :: rest => match reader.step token with
    | none => none
    | some next => run next rest

/-- The value, once the text has ended. -/
def finish (reader : Reader) : Option Json :=
  match reader.expected with
  | .nothing value => some value
  | _ => none

end Reader

/-- The value of a token sequence. -/
def ofTokens? (tokens : List Token) : Option Json :=
  (Reader.run {} tokens).bind Reader.finish

/-- The value of a text. -/
def parse? (text : String) : Option Json :=
  (Token.scan? text.toList).bind ofTokens?

end Liveset.Json

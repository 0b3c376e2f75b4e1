import Liveset.Json.Token

/-!
# Tokens of a TOML text

The lexical half of reading settings. A text is cut into line breaks, runs of blanks, punctuation,
bare words and strings; comments leave nothing behind. As for JSON, the scanner is a machine that
takes one character per step.

A carriage return in front of a line feed is part of the line break, everywhere. A string stands
between double quotes, with escapes, or between single quotes, without; tripled quotes let it run
over several lines. A line break right after the opening of such a string is dropped, a backslash
before a line break swallows the break and the blanks after it, and up to two quotes may stand right
before the closing ones.

What this module delivers: `Token`, the machine `Scanner` with its `step`, and `Token.scan?`.
-/

set_option autoImplicit false

namespace Liveset.Toml

/-- A lexical unit of a TOML text. -/
inductive Token where
  | lineBreak
  /-- A run of spaces and tabs; is it one single space? -/
  | blank (single : Bool)
  | equals
  | period
  | comma
  | colon
  | plus
  | openBrace
  | closeBrace
  | openBracket
  | closeBracket
  /-- Letters, digits, dashes and underscores. -/
  | word (text : String)
  /-- A string; were its quotes tripled? -/
  | string (text : String) (tripled : Bool)
deriving DecidableEq, Inhabited, Repr

/-! ## The scanner -/

namespace Scanner

/-- A string that is being read, its characters newest first. -/
structure Body where
  quote : Char
  tripled : Bool
  /-- Has anything followed the opening quotes? -/
  begun : Bool := false
  chars : List Char := []
deriving DecidableEq, Inhabited, Repr

namespace Body

/-- The string with one more character. -/
def push (body : Body) (c : Char) : Body := { body with chars := c :: body.chars, begun := true }

/-- The string with one more of its own quotes. -/
def pushQuote (body : Body) : Body := body.push body.quote

/-- The token of a finished string. -/
def token (body : Body) : Token := .string (String.ofList body.chars.reverse) body.tripled

end Body

/-- What the scanner is in the middle of. -/
inductive Mode where
  /-- Between two tokens. -/
  | between
  /-- Inside a run of blanks. -/
  | blanks (single : Bool)
  /-- Inside a comment. -/
  | comment
  /-- Inside a word, newest letter first. -/
  | word (letters : List Char)
  /-- After the first quote, or after the first two. -/
  | opening (quote : Char) (second : Bool)
  /-- Inside a string. -/
  | text (body : Body)
  /-- After one of the quotes of a tripled string, or after two. -/
  | quotes (body : Body) (second : Bool)
  /-- After the three closing quotes; one more may still belong to the string. -/
  | closed (body : Body)
  /-- After the three closing quotes and one more that belongs to the string. -/
  | closedExtra (body : Body)
  /-- After the backslash of an escape. -/
  | escape (body : Body)
  /-- Inside a numbered escape: `left` more digits follow the next one. -/
  | unit (body : Body) (left value : Nat)
  /-- After a backslash and a blank: a line break must follow. -/
  | joining (body : Body)
  /-- After a backslash and a line break: blanks are skipped. -/
  | skipping (body : Body)
deriving DecidableEq, Inhabited, Repr

end Scanner

/-- The scanner: its mode and the tokens found so far, newest first. -/
structure Scanner where
  mode : Scanner.Mode := .between
  found : List Token := []
deriving Inhabited

namespace Scanner

/-- Characters of a bare word. -/
def isWordChar (c : Char) : Bool := c.isAlphanum || c = '-' || c = '_'

/-- Characters that a string may hold as they are. -/
def isPlain (c : Char) : Bool := c = '\t' || (0x20 ≤ c.toNat && c.toNat ≠ 0x7f)

/-- The punctuation mark of a character. -/
def mark? (c : Char) : Option Token :=
  if c = '\n' then some .lineBreak
  else if c = '=' then some .equals
  else if c = '.' then some .period
  else if c = ',' then some .comma
  else if c = ':' then some .colon
  else if c = '+' then some .plus
  else if c = '{' then some .openBrace
  else if c = '}' then some .closeBrace
  else if c = '[' then some .openBracket
  else if c = ']' then some .closeBracket
  else none

/-- The character behind a short escape. -/
def shortEscape? (c : Char) : Option Char :=
  if c = '/' then none else Json.Scanner.shortEscape? c

/-- A character between two tokens. -/
def start (found : List Token) (c : Char) : Option Scanner :=
  if c = ' ' then some ⟨.blanks true, found⟩
  else if c = '\t' then some ⟨.blanks false, found⟩
  else if c = '#' then some ⟨.comment, found⟩
  else if c = '"' || c = '\x27' then some ⟨.opening c false, found⟩
  else if isWordChar c then some ⟨.word [c], found⟩
  else (mark? c).map fun token => ⟨.between, token :: found⟩

/-- A character inside a string. -/
def inside (found : List Token) (body : Body) (c : Char) : Option Scanner :=
  if c = '\n' then
    if body.tripled then
      some ⟨.text (if body.begun then body.push c else { body with begun := true }), found⟩
    else none
  else if c = body.quote then
    if body.tripled then some ⟨.quotes body false, found⟩
    else some ⟨.between, body.token :: found⟩
  else if c = '\\' && body.quote = '"' then some ⟨.escape body, found⟩
  else if isPlain c then some ⟨.text (body.push c), found⟩
  else none

/-- The character after a backslash. -/
def escaped (body : Body) (c : Char) : Option Mode :=
  if c = 'u' then some (.unit body 3 0)
  else if c = 'U' then some (.unit body 7 0)
  else if body.tripled && c = '\n' then some (.skipping { body with begun := true })
  else if body.tripled && (c = ' ' || c = '\t') then some (.joining { body with begun := true })
  else (shortEscape? c).map fun meant => .text (body.push meant)

/-- Take one character. -/
def step (scanner : Scanner) (c : Char) : Option Scanner :=
  let found := scanner.found
  match scanner.mode with
  | .between => start found c
  | .blanks single =>
    if c = ' ' || c = '\t' then some ⟨.blanks false, found⟩
    else start (.blank single :: found) c
  | .comment =>
    if c = '\n' then some ⟨.between, .lineBreak :: found⟩
    else if c = '\t' || 0x20 ≤ c.toNat then some ⟨.comment, found⟩
    else none
  | .word letters =>
    if isWordChar c then some ⟨.word (c :: letters), found⟩
    else start (.word (String.ofList letters.reverse) :: found) c
  | .opening quote second =>
    if c = quote then
      if second then some ⟨.text { quote, tripled := true }, found⟩
      else some ⟨.opening quote true, found⟩
    else if second then start (.string "" false :: found) c
    else inside found { quote, tripled := false } c
  | .text body => inside found body c
  | .quotes body second =>
    if c = body.quote then
      if second then some ⟨.closed body, found⟩ else some ⟨.quotes body true, found⟩
    else
      let body := body.pushQuote
      inside found (if second then body.pushQuote else body) c
  | .closed body =>
    if c = body.quote then some ⟨.closedExtra body.pushQuote, found⟩
    else start (body.token :: found) c
  | .closedExtra body =>
    if c = body.quote then some ⟨.between, body.pushQuote.token :: found⟩
    else start (body.token :: found) c
  | .escape body => (escaped body c).map fun mode => ⟨mode, found⟩
  | .unit body left value => do
    let value := 16 * value + (← Json.Scanner.hexDigit? c)
    match left with
    | 0 => if value.isValidChar then some ⟨.text (body.push (Char.ofNat value)), found⟩ else none
    | left + 1 => some ⟨.unit body left value, found⟩
  | .joining body =>
    if c = ' ' || c = '\t' then some ⟨.joining body, found⟩
    else if c = '\n' then some ⟨.skipping body, found⟩
    else none
  | .skipping body =>
    if c = ' ' || c = '\t' || c = '\n' then some ⟨.skipping body, found⟩
    else inside found body c

/-- The tokens, oldest first, once the text has ended. -/
def finish (scanner : Scanner) : Option (List Token) :=
  let found := scanner.found
  match scanner.mode with
  | .between => some found.reverse
  | .blanks single => some (.blank single :: found).reverse
  | .comment => some found.reverse
  | .word letters => some (.word (String.ofList letters.reverse) :: found).reverse
  | .opening _ true => some (.string "" false :: found).reverse
  | .closed body => some (body.token :: found).reverse
  | .closedExtra body => some (body.token :: found).reverse
  | _ => none

/-- Take the characters one after the other. -/
def run (scanner : Scanner) : List Char → Option Scanner
  | [] => some scanner
  | c :: rest => match scanner.step c with
    | none => none
    | some next => run next rest

end Scanner

/-- Write every line break as a single line feed. -/
def foldBreaks : List Char → List Char
  | [] => []
  | '\r' :: '\n' :: rest => '\n' :: foldBreaks rest
  | c :: rest => c :: foldBreaks rest

/-- Drop a byte order mark at the front. -/
def dropMark : List Char → List Char
  | '\uFEFF' :: rest => rest
  | chars => chars

/-- The tokens of a text, or `none` where the text has a lexical fault. -/
def Token.scan? (chars : List Char) : Option (List Token) :=
  (Scanner.run {} (foldBreaks (dropMark chars))).bind Scanner.finish

end Liveset.Toml

import Liveset.Json.Value

/-!
# Tokens of a JSON text

The lexical half of reading: a text is cut into punctuation, words, numbers and strings. The scanner
is a machine that takes one character per step, so the run over a text is a fold and needs no bound
on its length.

The rules are strict. Blanks are space, tab, line feed and carriage return. The words are `null`,
`true` and `false`. A string holds no raw control character, knows eight short escapes, and writes a
character outside the basic plane as a pair of surrogates. A string with a surrogate on its own is
scanned to its end by the same rules and gives a token of its own kind, for it has no characters.

What this module delivers: `Token`, the machine `Scanner` with its `step`, and `Token.scan?`.
-/

set_option autoImplicit false

namespace Liveset.Json

/-- A lexical unit of a JSON text. -/
inductive Token where
  | openArray
  | closeArray
  | openObject
  | closeObject
  | comma
  | colon
  | null
  | bool (value : Bool)
  | number (value : Number)
  | string (value : String)
  /-- A string in which a surrogate stands on its own. -/
  | unreadable
deriving DecidableEq, Inhabited, Repr

/-! ## The scanner -/

namespace Scanner

/-- What the scanner is in the middle of. Characters read so far stand newest first; a string has
none once a surrogate stood on its own in it. -/
inductive Mode where
  /-- Between two tokens. -/
  | between
  /-- Inside a word. -/
  | word (letters : List Char)
  /-- Inside a number. -/
  | number (digits : List Char)
  /-- Inside a string. -/
  | text (chars : Option (List Char))
  /-- After the backslash of an escape. -/
  | escape (chars : Option (List Char))
  /-- After `\u`: `left` hexadecimal digits are still to come, and `lead` is the first half of a
  pair of surrogates, if one was read. -/
  | unit (chars : Option (List Char)) (lead : Option Nat) (left value : Nat)
  /-- After the first half of a pair: a backslash leads on to the second. -/
  | pair (chars : Option (List Char)) (lead : Nat)
  /-- After the backslash inside a pair: the letter `u` leads on to the second half. -/
  | pairEscape (chars : Option (List Char)) (lead : Nat)
deriving DecidableEq, Inhabited, Repr

end Scanner

/-- The scanner: its mode and the tokens found so far, newest first. -/
structure Scanner where
  mode : Scanner.Mode := .between
  found : List Token := []
deriving Inhabited

namespace Scanner

/-- Blanks between tokens. -/
def isBlank (c : Char) : Bool := c = ' ' || c = '\n' || c = '\t' || c = '\r'

/-- Characters that continue a number once it has begun. -/
def continuesNumber (c : Char) : Bool :=
  c.isDigit || c = '.' || c = 'e' || c = 'E' || c = '+' || c = '-'

/-- The value of a hexadecimal digit in either case. -/
def hexDigit? (c : Char) : Option Nat :=
  if c.isDigit then some (c.toNat - '0'.toNat)
  else if 'a' ≤ c ∧ c ≤ 'f' then some (c.toNat - 'a'.toNat + 10)
  else if 'A' ≤ c ∧ c ≤ 'F' then some (c.toNat - 'A'.toNat + 10)
  else none

/-- The character behind a short escape. -/
def shortEscape? (c : Char) : Option Char :=
  if c = '"' then some '"'
  else if c = '\\' then some '\\'
  else if c = '/' then some '/'
  else if c = 'b' then some '\x08'
  else if c = 'f' then some '\x0c'
  else if c = 'n' then some '\n'
  else if c = 'r' then some '\r'
  else if c = 't' then some '\t'
  else none

/-- The first half of a pair of surrogates. -/
def isLead (unit : Nat) : Bool := 0xD800 ≤ unit && unit ≤ 0xDBFF

/-- The second half of a pair of surrogates. -/
def isTrail (unit : Nat) : Bool := 0xDC00 ≤ unit && unit ≤ 0xDFFF

/-- The character of a pair of surrogates. -/
def pairChar (lead trail : Nat) : Char :=
  Char.ofNat (0x10000 + (lead - 0xD800) * 0x400 + (trail - 0xDC00))

/-- One character more. -/
def push (c : Char) (chars : Option (List Char)) : Option (List Char) :=
  chars.map fun older => c :: older

/-- The mode after the four digits of a `\u` escape. A second half without a first, and a first
without a second, leave the string without characters. -/
def endUnit (chars : Option (List Char)) (lead : Option Nat) (value : Nat) : Mode :=
  match lead with
  | none =>
    if isLead value then .pair chars value
    else if isTrail value then .text none
    else .text (push (Char.ofNat value) chars)
  | some first => .text (if isTrail value then push (pairChar first value) chars else none)

/-- The token of a finished string. -/
def stringToken : Option (List Char) → Token
  | some chars => .string (String.ofList chars.reverse)
  | none => .unreadable

/-- The token of a finished word. -/
def wordToken? (letters : List Char) : Option Token :=
  if letters = ['n', 'u', 'l', 'l'] then some .null
  else if letters = ['t', 'r', 'u', 'e'] then some (.bool true)
  else if letters = ['f', 'a', 'l', 's', 'e'] then some (.bool false)
  else none

/-- A character between two tokens: a blank, punctuation, or the start of a longer token. -/
def start (found : List Token) (c : Char) : Option Scanner :=
  if isBlank c then some ⟨.between, found⟩
  else if c = '[' then some ⟨.between, .openArray :: found⟩
  else if c = ']' then some ⟨.between, .closeArray :: found⟩
  else if c = '{' then some ⟨.between, .openObject :: found⟩
  else if c = '}' then some ⟨.between, .closeObject :: found⟩
  else if c = ',' then some ⟨.between, .comma :: found⟩
  else if c = ':' then some ⟨.between, .colon :: found⟩
  else if c = '"' then some ⟨.text (some []), found⟩
  else if c = '-' || c.isDigit then some ⟨.number [c], found⟩
  else if c.isAlpha then some ⟨.word [c], found⟩
  else none

/-- A character inside a string. -/
def inText (found : List Token) (chars : Option (List Char)) (c : Char) : Option Scanner :=
  if c = '"' then some ⟨.between, stringToken chars :: found⟩
  else if c = '\\' then some ⟨.escape chars, found⟩
  else if c.toNat < 0x20 then none
  else some ⟨.text (push c chars), found⟩

/-- A character after the backslash of an escape. -/
def inEscape (found : List Token) (chars : Option (List Char)) (c : Char) : Option Scanner :=
  if c = 'u' then some ⟨.unit chars none 3 0, found⟩
  else (shortEscape? c).map fun meant => ⟨.text (push meant chars), found⟩

/-- Take one character. -/
def step (scanner : Scanner) (c : Char) : Option Scanner :=
  let found := scanner.found
  match scanner.mode with
  | .between => start found c
  | .word letters =>
    if c.isAlpha then some ⟨.word (c :: letters), found⟩
    else do start ((← wordToken? letters.reverse) :: found) c
  | .number digits =>
    if continuesNumber c then some ⟨.number (c :: digits), found⟩
    else do start (.number (← Number.ofChars? digits.reverse) :: found) c
  | .text chars => inText found chars c
  | .escape chars => inEscape found chars c
  | .unit chars lead left value => do
    let value := 16 * value + (← hexDigit? c)
    match left with
    | 0 => some ⟨endUnit chars lead value, found⟩
    | left + 1 => some ⟨.unit chars lead left value, found⟩
  | .pair chars lead =>
    if c = '\\' then some ⟨.pairEscape chars lead, found⟩ else inText found none c
  | .pairEscape chars lead =>
    if c = 'u' then some ⟨.unit chars (some lead) 3 0, found⟩ else inEscape found none c

/-- The tokens, oldest first, once the text has ended. A word or number may end with the text; a
string may not. -/
def finish (scanner : Scanner) : Option (List Token) :=
  match scanner.mode with
  | .between => some scanner.found.reverse
  | .word letters => (wordToken? letters.reverse).map fun token => (token :: scanner.found).reverse
  | .number digits =>
    (Number.ofChars? digits.reverse).map fun n => (.number n :: scanner.found).reverse
  | _ => none

/-- Take the characters one after the other. -/
def run (scanner : Scanner) : List Char → Option Scanner
  | [] => some scanner
  | c :: rest => match scanner.step c with
    | none => none
    | some next => run next rest

end Scanner

/-- The tokens of a text, or `none` where the text has a lexical fault. -/
def Token.scan? (chars : List Char) : Option (List Token) :=
  (Scanner.run {} chars).bind Scanner.finish

end Liveset.Json

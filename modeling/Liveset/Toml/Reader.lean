import Liveset.Toml.Number
import Liveset.Toml.Value

/-!
# Reading a TOML text

A text is a sequence of lines. A line is a header in brackets, which opens a section, or a key with
its value, which belongs to the section above it. Blanks may stand around the parts of a key and
around the equals sign; a value in brackets may run over several lines, one in braces may not.

Values nest, so the reader of values carries a bound; the number of tokens is always enough, because
every value begins with a token of its own.

What this module delivers: `Value.read?`, `Section` and `sections?`.
-/

set_option autoImplicit false

namespace Liveset.Toml

/-! ## Keys -/

/-- Is this token a run of blanks? -/
def Token.isBlank : Token → Bool
  | .blank _ => true
  | _ => false

/-- Is this token a run of blanks or a line break? -/
def Token.isSpace (token : Token) : Bool := token.isBlank || token = .lineBreak

/-- The name that a token gives to a part of a key. -/
def Token.name? : Token → Option String
  | .word text => some text
  | .string text false => some text
  | _ => none

/-- Names with periods between them. -/
def names? : List Token → Option (List String)
  | [] => none
  | [token] => token.name?.map ([·])
  | token :: .period :: rest => do return (← token.name?) :: (← names? rest)
  | _ => none

/-- The key in front of the first token `mark`, and what follows that token. -/
def key? (mark : Token) (tokens : List Token) : Option (List String × List Token) :=
  match tokens.span (· ≠ mark) with
  | (front, _ :: rest) => do return (← names? (front.filter (!·.isBlank)), rest)
  | (_, []) => none

/-- Skip a run of blanks. -/
def skipBlanks (tokens : List Token) : List Token := tokens.dropWhile Token.isBlank

/-- Skip blanks and line breaks. -/
def skipSpace (tokens : List Token) : List Token := tokens.dropWhile Token.isSpace

/-! ## Numbers and dates -/

/-- Does a word begin with a sign? -/
def isSigned (chars : List Char) : Bool := chars.head? = some '-'

/-- The exponent whose digits end a word, or make up the word behind a plus sign. -/
def exponent? (digits : List Char) (rest : List Token) : Option (List Char × List Token) :=
  if digits ≠ [] then some (digits, rest)
  else match rest with
    | .plus :: .word after :: more =>
      if isSigned after.toList then none else some (after.toList, more)
    | _ => none

/-- A floating-point number that begins with `whole` and ends in `tail`: nothing, or an exponent. -/
def finishFloat? (whole : List Char) (fraction : Option (List Char)) (tail : List Char)
    (rest : List Token) : Option (List Token) :=
  match tail with
  | [] => if Numeral.isFloat ⟨whole, fraction, none⟩ then some rest else none
  | c :: digits =>
    if c = 'e' || c = 'E' then do
      let (exponent, more) ← exponent? digits rest
      if Numeral.isFloat ⟨whole, fraction, some exponent⟩ then some more
      else none
    else none

/-- The digits and underscores at the front, behind a sign if there is one, and the rest. -/
def splitWhole (chars : List Char) : List Char × List Char :=
  let (negative, digits) := Numeral.splitSign chars
  let (front, tail) := Numeral.splitDigits digits
  (if negative then '-' :: front else front, tail)

/-- Is this an integer whose base is marked? -/
def isBaseMarked : List Char → Bool
  | '0' :: c :: _ => c = 'x' || c = 'o' || c = 'b'
  | _ => false

/-- What follows a number that begins with a word. -/
def number? (text : String) (rest : List Token) : Option (List Token) :=
  let chars := text.toList
  if isBaseMarked chars then if Numeral.isInteger chars then some rest else none
  else if chars.contains 'e' || chars.contains 'E' then
    let (whole, tail) := splitWhole chars
    finishFloat? whole none tail rest
  else
    match rest with
    | .period :: .word after :: more =>
      let (fraction, tail) := Numeral.splitDigits after.toList
      finishFloat? chars (some fraction) tail more
    | .period :: _ => none
    | _ => if Numeral.isSpecial text || Numeral.isInteger chars then some rest else none

/-- Skip a mark and the word that must follow it, if the mark is there. -/
def optionalWord? (mark : Token) : List Token → Option (List Token)
  | [] => some []
  | token :: rest =>
    if token = mark then
      match rest with
      | .word _ :: more => some more
      | _ => none
    else some (token :: rest)

/-- What follows the minutes, the seconds and the offset of a time. -/
def time? : List Token → Option (List Token)
  | .word _ :: .colon :: .word _ :: rest => do
    optionalWord? .colon (← optionalWord? .plus (← optionalWord? .period rest))
  | _ => none

/-- What follows a date or time that begins with a word. One space may stand between the day and the
hour; the digits themselves are not looked at. -/
def date? (inTime : Bool) (rest : List Token) : Option (List Token) :=
  let rest := match rest with
    | .blank true :: .word _ :: more => more
    | _ => rest
  if inTime then time? rest
  else match rest with
    | .colon :: more => time? more
    | _ => some rest

/-- Does a word look like a date? It holds the letter between day and hour, or a dash that is no
sign. -/
def isDateLike (text : String) : Bool :=
  let chars := text.toList
  chars.contains 'T' || chars.contains 't' ||
    (chars.tail.contains '-' && !hasSignedExponent chars)
where
  /-- Is there a dash right behind the letter of an exponent? -/
  hasSignedExponent : List Char → Bool
    | c :: '-' :: rest => c = 'e' || c = 'E' || hasSignedExponent ('-' :: rest)
    | _ :: rest => hasSignedExponent rest
    | [] => false

/-- The value that begins with a bare word, and what follows it. -/
def word? (text : String) (rest : List Token) : Option (Value × List Token) :=
  if text = "true" then some (.bool true, rest)
  else if text = "false" then some (.bool false, rest)
  else if text = "inf" || text = "nan" || text.toList.head?.any (fun c => c = '-' || c.isDigit) then
    if isDateLike text then (date? false rest).map (.date, ·)
    else match rest with
      | .colon :: more => (date? true more).map (.date, ·)
      | _ => (number? text rest).map (.number, ·)
  else none

/-! ## Values -/

mutual

/-- A value and what follows it. -/
def Value.readWithin? : Nat → List Token → Option (Value × List Token)
  | 0, _ => none
  | bound + 1, tokens =>
    match tokens with
    | .string text _ :: rest => some (.string text, rest)
    | .word text :: rest => word? text rest
    | .plus :: .word text :: rest => (number? text rest).map (.number, ·)
    | .openBracket :: rest => readItems? bound [] rest
    | .openBrace :: rest =>
      match skipBlanks rest with
      | .closeBrace :: more => some (.inline [], more)
      | rest => readPairs? bound [] rest
    | _ => none

/-- The items of an array up to its closing bracket; those before stand newest first. -/
def readItems? : Nat → List Value → List Token → Option (Value × List Token)
  | 0, _, _ => none
  | bound + 1, items, tokens =>
    match skipSpace tokens with
    | .closeBracket :: rest => some (.array items.reverse, rest)
    | tokens =>
      match Value.readWithin? bound tokens with
      | none => none
      | some (item, rest) =>
        match skipSpace rest with
        | .comma :: rest => readItems? bound (item :: items) rest
        | .closeBracket :: rest => some (.array (item :: items).reverse, rest)
        | _ => none

/-- The pairs of a table in braces up to its closing brace, added to those before. -/
def readPairs? : Nat → Pairs → List Token → Option (Value × List Token)
  | 0, _, _ => none
  | bound + 1, pairs, tokens =>
    match key? .equals tokens with
    | none => none
    | some (key, rest) =>
      match Value.readWithin? bound (skipBlanks rest) with
      | none => none
      | some (value, rest) =>
        match value.assign? key pairs, skipBlanks rest with
        | some pairs, .closeBrace :: rest => some (.inline pairs, rest)
        | some pairs, .comma :: rest => readPairs? bound pairs (skipBlanks rest)
        | _, _ => none

end

/-- A value and what follows it. -/
def Value.read? (tokens : List Token) : Option (Value × List Token) :=
  Value.readWithin? (tokens.length + 1) tokens

/-! ## Sections -/

/-- A header, if there is one, with the pairs below it. -/
structure Section where
  header : List String := []
  /-- Were the brackets of the header doubled? Then it opens a further table of a series. -/
  isSeries : Bool := false
  pairs : Pairs := []
deriving Inhabited, Repr

/-- What follows the end of a line. -/
def lineEnd? (tokens : List Token) : Option (List Token) :=
  match skipBlanks tokens with
  | [] => some []
  | .lineBreak :: rest => some rest
  | _ => none

/-- The header behind an opening bracket, and what follows its line. -/
def header? : List Token → Option (Section × List Token)
  | .openBracket :: rest => do
    let (header, rest) ← key? .closeBracket rest
    match rest with
    | .closeBracket :: rest => return ({ header, isSeries := true }, ← lineEnd? rest)
    | _ => none
  | rest => do
    let (header, rest) ← key? .closeBracket rest
    return ({ header }, ← lineEnd? rest)

/-- Add the pair on a line to a section; also what follows the line. -/
def pair? (current : Section) (tokens : List Token) : Option (Section × List Token) := do
  let (key, rest) ← key? .equals tokens
  let (value, rest) ← Value.read? (skipBlanks rest)
  return ({ current with pairs := ← value.assign? key current.pairs }, ← lineEnd? rest)

/-- The sections from the current one on. Every line takes at least one token, so the number of
tokens bounds the number of lines. -/
def sectionsWithin? : Nat → Section → List Token → Option (List Section)
  | 0, _, _ => none
  | bound + 1, current, tokens =>
    match skipSpace tokens with
    | [] => some [current]
    | .openBracket :: rest =>
      match header? rest with
      | none => none
      | some (next, rest) => (sectionsWithin? bound next rest).map (current :: ·)
    | tokens =>
      match pair? current tokens with
      | none => none
      | some (current, rest) => sectionsWithin? bound current rest

/-- Is this the section in front of all headers, with nothing in it? -/
def Section.isIdle (s : Section) : Bool := s.header.isEmpty && s.pairs.isEmpty

/-- The sections of a text. The part in front of the first header counts if it holds a pair. -/
def sections? (text : String) : Option (List Section) := do
  let tokens ← Token.scan? text.toList
  let found ← sectionsWithin? (tokens.length + 1) {} tokens
  return found.filter (!·.isIdle)

end Liveset.Toml

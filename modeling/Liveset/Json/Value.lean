/-!
# JSON values

The value of a JSON text. An object keeps its fields in the order in which they were written,
repeated names included, because the record forms of this library refuse a repeated known name and
ignore a repeated unknown one. A number keeps its written parts: whether `1.0` or `1e0` counts as an
integer is decided where the number is used, not where it is read.

A string may name characters by 16-bit units that do not pair up. Such a string has no characters to
give, but the field it stands in may be one that nobody asks for. So it has a value, `unreadable`,
which every reader refuses and which is skipped as well as any other.

What this module delivers: the type `Json` and the type `Json.Number` with its text and its readings
as a natural number and as an integer.
-/

set_option autoImplicit false

namespace Liveset

/-! ## Numbers -/

/-- The written parts of a number. `exponent` holds the sign, if one was written, and the digits. -/
structure Json.Number where
  negative : Bool := false
  whole : List Char
  fraction : Option (List Char) := none
  exponent : Option (List Char) := none
deriving DecidableEq, Inhabited, Repr

namespace Json.Number

/-- The natural number `n`, without sign, point or exponent. -/
def ofNat (n : Nat) : Number := { whole := Nat.toDigits 10 n }

/-- The integer `n`; a negative one carries a minus sign. -/
def ofInt (n : Int) : Number := { negative := n < 0, whole := Nat.toDigits 10 n.natAbs }

/-- The characters of a number. -/
def chars (n : Number) : List Char :=
  (if n.negative then ['-'] else []) ++ n.whole ++
    (match n.fraction with | none => [] | some digits => '.' :: digits) ++
    (match n.exponent with | none => [] | some digits => 'e' :: digits)

/-- Is the number written with neither a point nor an exponent? -/
def isPlain (n : Number) : Bool := n.fraction.isNone && n.exponent.isNone

/-- The value of the digits before the point. -/
def magnitude (n : Number) : Nat := Nat.ofDigitChars 10 n.whole 0

/-- The number as a natural number below `bound`. A point, an exponent or a sign is refused, so `-0`
is not a natural number. -/
def natBelow? (bound : Nat) (n : Number) : Option Nat :=
  if n.isPlain && !n.negative && n.magnitude < bound then some n.magnitude else none

/-- The number as an integer of 64 bits. A point or an exponent is refused, and so is `-0`. -/
def int64? (n : Number) : Option Int :=
  if !n.isPlain then none
  else if n.negative then
    if 0 < n.magnitude && n.magnitude ≤ Nat.pow 2 63 then some (-(n.magnitude : Int)) else none
  else if n.magnitude < Nat.pow 2 63 then some n.magnitude else none

/-- Digits in front and what follows them. -/
def spanDigits (cs : List Char) : List Char × List Char :=
  (cs.takeWhile Char.isDigit, cs.dropWhile Char.isDigit)

/-- Digits before the point: a zero stands alone, and any other digit may be followed by more. -/
def wholePart? (cs : List Char) : Option (List Char × List Char) :=
  match spanDigits cs with
  | ([], _) => none
  | (['0'], rest) => some (['0'], rest)
  | ('0' :: _, _) => none
  | (digits, rest) => some (digits, rest)

/-- An optional point, which needs a digit after it. -/
def fractionPart? : List Char → Option (Option (List Char) × List Char)
  | '.' :: cs =>
    match spanDigits cs with
    | ([], _) => none
    | (digits, rest) => some (some digits, rest)
  | cs => some (none, cs)

/-- The digits of an exponent, which must end the number. -/
def exponentDigits? (sign : List Char) (cs : List Char) : Option (List Char) :=
  match spanDigits cs with
  | ([], _) => none
  | (digits, []) => some (sign ++ digits)
  | _ => none

/-- An optional exponent, which must end the number. -/
def exponentPart? : List Char → Option (Option (List Char))
  | [] => some none
  | c :: cs =>
    if c = 'e' ∨ c = 'E' then
      match cs with
      | '+' :: rest => (exponentDigits? ['+'] rest).map some
      | '-' :: rest => (exponentDigits? ['-'] rest).map some
      | rest => (exponentDigits? [] rest).map some
    else none

/-- The number after its sign. -/
def ofUnsigned? (negative : Bool) (cs : List Char) : Option Number := do
  let (whole, rest) ← wholePart? cs
  let (fraction, rest) ← fractionPart? rest
  let exponent ← exponentPart? rest
  return { negative, whole, fraction, exponent }

/-- Read a number that takes up all of `cs`. -/
def ofChars? : List Char → Option Number
  | '-' :: cs => ofUnsigned? true cs
  | cs => ofUnsigned? false cs

end Json.Number

/-! ## Values -/

/-- The value of a JSON text. -/
inductive Json where
  | null
  | bool (value : Bool)
  | number (value : Json.Number)
  | string (value : String)
  | array (items : List Json)
  | object (fields : List (String × Json))
  /-- A string whose escapes do not spell characters, or an object with such a string among its
  names. It can be skipped, not read. -/
  | unreadable
deriving Inhabited, Repr

namespace Json

/-- A natural number as a value. -/
def ofNat (n : Nat) : Json := .number (.ofNat n)

/-- An integer as a value. -/
def ofInt (n : Int) : Json := .number (.ofInt n)

end Json

end Liveset

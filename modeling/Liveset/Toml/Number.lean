import Liveset.Json.Token

/-!
# Numbers of a TOML text

The written forms of integers and floating-point numbers. Digits may be grouped by single
underscores between them. A decimal whole part has no leading zero. Integers may be written in base
16, 8 or 2 and must fit into 64 bits; a floating-point number must not round to infinity.

Because punctuation ends a word, a number reaches this module in pieces: the word before the point,
the word after it, and the word after the plus sign of an exponent.

What this module delivers: `isInteger`, `isFloat` and the pieces they are made of.
-/

set_option autoImplicit false

namespace Liveset.Toml.Numeral

/-- The value of a digit in a base. -/
def digit? (base : Nat) (c : Char) : Option Nat :=
  (Json.Scanner.hexDigit? c).filter (· < base)

/-- Are the characters digits, with single underscores only between two of them? -/
def isGrouped (base : Nat) : List Char → Bool
  | [] => false
  | [c] => (digit? base c).isSome
  | c :: '_' :: rest => (digit? base c).isSome && isGrouped base rest
  | c :: rest => (digit? base c).isSome && isGrouped base rest

/-- The digits alone. -/
def ungrouped (chars : List Char) : List Char := chars.filter (· ≠ '_')

/-- Does a zero stand in front of other digits? -/
def hasLeadingZero (chars : List Char) : Bool :=
  match ungrouped chars with
  | '0' :: _ :: _ => true
  | _ => false

/-- The number that digits stand for. -/
def value (base : Nat) (digits : List Char) : Nat :=
  digits.foldl (fun sum c => base * sum + (digit? base c).getD 0) 0

/-- A sign, if there is one, and the rest. -/
def splitSign : List Char → Bool × List Char
  | '-' :: rest => (true, rest)
  | chars => (false, chars)

/-- The digits and underscores at the front, and the rest. -/
def splitDigits (chars : List Char) : List Char × List Char :=
  chars.span fun c => c.isDigit || c = '_'

/-! ## Integers -/

/-- An integer in a base other than ten, after the mark of the base. -/
def isBased (base : Nat) (chars : List Char) : Bool :=
  isGrouped base chars && value base (ungrouped chars) < Nat.pow 2 63

/-- A decimal integer. -/
def isDecimal (chars : List Char) : Bool :=
  let (negative, digits) := splitSign chars
  isGrouped 10 digits && !hasLeadingZero digits &&
    (if negative then value 10 (ungrouped digits) ≤ Nat.pow 2 63
      else value 10 (ungrouped digits) < Nat.pow 2 63)

/-- An integer. -/
def isInteger : List Char → Bool
  | '0' :: 'x' :: digits => isBased 16 digits
  | '0' :: 'o' :: digits => isBased 8 digits
  | '0' :: 'b' :: digits => isBased 2 digits
  | chars => isDecimal chars

/-! ## Floating-point numbers -/

/-- The least number that rounds to infinity. -/
def overflow : Nat := (Nat.pow 2 54 - 1) * Nat.pow 2 970

/-- Is the number with these digits, scaled by a power of ten, finite once it is rounded? Only
numbers with 309 places before the point need to be computed. -/
def isFinite (digits : List Char) (exponent : Int) : Bool :=
  let digits := digits.dropWhile (· = '0')
  let places : Int := digits.length + exponent
  if digits.isEmpty || places < 309 then true
  else if 309 < places then false
  else if exponent < 0 then value 10 digits < overflow * Nat.pow 10 (-exponent).toNat
  else value 10 digits * Nat.pow 10 exponent.toNat < overflow

/-- The spelled-out numbers. -/
def isSpecial (word : String) : Bool :=
  word = "inf" || word = "-inf" || word = "nan" || word = "-nan"

/-- A floating-point number in pieces: the whole part with its sign, the digits after the point if
there is a point, and the exponent with its sign if there is one. -/
structure Pieces where
  whole : List Char
  fraction : Option (List Char)
  exponent : Option (List Char)
deriving DecidableEq, Inhabited, Repr

/-- The value of an exponent. -/
def exponentValue (chars : List Char) : Int :=
  let (negative, digits) := splitSign chars
  let size := value 10 (ungrouped digits)
  if negative then -(size : Int) else size

/-- A floating-point number. -/
def isFloat (pieces : Pieces) : Bool :=
  let whole := (splitSign pieces.whole).2
  let fraction := ungrouped (pieces.fraction.getD [])
  isGrouped 10 whole && !hasLeadingZero whole &&
    pieces.fraction.all (isGrouped 10) &&
    pieces.exponent.all (fun chars => isGrouped 10 (splitSign chars).2) &&
    isFinite (ungrouped whole ++ fraction)
      (exponentValue (pieces.exponent.getD []) - fraction.length)

end Liveset.Toml.Numeral

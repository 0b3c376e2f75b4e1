import Liveset.Decimal.Shortest
import Liveset.Json.Form

/-!
# Written form of 64-bit floating-point numbers

Writing gives the shortest decimal that reads back. It is positional while the leading digit stands
for `10 ^ -5` up to `10 ^ 15`, with at least one digit after the point, and carries an exponent with
its sign, plus or minus, otherwise.

Reading collects the digits into a whole number of at most 64 bits and an exponent of ten: digits of
the whole part that no longer fit only raise the exponent, and digits after the point that no longer
fit are dropped. The number is then scaled by one multiplication or division per 308 places. A
number too large for the format is refused.

What this module delivers: `Binary64.toNumber`, `Binary64.ofNumber?` and the form of `Float`.
-/

set_option autoImplicit false

namespace Liveset.Binary64

open Json (Number)
open Decimal (Binary)

/-! ## Writing -/

/-- The binary number of the positive float with these bits. -/
def magnitude (bits : Nat) : Binary :=
  let biased : Nat := bits / Nat.pow 2 52 % Nat.pow 2 11
  let fraction : Nat := bits % Nat.pow 2 52
  if biased = 0 then ⟨fraction, -1074, false⟩
  else ⟨Nat.pow 2 52 + fraction, (biased : Int) - 1075, fraction = 0 && biased > 1⟩

/-- The exponents of a leading digit that is written positionally. -/
def isPositional (exponent : Int) : Bool := -5 ≤ exponent && exponent ≤ 15

/-- At least one digit after the point. -/
def fractionDigits (digits : List Char) : List Char :=
  if digits.isEmpty then ['0'] else digits

/-- A written exponent: its sign and its digits. -/
def signedExponent (exponent : Int) : List Char :=
  (if exponent < 0 then '-' else '+') :: Nat.toDigits 10 exponent.natAbs

/-- The written number with these digits. -/
def layout (negative : Bool) (d : Decimal.Digits) : Number :=
  if isPositional d.exponent then
    if 0 ≤ d.exponent then
      let places := d.exponent.toNat + 1
      { negative
        whole := d.digits.take places ++ List.replicate (places - d.digits.length) '0'
        fraction := some (fractionDigits (d.digits.drop places)) }
    else
      { negative
        whole := ['0']
        fraction := some (List.replicate ((-d.exponent).toNat - 1) '0' ++ d.digits) }
  else
    { negative
      whole := d.digits.take 1
      fraction := if d.digits.length ≤ 1 then none else some (d.digits.drop 1)
      exponent := some (signedExponent d.exponent) }

/-- The written number of a finite float. -/
def toNumber (x : Float) : Number :=
  let bits := x.toBits.toNat
  let negative : Bool := Nat.pow 2 63 ≤ bits
  let bits := bits % Nat.pow 2 63
  if bits = 0 then { negative, whole := ['0'], fraction := some ['0'] }
  else layout negative (magnitude bits).shortest

/-! ## Reading -/

/-- Digits collected so far, and the power of ten by which they are to be scaled. -/
structure Collected where
  significand : Nat := 0
  exponent : Int := 0
deriving DecidableEq, Inhabited, Repr

/-- The value of a digit. -/
def digitValue (c : Char) : Nat := c.toNat - '0'.toNat

/-- Does the significand still fit into 64 bits with one digit more? -/
def fits (significand : Nat) (digit : Char) : Bool :=
  10 * significand + digitValue digit < Nat.pow 2 64

/-- Collect the digits before the point. From the first digit on that does not fit, each digit
raises the exponent by one. -/
def collectWhole (significand : Nat) : List Char → Collected
  | [] => ⟨significand, 0⟩
  | digit :: rest =>
    if fits significand digit then collectWhole (10 * significand + digitValue digit) rest
    else ⟨significand, (rest.length : Int) + 1⟩

/-- Collect the digits after the point, up to the first one that does not fit. -/
def collectFraction (collected : Collected) : List Char → Collected
  | [] => collected
  | digit :: rest =>
    if fits collected.significand digit then
      collectFraction
        ⟨10 * collected.significand + digitValue digit, collected.exponent - 1⟩ rest
    else collected

/-- The value of a written exponent. -/
def exponentValue : List Char → Int
  | '-' :: digits => -(Nat.ofDigitChars 10 digits 0 : Int)
  | '+' :: digits => Nat.ofDigitChars 10 digits 0
  | digits => Nat.ofDigitChars 10 digits 0

/-- All digits of a number, with the power of ten by which they are to be scaled. -/
def collect (n : Number) : Collected :=
  let collected := collectFraction (collectWhole 0 n.whole) (n.fraction.getD [])
  ⟨collected.significand, collected.exponent + exponentValue (n.exponent.getD [])⟩

/-- The float nearest to `10 ^ places`. -/
def tenTo (places : Nat) : Float := Float.ofScientific 1 false places

/-- Scale down by a negative power of ten, in steps of 308 places. Two such steps take every
significand to zero. -/
def scaleDown (x : Float) (places : Nat) : Float :=
  if places ≤ 308 then x / tenTo places
  else if places ≤ 616 then x / tenTo 308 / tenTo (places - 308)
  else 0.0

/-- The unsigned float of collected digits, `none` when it is too large. -/
def scale? (collected : Collected) : Option Float :=
  let x := Float.ofNat collected.significand
  if collected.exponent < 0 then some (scaleDown x (-collected.exponent).toNat)
  else if collected.significand = 0 then some 0.0
  else if collected.exponent ≤ 308 then
    let scaled := x * tenTo collected.exponent.toNat
    if scaled.isInf then none else some scaled
  else none

/-- The float of a written number, `none` when it is too large. -/
def ofNumber? (n : Number) : Option Float :=
  (scale? (collect n)).map fun x => if n.negative then -x else x

/-- A float is read from any number. One that is no number at all is written as `null`. -/
instance : JsonForm Float where
  toJson x := if x.isFinite then .number (toNumber x) else .null
  ofJson?
    | .number n => ofNumber? n
    | _ => none

end Liveset.Binary64

/-!
# Shortest decimals of binary numbers

A positive binary floating-point number `m * 2 ^ q` stands for every real number that rounds to it:
an interval around it, whose ends belong to it when `m` is even. The shortest decimal of the number
is the one with the fewest digits inside that interval, and of those the nearest to the number.

On the grid of decimals with a given number of digits only the two neighbours of the number have to
be tried: if any point of the grid lies in the interval, so does one of them. All comparisons are
exact, in natural numbers.

What this module delivers: `Binary`, a positive binary number with its interval, and
`Binary.shortest`, its digits and decimal exponent.
-/

set_option autoImplicit false

namespace Liveset.Decimal

/-- A positive decimal: the digits, most significant first, and the exponent of the first one. -/
structure Digits where
  digits : List Char
  exponent : Int
deriving DecidableEq, Inhabited, Repr

/-- A positive binary number `mantissa * 2 ^ exponent`. `narrow` tells that the next smaller number
is only half as far away as the next larger one. -/
structure Binary where
  mantissa : Nat
  exponent : Int
  narrow : Bool
deriving DecidableEq, Inhabited, Repr

namespace Binary

/-- The common denominator of the number and the ends of its interval. -/
def denominator (x : Binary) : Nat := 4 * Nat.pow 2 (-x.exponent).toNat

/-- The number over `denominator`. -/
def numerator (x : Binary) : Nat := 4 * x.mantissa * Nat.pow 2 x.exponent.toNat

/-- The lower end of the interval over `denominator`. -/
def lower (x : Binary) : Nat :=
  (4 * x.mantissa - (if x.narrow then 1 else 2)) * Nat.pow 2 x.exponent.toNat

/-- The upper end of the interval over `denominator`. -/
def upper (x : Binary) : Nat := (4 * x.mantissa + 2) * Nat.pow 2 x.exponent.toNat

/-- How many places a number below one must be shifted to reach one, looked for up to `fuel`. -/
def shiftUp (num den : Nat) : Nat → Nat → Nat
  | 0, k => k
  | fuel + 1, k => if den ≤ num * Nat.pow 10 k then k else shiftUp num den fuel (k + 1)

/-- The decimal exponent of the leading digit. -/
def leading (x : Binary) : Int :=
  if x.denominator ≤ x.numerator then
    ((Nat.toDigits 10 (x.numerator / x.denominator)).length : Int) - 1
  else -(shiftUp x.numerator x.denominator 400 1 : Int)

/-- A value over `denominator`, measured in units of `10 ^ unit` and floored. -/
def floorAt (x : Binary) (unit : Int) : Nat :=
  x.numerator * Nat.pow 10 (-unit).toNat / (x.denominator * Nat.pow 10 unit.toNat)

/-- Does `count * 10 ^ unit` lie in the interval? -/
def covers (x : Binary) (unit : Int) (count : Nat) : Bool :=
  let point := count * Nat.pow 10 unit.toNat * x.denominator
  let low := x.lower * Nat.pow 10 (-unit).toNat
  let high := x.upper * Nat.pow 10 (-unit).toNat
  if x.mantissa % 2 = 0 then low ≤ point && point ≤ high else low < point && point < high

/-- Which of `count` and `count + 1`, in units of `10 ^ unit`, is nearer to the number; an exact tie
goes to the even one. -/
def nearer (x : Binary) (unit : Int) (count : Nat) : Nat :=
  let value := x.numerator * Nat.pow 10 (-unit).toNat
  let scale := Nat.pow 10 unit.toNat * x.denominator
  let below := value - count * scale
  let above := (count + 1) * scale - value
  if below < above then count
  else if above < below then count + 1
  else if count % 2 = 0 then count else count + 1

/-- The decimal with `places` digits for the number, if one lies in the interval. -/
def atPlaces? (x : Binary) (places : Nat) : Option (Nat × Int) :=
  let unit := x.leading - (places : Int) + 1
  let count := x.floorAt unit
  match x.covers unit count, x.covers unit (count + 1) with
  | true, true => some (x.nearer unit count, unit)
  | true, false => some (count, unit)
  | false, true => some (count + 1, unit)
  | false, false => none

/-- Digits without the zeros at their end, at least one digit being kept. -/
def trimZeros (digits : List Char) : List Char :=
  match (digits.reverse.dropWhile (· = '0')).reverse with
  | [] => ['0']
  | kept => kept

/-- The digits of `count * 10 ^ unit`. -/
def digitsOf (count : Nat) (unit : Int) : Digits :=
  let digits := Nat.toDigits 10 count
  ⟨trimZeros digits, unit + (digits.length : Int) - 1⟩

/-- The decimal with the fewest digits, trying `places` and up to `fuel` more. -/
def search (x : Binary) : Nat → Nat → Digits
  | 0, _ => digitsOf (x.floorAt x.leading) x.leading
  | fuel + 1, places =>
    match x.atPlaces? places with
    | some (count, unit) => digitsOf count unit
    | none => search x fuel (places + 1)

/-- The shortest decimal. Seventeen digits always suffice for a number of 64 bits. -/
def shortest (x : Binary) : Digits := x.search 17 1

end Binary

end Liveset.Decimal

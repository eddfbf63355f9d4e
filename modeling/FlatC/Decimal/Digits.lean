import FlatC.Number.Width

/-!
# Decimal digits

Texts of whole and fractional numbers are built from, and read into, one vocabulary: the digits
of a natural number, most significant first, and the value of a run of digits.

* `digits` writes a natural number and `digitsValue` reads a run of digits;
* `positional` writes a number of the form `n / 10 ^ places`;
* `intText` and `hexText` write whole numbers in base ten and sixteen;
* `readInt64?` reads a signed 64-bit number.
-/

namespace FlatC.Decimal

/-- The power of ten with exponent `n`. -/
def tenPow (n : Nat) : Nat :=
  Nat.pow 10 n

/-- The decimal digits of `n`, most significant first. -/
def digits (n : Nat) : List Char :=
  Nat.toDigits 10 n

/-- The value of a run of decimal digits, most significant first. -/
def digitsValue (run : List Char) : Nat :=
  run.foldl (fun value c => 10 * value + (c.toNat - '0'.toNat)) 0

/-- The digits of `n`, with zeros in front up to `width` characters. -/
def padded (width n : Nat) : List Char :=
  let run := digits n
  List.replicate (width - run.length) '0' ++ run

/-- The number `n / 10 ^ places` with `places` digits after the point, and no point if there
are none. -/
def positional (n places : Nat) : List Char :=
  if places = 0 then digits n
  else digits (n / tenPow places) ++ '.' :: padded places (n % tenPow places)

/-- A whole number in base ten. -/
def intText (n : Int) : List Char :=
  if n < 0 then '-' :: digits n.natAbs else digits n.natAbs

/-- A natural number in base sixteen, with small letters. -/
def hexText (n : Nat) : List Char :=
  Nat.toDigits 16 n

/-- A sign, if one stands in front, and the rest of the text. -/
def splitSign : List Char → Bool × List Char
  | '-' :: rest => (true, rest)
  | '+' :: rest => (false, rest)
  | text => (false, text)

/-- Reads an optional sign and one or more digits; fails beyond the signed 64-bit range. -/
def readInt64? (text : List Char) : Option Int :=
  let (negative, run) := splitSign text
  if run.isEmpty || !run.all Char.isDigit then none
  else
    let value : Int := if negative then -(digitsValue run : Int) else digitsValue run
    if -(longTop : Int) ≤ value ∧ value < longTop then some value else none

end FlatC.Decimal

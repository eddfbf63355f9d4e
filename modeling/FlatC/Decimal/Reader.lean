import FlatC.Decimal.Digits
import FlatC.Number.Binary64

/-!
# Reading decimal numbers

`ofDecimal` is the number nearest to a decimal; `readBinary64?` reads the usual notation: an
optional sign, digits with an optional point among or around them, an optional exponent, or one
of the words for infinity and not-a-number in any case of letters.
-/

namespace FlatC.Decimal

/-- Decimal exponents beyond this bound lie outside the double format on either side. -/
def exponentBound : Int := 400

/-- The number nearest to `significand * 10 ^ exponent`.  Decimals that are certain to overflow
or to vanish are settled without computing the power. -/
def ofDecimal (negative : Bool) (significand : Nat) (exponent : Int) : Binary64 :=
  let leading := exponent + (digits significand).length
  if significand = 0 ∨ leading < -exponentBound then .finite negative 0
  else if exponentBound < leading then .infinite negative
  else .ofRatio negative (significand * tenPow exponent.toNat * scale) (tenPow (-exponent).toNat)

/-- Reads the exponent of a number, the text after its mark: an optional sign and one or more
digits. -/
def readExponent? (text : List Char) : Option Int :=
  let (negative, run) := splitSign text
  if run.isEmpty || !run.all Char.isDigit then none
  else some (if negative then -(digitsValue run : Int) else digitsValue run)

/-- The digits after a point, if one stands in front, and the rest of the text. -/
def splitFraction : List Char → List Char × List Char
  | '.' :: rest => (rest.takeWhile Char.isDigit, rest.dropWhile Char.isDigit)
  | text => ([], text)

/-- Reads an unsigned number in digits: at least one digit, with a point anywhere among them, and
an optional exponent. -/
def readDigits? (negative : Bool) (text : List Char) : Option Binary64 :=
  let whole := text.takeWhile Char.isDigit
  let (fraction, rest) := splitFraction (text.dropWhile Char.isDigit)
  if whole.isEmpty && fraction.isEmpty then none
  else
    let exponent? :=
      match rest with
      | [] => some 0
      | mark :: rest => if mark = 'e' ∨ mark = 'E' then readExponent? rest else none
    exponent?.map fun exponent =>
      ofDecimal negative (digitsValue (whole ++ fraction)) (exponent - fraction.length)

/-- Reads a word for infinity or for not-a-number, in any case of letters. -/
def readWord? (negative : Bool) (text : List Char) : Option Binary64 :=
  let word := text.map Char.toLower
  if word = "inf".toList ∨ word = "infinity".toList then some (.infinite negative)
  else if word = "nan".toList then some (.nan negative Binary64.quietBit)
  else none

/-- Reads a number: an optional sign, then digits or a word. -/
def readBinary64? (text : List Char) : Option Binary64 :=
  let (negative, body) := splitSign text
  (readDigits? negative body).or (readWord? negative body)

end FlatC.Decimal

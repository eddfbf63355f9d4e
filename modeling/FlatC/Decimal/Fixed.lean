import FlatC.Decimal.Digits
import FlatC.Number.Binary64

/-!
# Numbers with a fixed number of places

`fixedText` writes the exact value of a number, rounded to a given number of decimal places.
The sign of negative zero, and of a negative number that rounds to zero, is written.
-/

namespace FlatC.Decimal

/-- The number with `places` digits after the point, a half going to the even neighbour. -/
def fixedText (places : Nat) : Binary64 → List Char
  | .nan .. => "NaN".toList
  | .infinite negative => if negative then "-inf".toList else "inf".toList
  | .finite negative magnitude =>
    let body := positional (roundDiv (magnitude * tenPow places) scale) places
    if negative then '-' :: body else body

end FlatC.Decimal

import FlatC.Decimal.Digits
import FlatC.Number.Binary64

/-!
# The shortest decimal that reads back

A number of the double format is written with the fewest digits that still single it out among
all numbers of the format.  The reals that round to a magnitude form an interval; the coarsest
power of ten with a multiple in that interval gives the digits.  Of two multiples in the interval
the nearer is taken, and of two equally near ones the greater.

* `Neighbourhood.of` is the interval of reals that round to a magnitude;
* `gridPoint?` is the multiple of a power of ten that represents the magnitude, if there is one;
* `shortest` tries ever finer powers of ten;
* `shortestText` writes the result without an exponent.
-/

namespace FlatC.Decimal

/-- The reals that round to a magnitude, with bounds in quarter units. -/
structure Neighbourhood where
  /-- The lower bound. -/
  low : Nat
  /-- The upper bound. -/
  high : Nat
  /-- Whether the bounds themselves round to the magnitude. -/
  closed : Bool

/-- The neighbourhood of a magnitude of the double format.  It reaches half the spacing to both
sides, and half as far below a power of two, where the spacing changes. -/
def Neighbourhood.of (magnitude : Nat) : Neighbourhood :=
  let shift := Format.double.shift magnitude
  let spacing := twoPow shift
  let significand := magnitude / spacing
  let below := if significand = twoPow 52 ∧ shift ≠ 0 then spacing else 2 * spacing
  { low := 4 * magnitude - below
    high := 4 * magnitude + 2 * spacing
    closed := significand % 2 == 0 }

/-- Whether the real `n / d`, in quarter units, lies in the neighbourhood. -/
def Neighbourhood.contains (hood : Neighbourhood) (n d : Nat) : Bool :=
  if hood.closed then decide (hood.low * d ≤ n ∧ n ≤ hood.high * d)
  else decide (hood.low * d < n ∧ n < hood.high * d)

/-- The power of ten `10 ^ e` as a numerator and a denominator. -/
def powerOfTen (e : Int) : Nat × Nat :=
  (tenPow e.toNat, tenPow (-e).toNat)

/-- A multiple of `10 ^ e` that rounds to `magnitude`, as its factor: one of the two multiples
around the magnitude, the nearer one if both do, and the greater one if they are equally near. -/
def gridPoint? (magnitude : Nat) (e : Int) : Option Nat :=
  let (up, down) := powerOfTen e
  let hood := Neighbourhood.of magnitude
  let cell := up * scale
  let factor := magnitude * down / cell
  let inside (k : Nat) := hood.contains (4 * k * cell) down
  let nearer := if magnitude * down % cell * 2 < cell then factor else factor + 1
  match inside factor, inside (factor + 1) with
  | true, true => some nearer
  | true, false => some factor
  | false, true => some (factor + 1)
  | false, false => none

/-- The representing multiple for the coarsest of the powers `10 ^ e`, `10 ^ (e - 1)`, … that
has one.  Every magnitude is a multiple of `10 ^ -1074`, so `steps` from `e` down to there find
it. -/
def searchGrid (magnitude : Nat) : (steps : Nat) → (e : Int) → Nat × Int
  | 0, e =>
    let (up, down) := powerOfTen e
    (magnitude * down / (up * scale), e)
  | steps + 1, e =>
    match gridPoint? magnitude e with
    | some factor => (factor, e)
    | none => searchGrid magnitude steps (e - 1)

/-- The shortest decimal `factor * 10 ^ e` that rounds to `magnitude`. -/
def shortest (magnitude : Nat) : Nat × Int :=
  let top := (digits (magnitude / scale)).length
  searchGrid magnitude (top + unitExponent) top

/-- The number with the fewest digits that read back, never with an exponent. -/
def shortestText : Binary64 → List Char
  | .nan .. => "NaN".toList
  | .infinite negative => if negative then "-inf".toList else "inf".toList
  | .finite negative magnitude =>
    let body :=
      if magnitude = 0 then ['0']
      else
        let (factor, e) := shortest magnitude
        positional (factor * tenPow e.toNat) (-e).toNat
    if negative then '-' :: body else body

end FlatC.Decimal

/-!
# Rounding magnitudes to a binary format

A *magnitude* is a natural number of units of `2 ^ -1074`, the least positive number of the
double format.  Every finite number of the double and of the single format is a whole number of
these units, so both formats are sets of naturals and rounding never leaves exact arithmetic.

* `roundDiv` is division to the nearest whole number, a tie going to the even neighbour;
* `Format` describes a binary format by precision, finest spacing and overflow bound;
* `Format.round` rounds an exact quotient of magnitudes to a format.
-/

namespace FlatC

/-- The whole number nearest to `n / d`; of two equally near ones, the even one. -/
def roundDiv (n d : Nat) : Nat :=
  let q := n / d
  let r := n % d
  if 2 * r < d then q
  else if d < 2 * r then q + 1
  else q + q % 2

/-- A multiple of the divisor is divided exactly. -/
theorem roundDiv_mul_right (q : Nat) {d : Nat} (h : 0 < d) : roundDiv (q * d) d = q := by
  unfold roundDiv
  simp [Nat.mul_div_cancel q h, h]

/-- Rounding to units changes nothing. -/
@[simp] theorem roundDiv_one (n : Nat) : roundDiv n 1 = n := by
  simpa using roundDiv_mul_right n Nat.one_pos

/-- The power of two with exponent `n`. -/
def twoPow (n : Nat) : Nat :=
  Nat.pow 2 n

theorem twoPow_pos (n : Nat) : 0 < twoPow n := Nat.two_pow_pos n

/-- One unit is `2 ^ -unitExponent`. -/
def unitExponent : Nat := 1074

/-- Units in the number one. -/
def scale : Nat := twoPow unitExponent

theorem scale_pos : 0 < scale := twoPow_pos unitExponent

/-- A binary floating-point format, seen as a set of magnitudes. -/
structure Format where
  /-- Significant bits of a number that is not tiny. -/
  precision : Nat
  /-- The spacing of the tiniest numbers is `2 ^ quantum` units. -/
  quantum : Nat
  /-- Magnitudes of `2 ^ limit` units and more overflow. -/
  limit : Nat
deriving DecidableEq, Repr

namespace Format

/-- The format of every number of the machine: 53 bits, overflow at `2 ^ 1024`. -/
def double : Format := ⟨53, 0, 2098⟩

/-- The format of a stored `float`: 24 bits, finest spacing `2 ^ -149`, overflow at `2 ^ 128`. -/
def single : Format := ⟨24, 925, 1202⟩

/-- The spacing of the format around `magnitude` is `2 ^ shift` units. -/
def shift (format : Format) (magnitude : Nat) : Nat :=
  max format.quantum (magnitude.log2 + 1 - format.precision)

/-- The magnitude of the format nearest to `n / d`, a tie going to the even significand.
The exponent range is left open: the result may exceed the overflow bound. -/
def round (format : Format) (n d : Nat) : Nat :=
  let spacing := twoPow (format.shift (n / d))
  roundDiv n (d * spacing) * spacing

/-- A magnitude of the finest spacing of its neighbourhood is its own rounding. -/
theorem round_mul_spacing (format : Format) (q m : Nat) (h : q * twoPow (format.shift m) = m) :
    format.round m 1 = m := by
  have exact : roundDiv m (twoPow (format.shift m)) = q := by
    have := roundDiv_mul_right q (twoPow_pos (format.shift m))
    rwa [h] at this
  simp only [round, Nat.div_one, Nat.one_mul, exact, h]

end Format

end FlatC

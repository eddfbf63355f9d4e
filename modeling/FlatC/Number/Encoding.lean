import FlatC.Number.Binary64

/-!
# Bit patterns of numbers

The double and the single format share one layout: a sign bit, an exponent field and a fraction
field.  Without the sign, patterns count the magnitudes of a format in increasing order, so one
formula serves normal and subnormal numbers alike.

* `Format.encode` and `Format.decode` relate magnitudes and patterns;
* `Binary64.toBits` and `Binary64.ofBits` do so for 64-bit patterns;
* `Binary64.toSingle` rounds to single precision;
* `Binary64.toSingleBits` and `Binary64.ofSingleBits` do so for 32-bit patterns.
-/

namespace FlatC

namespace Format

/-- The pattern of a magnitude of the format, without its sign. -/
def encode (format : Format) (magnitude : Nat) : Nat :=
  let shift := format.shift magnitude
  (shift - format.quantum) * twoPow (format.precision - 1) + magnitude / twoPow shift

/-- The magnitude of a finite pattern, without its sign. -/
def decode (format : Format) (pattern : Nat) : Nat :=
  let hidden := twoPow (format.precision - 1)
  let exponent := pattern / hidden
  let fraction := pattern % hidden
  if exponent = 0 then fraction * twoPow format.quantum
  else (hidden + fraction) * twoPow (format.quantum + exponent - 1)

/-- The pattern of infinity, without its sign. -/
def infinityPattern (format : Format) : Nat :=
  format.encode (twoPow format.limit)

end Format

namespace Binary64

/-! ## Double precision -/

/-- The 64-bit pattern of a number. -/
def toBits (x : Binary64) : Nat :=
  let signed (negative : Bool) (pattern : Nat) := if negative then longTop + pattern else pattern
  match x with
  | .nan negative fraction => signed negative (Format.double.infinityPattern + fraction)
  | .infinite negative => signed negative Format.double.infinityPattern
  | .finite negative magnitude => signed negative (Format.double.encode magnitude)

/-- The number of a 64-bit pattern. -/
def ofBits (bits : Nat) : Binary64 :=
  let negative := decide (longTop ≤ bits)
  let pattern := bits % longTop
  if pattern < Format.double.infinityPattern then .finite negative (Format.double.decode pattern)
  else if pattern = Format.double.infinityPattern then .infinite negative
  else .nan negative (pattern - Format.double.infinityPattern)

/-! ## Single precision -/

/-- Bits of the fraction field that single precision drops. -/
def droppedBits : Nat := 29

/-- The number rounded to single precision.  A not-a-number becomes quiet and keeps the high
bits of its fraction. -/
def toSingle : Binary64 → Binary64
  | .nan negative fraction =>
    quieted negative (fraction / twoPow droppedBits * twoPow droppedBits)
  | .infinite negative => .infinite negative
  | .finite negative magnitude =>
    let rounded := Format.single.round magnitude 1
    if rounded < twoPow Format.single.limit then .finite negative rounded else .infinite negative

/-- The 32-bit pattern of the number rounded to single precision. -/
def toSingleBits (x : Binary64) : Nat :=
  let signed (negative : Bool) (pattern : Nat) := if negative then wordTop + pattern else pattern
  match x.toSingle with
  | .nan negative fraction =>
    signed negative (Format.single.infinityPattern + fraction / twoPow droppedBits)
  | .infinite negative => signed negative Format.single.infinityPattern
  | .finite negative magnitude => signed negative (Format.single.encode magnitude)

/-- The number of a 32-bit pattern; a not-a-number becomes quiet. -/
def ofSingleBits (bits : Nat) : Binary64 :=
  let negative := decide (wordTop ≤ bits)
  let pattern := bits % wordTop
  if pattern < Format.single.infinityPattern then .finite negative (Format.single.decode pattern)
  else if pattern = Format.single.infinityPattern then .infinite negative
  else quieted negative ((pattern - Format.single.infinityPattern) * twoPow droppedBits)

end Binary64

end FlatC

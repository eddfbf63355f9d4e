import FlatC.Number.Rounding
import FlatC.Number.Width

/-!
# Binary64 numbers

Every value of the machine carries one number of the double format.  A finite number is a sign
and an exact magnitude in units of `2 ^ -1074`; negative zero, the infinities and the payload of
a not-a-number are kept apart, because stored bytes can show them.

* `Binary64.ofRatio` is the only place where an exact result is rounded;
* `add`, `sub`, `mul` and `div` compute exactly and round once;
* `wrap` and `remEuclid` reduce a number modulo a whole number;
* `toInt64` and `ofInt` convert from and to whole numbers;
* `order?` compares, and says nothing about a not-a-number.
-/

namespace FlatC

/-- A number of the double format. -/
inductive Binary64 where
  /-- Not a number: the sign bit and the 52 bits of the fraction field. -/
  | nan (negative : Bool) (fraction : Nat)
  /-- An infinity. -/
  | infinite (negative : Bool)
  /-- A sign and a magnitude in units of `2 ^ -1074`. -/
  | finite (negative : Bool) (magnitude : Nat)
deriving DecidableEq, Repr, Inhabited

namespace Binary64

/-! ## Constants and construction -/

/-- Positive zero. -/
def zero : Binary64 := .finite false 0

/-- The number one. -/
def one : Binary64 := .finite false scale

/-- The bit of the fraction field that marks a quiet not-a-number. -/
def quietBit : Nat := twoPow 51

/-- What an operation without a meaningful result yields. -/
def invalid : Binary64 := .nan true quietBit

/-- The number nearest to `n / d` units, with the given sign. -/
def ofRatio (negative : Bool) (n d : Nat) : Binary64 :=
  let magnitude := Format.double.round n d
  if magnitude < twoPow Format.double.limit then .finite negative magnitude
  else .infinite negative

/-- A whole number that needs no rounding; zero takes the sign `zeroNegative`. -/
def ofWhole (zeroNegative : Bool) (n : Int) : Binary64 :=
  if n = 0 then .finite zeroNegative 0
  else .finite (decide (n < 0)) (n.natAbs * scale)

/-- The number nearest to the whole number `n`.  Below `2 ^ 53` every whole number is a number of
the format. -/
def ofInt (n : Int) : Binary64 :=
  if n.natAbs < twoPow 53 then ofWhole false n
  else ofRatio (decide (n < 0)) (n.natAbs * scale) 1

/-- The number nearest to the natural number `n`. -/
def ofNat (n : Nat) : Binary64 :=
  ofInt n

/-- One for true, zero for false. -/
def ofBool (b : Bool) : Binary64 :=
  if b then one else zero

/-! ## Reading a number -/

/-- The signed number of units of a finite number, its sign and magnitude in one. -/
def units (negative : Bool) (magnitude : Nat) : Int :=
  if negative then -(magnitude : Int) else (magnitude : Int)

/-- Whether the number has a fractional part.  An infinity and a not-a-number count as having
one: subtracting their integer part from them does not give zero. -/
def hasFraction : Binary64 → Bool
  | .finite _ magnitude => magnitude % scale != 0
  | _ => true

/-- The integer part, rounding toward zero. -/
def trunc : Binary64 → Binary64
  | .finite negative magnitude => .finite negative (magnitude / scale * scale)
  | x => x

/-- The integer part as a whole number, held between the least and the greatest signed 64-bit
number; a not-a-number gives zero. -/
def toInt64 : Binary64 → Int
  | .nan .. => 0
  | .infinite negative => if negative then -longTop else longTop - 1
  | .finite negative magnitude =>
    max (-longTop) (min (longTop - 1) (units negative (magnitude / scale)))

/-- The position of a number on a line of whole numbers: finite numbers at their units, the
infinities beyond all of them, and a not-a-number nowhere. -/
def rank : Binary64 → Option Int
  | .nan .. => none
  | .infinite negative => some (units negative (twoPow Format.double.limit))
  | .finite negative magnitude => some (units negative magnitude)

/-- How two numbers compare; `none` if one of them is a not-a-number. -/
def order? (x y : Binary64) : Option Ordering :=
  match x.rank, y.rank with
  | some a, some b => some (compare a b)
  | _, _ => none

/-- Numeric equality: both zeros are equal, a not-a-number differs from everything. -/
def numEq (x y : Binary64) : Bool :=
  x.order? y == some .eq

/-- Numeric strict order. -/
def numLt (x y : Binary64) : Bool :=
  x.order? y == some .lt

/-- Numeric order. -/
def numLe (x y : Binary64) : Bool :=
  x.numLt y || x.numEq y

/-- Whether the number differs from zero. -/
def isTrue (x : Binary64) : Bool :=
  !x.numEq zero

/-! ## Arithmetic -/

/-- The not-a-number with its quiet bit set. -/
def quieted (negative : Bool) (fraction : Nat) : Binary64 :=
  .nan negative (fraction ||| quietBit)

/-- The number with its sign reversed. -/
def neg : Binary64 → Binary64
  | .nan negative fraction => .nan (!negative) fraction
  | .infinite negative => .infinite (!negative)
  | .finite negative magnitude => .finite (!negative) magnitude

/-- The rounded sum.  Equal magnitudes of opposite sign add to positive zero. -/
def add : Binary64 → Binary64 → Binary64
  | .nan s f, _ => quieted s f
  | _, .nan s f => quieted s f
  | .infinite s, .infinite t => if s = t then .infinite s else invalid
  | .infinite s, .finite .. => .infinite s
  | .finite .., .infinite t => .infinite t
  | .finite s m, .finite t n =>
    let total := units s m + units t n
    if total = 0 then .finite (s && t) 0
    else ofRatio (decide (total < 0)) total.natAbs 1

/-- The rounded difference. -/
def sub (x y : Binary64) : Binary64 :=
  match y with
  | .nan .. => x.add y
  | _ => x.add y.neg

/-- The rounded product. -/
def mul : Binary64 → Binary64 → Binary64
  | .nan s f, _ => quieted s f
  | _, .nan s f => quieted s f
  | .infinite s, .infinite t => .infinite (s != t)
  | .infinite s, .finite t n => if n = 0 then invalid else .infinite (s != t)
  | .finite s m, .infinite t => if m = 0 then invalid else .infinite (s != t)
  | .finite s m, .finite t n => ofRatio (s != t) (m * n) scale

/-- The rounded quotient. -/
def div : Binary64 → Binary64 → Binary64
  | .nan s f, _ => quieted s f
  | _, .nan s f => quieted s f
  | .infinite _, .infinite _ => invalid
  | .infinite s, .finite t _ => .infinite (s != t)
  | .finite s _, .infinite t => .finite (s != t) 0
  | .finite s m, .finite t n =>
    if n = 0 then
      if m = 0 then invalid else .infinite (s != t)
    else ofRatio (s != t) (m * scale) n

/-! ## Remainders -/

/-- The remainder of a division by the whole number `m`, moved up by `m` when it is negative.
The move is a rounded sum, so a tiny negative number gives `m` itself. -/
def remEuclid (m : Nat) : Binary64 → Binary64
  | .finite negative magnitude =>
    let r := magnitude % (m * scale)
    if negative && r != 0 then ofRatio false (m * scale - r) 1 else .finite negative r
  | _ => invalid

/-- The integer part modulo `range`, around zero or from zero up.  A zero keeps the sign of the
number it came from; what is not finite gives zero. -/
def wrap (range : Nat) (signed : Bool) : Binary64 → Binary64
  | .finite negative magnitude =>
    let whole := units negative (magnitude / scale)
    ofWhole negative (if signed then whole.bmod range else whole % range)
  | _ => zero

end Binary64

end FlatC

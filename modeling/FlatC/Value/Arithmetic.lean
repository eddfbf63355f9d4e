import FlatC.Number.Checked
import FlatC.Value.Conversion

/-!
# Operators on values

Binary operators work on two evaluated operands.  The type of the result comes from the operand
types; the number is computed in whole numbers, or in binary64 for `float`, and then fitted to
the type.  Arithmetic on pointers counts in elements, and in 64 bits.

* `Value.plus`, `Value.minus`, `Value.times`, `Value.dividedBy` and `Value.remainder`;
* `Value.compare`, `Value.logical` and `Value.bitwise`;
* `Value.binary` chooses among them, and `Value.plainUnary` has the unary operators that leave
  memory alone.
-/

namespace FlatC.Value

/-- The unit of pointer arithmetic: the size of what a pointer or an array refers to, and one
for every other type. -/
def stepSize (table : StructTable) (v : Value) : Except Fault Nat :=
  if v.type.isPointerLike then do
    let target ← v.type.pointee
    table.sizeOf target
  else .ok 1

/-- The integer part of the number. -/
def whole (v : Value) : Int :=
  v.number.toInt64

/-- Two numbers combined in the arithmetic of a result type. -/
def combine (v w : Value) (type : CType) (onWhole : Int → Int → Int)
    (onFloat : Binary64 → Binary64 → Binary64) : Value :=
  rvalue
    (if type.isFloat then onFloat v.number w.number else .ofInt (onWhole v.whole w.whole)) type

/-! ## Arithmetic operators -/

/-- The number that lies `count` steps behind a pointer. -/
def forward (pointer count : Value) (step : Nat) : Except Fault Int := do
  let offset ← checkedLong .multiply (count.whole * step)
  checkedLong .add (pointer.whole + offset)

/-- The number that lies `count` steps before a pointer. -/
def backward (pointer count : Value) (step : Nat) : Except Fault Int := do
  let offset ← checkedLong .multiply (count.whole * step)
  checkedLong .subtract (pointer.whole - offset)

/-- Sum; a whole number is added to a pointer in elements, on either side. -/
def plus (table : StructTable) (v w : Value) : Except Fault Value := do
  let type ← CType.binary .add v.type w.type
  if v.type.isPointerLike then
    let step ← v.stepSize table
    let sum ← v.forward w step
    return rvalue (.ofInt sum) type
  else if w.type.isPointerLike then
    let step ← w.stepSize table
    let sum ← w.forward v step
    return rvalue (.ofInt sum) type
  else
    return v.combine w type (· + ·) Binary64.add

/-- Difference; of two pointers, the distance in elements.  Elements without size count as
bytes. -/
def minus (table : StructTable) (v w : Value) : Except Fault Value := do
  let type ← CType.binary .sub v.type w.type
  if v.type.isPointerLike then
    let step := max (← v.stepSize table) 1
    if w.type.isPointerLike then
      return rvalue (.ofInt (((v.toAddress : Int) - w.toAddress).tdiv step)) type
    else
      let difference ← v.backward w step
      return rvalue (.ofInt difference) type
  else
    return v.combine w type (· - ·) Binary64.sub

/-- Product. -/
def times (v w : Value) : Except Fault Value := do
  let type ← CType.binary .mul v.type w.type
  return v.combine w type (· * ·) Binary64.mul

/-- Quotient, toward zero for whole numbers.  A zero divisor is a fault whatever the types. -/
def dividedBy (v w : Value) : Except Fault Value := do
  if w.isTrue then
    let type ← CType.binary .div v.type w.type
    return v.combine w type Int.tdiv Binary64.div
  else
    throw (.arithmetic .divisionByZero)

/-- Remainder, with the sign of the dividend.  A zero divisor is a fault whatever the types. -/
def remainder (v w : Value) : Except Fault Value := do
  if w.isTrue then
    let type ← CType.binary .mod v.type w.type
    return rvalue (.ofInt (v.whole.tmod w.whole)) type
  else
    throw (.arithmetic .moduloByZero)

/-! ## Comparisons -/

/-- The truth of a comparison of two numbers; `none` for an operator that compares nothing. -/
def relation? (op : BinaryOp) (x y : Binary64) : Option Bool :=
  match op with
  | .eq => some (x.numEq y)
  | .ne => some (!x.numEq y)
  | .lt => some (x.numLt y)
  | .le => some (x.numLe y)
  | .gt => some (y.numLt x)
  | .ge => some (y.numLe x)
  | _ => none

/-- Whether a pointer is paired with something that is neither a pointer nor the null constant. -/
def mixesPointer (v w : Value) : Bool :=
  (v.type.isPointerLike && !w.type.isPointerLike && !w.isNullConstant) ||
    (w.type.isPointerLike && !v.type.isPointerLike && !v.isNullConstant)

/-- Comparison, with an `int` result.  Next to a pointer only the null constant may stand. -/
def compare (op : BinaryOp) (v w : Value) : Except Fault Value := do
  let _ ← CType.binary op v.type w.type
  if v.mixesPointer w then
    throw (.type (.invalidOperands op v.type w.type))
  match relation? op v.number w.number with
  | some result => return ofBool result
  | none => throw (.type (.invalidOperands op v.type w.type))

/-- Conjunction, and disjunction for any other operator, of operands already evaluated. -/
def logical (op : BinaryOp) (v w : Value) : Except Fault Value := do
  let _ ← CType.binary op v.type w.type
  return ofBool (match op with
    | .and => v.isTrue && w.isTrue
    | _ => v.isTrue || w.isTrue)

/-! ## Bit patterns -/

/-- An operation on 32-bit patterns.  Shifts use the low five bits of the right operand; any
operator that is no other bit operation shifts right, keeping the sign. -/
def bitPattern (op : BinaryOp) (a b : BitVec 32) : BitVec 32 :=
  match op with
  | .bitAnd => a &&& b
  | .bitOr => a ||| b
  | .bitXor => a ^^^ b
  | .shiftLeft => a <<< (b.toNat % 32)
  | _ => a.sshiftRight (b.toNat % 32)

/-- Operators on the 32-bit patterns of two values. -/
def bitwise (op : BinaryOp) (v w : Value) : Except Fault Value := do
  let type ← CType.binary op v.type w.type
  return rvalue (.ofInt (bitPattern op (.ofInt 32 v.toInt32) (.ofInt 32 w.toInt32)).toInt) type

/-! ## All operators -/

/-- Any binary operator on two evaluated operands. -/
def binary (table : StructTable) (op : BinaryOp) (v w : Value) : Except Fault Value :=
  match op with
  | .add => v.plus table w
  | .sub => v.minus table w
  | .mul => v.times w
  | .div => v.dividedBy w
  | .mod => v.remainder w
  | .eq | .ne | .lt | .le | .gt | .ge => compare op v w
  | .and | .or => logical op v w
  | .bitAnd | .bitOr | .bitXor | .shiftLeft | .shiftRight => bitwise op v w

/-- The number of a unary operator that leaves memory alone. -/
def unaryNumber (op : UnaryOp) (v : Value) : Binary64 :=
  match op with
  | .neg => v.number.neg
  | .not => .ofBool (!v.isTrue)
  | .bitNot => .ofInt (~~~ BitVec.ofInt 32 v.toInt32).toInt
  | _ => v.number

/-- The unary operators that leave memory alone: the signs, negation and complement. -/
def plainUnary (op : UnaryOp) (v : Value) : Except Fault Value := do
  let type ← CType.unary op v.type
  return rvalue (v.unaryNumber op) type

/-- A pointer to the place that a value names. -/
def addressOf (v : Value) : Except Fault Value :=
  match v.address with
  | none => .error (.type (.notAnLvalue .addressOf))
  | some address => do
    let type ← CType.unary .addressOf v.type
    return pointerTo address type

/-- The value as a condition, which must be a scalar. -/
def condition (v : Value) : Except Fault Bool :=
  if v.type.isScalar then .ok v.isTrue
  else .error (.type (.illegalCast v.type .int false))

end FlatC.Value

import FlatC.Fault

/-!
# Result types of operators

The type of the result of an operator, from the types of its operands alone.

* `CType.binary?` is the type of a binary operation, if the operator applies;
* `CType.unary?` is the type of a unary operation, if the operator applies;
* `CType.binary`, `CType.unary` and `CType.pointee` name the fault where there is no result.
-/

namespace FlatC.CType

/-- A binary operation on two arithmetic types. -/
def arithmeticBinary? (op : BinaryOp) (left right : CType) : Option CType :=
  if op.isRelational || op.isLogical then some .int
  else if left.isFloat || right.isFloat then
    if op = .mod ∨ op.isBitwise then none else some .float
  else some .int

/-- A binary operation with a pointer or an array on its left. -/
def pointerBinary? (op : BinaryOp) (left right : CType) : Option CType :=
  let this := left.decay
  let other := right.decay
  match op with
  | .add => if right.isWhole then some this else none
  | .sub =>
    if right.isWhole then some this
    else if right.isPointerLike && other.same this then some .int
    else none
  | .eq | .ne | .lt | .le | .gt | .ge =>
    if right.isPointerLike then
      if other.same this || other.isVoidPointer || this.isVoidPointer then some .int else none
    else if op.isEquality && right.isWhole then some .int
    else none
  | .and | .or => if right.isScalar then some .int else none
  | _ => none

/-- The type of `left op right`, if the operator applies.  A pointer on the right is treated as
if it stood on the left, where the operator allows it. -/
def binary? (op : BinaryOp) (left right : CType) : Option CType :=
  if left.isArithmetic then
    if right.isArithmetic then arithmeticBinary? op left right
    else if op.isCommutative && right.isPointerLike then pointerBinary? op right left
    else none
  else if left.isPointerLike then pointerBinary? op left right
  else none

/-- A unary operation on an arithmetic type. -/
def arithmeticUnary? (op : UnaryOp) (operand : CType) : Option CType :=
  match op with
  | .neg | .plus => some (if operand.isFloat then .float else .int)
  | .not => some .int
  | .bitNot => if operand.isWhole then some .int else none
  | .preInc | .preDec | .postInc | .postDec => some operand
  | .deref => none
  | .addressOf => some (.pointer operand)

/-- The type of `op operand`, if the operator applies. -/
def unary? (op : UnaryOp) (operand : CType) : Option CType :=
  match operand with
  | .int | .char | .float => arithmeticUnary? op operand
  | .pointer target =>
    match op with
    | .not => some .int
    | .preInc | .preDec | .postInc | .postDec => some operand
    | .deref =>
      match target with
      | .void | .function => none
      | _ => some target
    | .addressOf => some (.pointer operand)
    | _ => none
  | .array .. =>
    match op with
    | .not => some .int
    | .deref => operand.pointee?
    | .addressOf => some (.pointer operand)
    | _ => none
  | .struct _ =>
    match op with
    | .addressOf => some (.pointer operand)
    | _ => none
  | .void | .function => none

/-! ## With faults -/

/-- The type of `left op right`. -/
def binary (op : BinaryOp) (left right : CType) : Except Fault CType :=
  match binary? op left right with
  | some result => .ok result
  | none => .error (.type (.invalidOperands op left right))

/-- The type of `op operand`. -/
def unary (op : UnaryOp) (operand : CType) : Except Fault CType :=
  match unary? op operand with
  | some result => .ok result
  | none => .error (.type (.invalidUnaryOperand op operand))

/-- The type that the operator for dereference reaches.  Unlike `pointee`, it stops at targets
without values. -/
def dereferenced (operand : CType) : Except Fault CType :=
  match unary? .deref operand with
  | some result => .ok result
  | none => .error (.type (.notDereferenceable operand))

/-- The type that one dereference reaches. -/
def pointee (type : CType) : Except Fault CType :=
  match type.pointee? with
  | some target => .ok target
  | none => .error (.type (.notDereferenceable type))

end FlatC.CType

import FlatC.Machine.Variable

/-!
# Types of expressions

The type of an expression without evaluating it, as the size operator needs it.  Operators follow
the same tables as evaluation.  A text literal has the type of its storage, terminator included;
an assignment has the type of its target, and a choice that of its first branch.
-/

namespace FlatC

/-- The type of a field of a struct. -/
def CType.fieldType (table : StructTable) (object : CType) (name : String) :
    Except Fault CType :=
  match object with
  | .struct ref => do
    let field ← table.field ref name
    return field.type
  | other => throw (.type (.notAStruct other))

/-- The type of a unary operation on an operand of a known type. -/
def CType.unaryResult (op : UnaryOp) (operand : CType) : Except Fault CType :=
  match op with
  | .deref => operand.dereferenced
  | _ => CType.unary op operand

/-- The type of the storage of a text literal. -/
def CType.ofText (literal : String) : CType :=
  .array .char [(Text.literalBody literal.toList).length + 1]

/-- The type of an expression in the present frame. -/
def Expr.typeIn (table : StructTable) (machine : Machine) : Expr → Except Fault CType
  | .number value => .ok (.ofLiteral value)
  | .text literal => .ok (.ofText literal)
  | .var name => machine.frame.typeOf name
  | .binary op left right =>
    if op.isLogical then .ok .int
    else do
      let left ← left.typeIn table machine
      let right ← right.typeIn table machine
      CType.binary op left right
  | .unary op operand => do
    let operand ← operand.typeIn table machine
    CType.unaryResult op operand
  | .assign _ target _ => target.typeIn table machine
  | .conditional _ whenTrue _ => whenTrue.typeIn table machine
  | .call function _ => do
    let callee ← machine.functionOf table function
    return callee.returnType
  | .index array position => do
    let array ← array.typeIn table machine
    let position ← position.typeIn table machine
    let pointer ← CType.binary .add array position
    pointer.pointee
  | .member object field => do
    let object ← object.typeIn table machine
    object.fieldType table field
  | .arrow pointer field => do
    let pointer ← pointer.typeIn table machine
    let object ← pointer.pointee
    object.fieldType table field
  | .cast type _ => .ok type
  | .sizeofType _ | .sizeofExpr _ => .ok .int

end FlatC

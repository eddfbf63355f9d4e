import FlatC.Image.Literal
import FlatC.Library.Call
import FlatC.Machine.Runner
import FlatC.Typing

/-!
# Evaluation of expressions

Operands are evaluated from left to right, except that an assignment evaluates its right side
before its target.  The logical operators and the choice evaluate only what they need.  How
functions of the program are called is a parameter, so evaluation follows the structure of the
expression alone.  The runner that carries the evaluation out is one too.

* `Expr.evalWith` evaluates an expression;
* `Expr.evalAllWith` evaluates the arguments of a call.
-/

namespace FlatC

/-- A way to call a function of the program with evaluated arguments. -/
abbrev UserCall (μ : Type → Type) : Type := FunctionDef → List Value → μ Value

/-- The size of a type, as an `int` value. -/
def Value.ofSize (table : StructTable) (type : CType) : Except Fault Value := do
  let size ← table.sizeOf type
  return .ofInt size

/-- The element of an array at a position. -/
def Value.elementAt (table : StructTable) (array position : Value) (image : Image) :
    Except Fault Value := do
  let place ← array.plus table position
  place.deref table image

/-- A field of the struct behind a pointer. -/
def Value.arrow (table : StructTable) (pointer : Value) (field : String) (image : Image) :
    Except Fault Value := do
  let object ← pointer.deref table image
  object.member table field image

/-- The value of a cast.  A cast to `void` drops any value. -/
def Value.cast (type : CType) (v : Value) : Except Fault Value :=
  match type with
  | .void => .ok .void
  | _ => v.explicit type

open Runner

variable {μ : Type → Type} [Monad μ] [Runner μ]

/-- Calls a function with evaluated arguments. -/
@[specialize] def Callee.callWith (user : UserCall μ) (callee : Callee) (arguments : List Value) :
    μ Value :=
  match callee with
  | .user function => user function arguments
  | .library function => step (function.call arguments)

mutual

/-- Evaluates an expression. -/
@[specialize] def Expr.evalWith (env : Env) (user : UserCall μ) (expr : Expr) : μ Value :=
  part .expression <| match expr with
  | .number value => pure (.literal value)
  | .text literal => step (.onImage (Image.intern literal.toList))
  | .var name => step (.ask (Machine.valueOf env.structs name))
  | .binary .and left right => do
    let left ← left.evalWith env user
    if ← step (.of left.condition) then
      let right ← right.evalWith env user
      return .ofBool (← step (.of right.condition))
    else
      return .ofBool false
  | .binary .or left right => do
    let left ← left.evalWith env user
    if ← step (.of left.condition) then
      return .ofBool true
    else
      let right ← right.evalWith env user
      return .ofBool (← step (.of right.condition))
  | .binary op left right => do
    let left ← left.evalWith env user
    let right ← right.evalWith env user
    step (.of (Value.binary env.structs op left right))
  | .unary op operand => do
    let operand ← operand.evalWith env user
    step (.onImage (operand.unary env.structs op))
  | .assign op target value => do
    let value ← value.evalWith env user
    let target ← target.evalWith env user
    step (.onImage (target.assign env.structs op value))
  | .conditional test whenTrue whenFalse => do
    let test ← test.evalWith env user
    if ← step (.of test.condition) then
      let value ← whenTrue.evalWith env user
      return value.toRvalue
    else
      let value ← whenFalse.evalWith env user
      return value.toRvalue
  | .call function arguments => do
    let callee ← step (.ask (Machine.functionOf env.structs function))
    let values ← Expr.evalAllWith env user arguments
    callee.callWith user values
  | .index array position => do
    let array ← array.evalWith env user
    let position ← position.evalWith env user
    step (.onImage (Image.query (array.elementAt env.structs position)))
  | .member object field => do
    let object ← object.evalWith env user
    step (.onImage (Image.query (object.member env.structs field)))
  | .arrow pointer field => do
    let pointer ← pointer.evalWith env user
    step (.onImage (Image.query (pointer.arrow env.structs field)))
  | .cast type operand => do
    let operand ← operand.evalWith env user
    step (.of (operand.cast type))
  | .sizeofType type => step (.of (Value.ofSize env.structs type))
  | .sizeofExpr operand => do
    let type ← step (.ask fun machine => operand.typeIn env.structs machine)
    step (.of (Value.ofSize env.structs type))

/-- Evaluates the arguments of a call, from left to right. -/
@[specialize] def Expr.evalAllWith (env : Env) (user : UserCall μ) : List Expr → μ (List Value)
  | [] => pure []
  | argument :: rest => do
    let value ← argument.evalWith env user
    let values ← Expr.evalAllWith env user rest
    return value.toRvalue :: values

end

/-- Evaluates a condition. -/
@[specialize] def Expr.testWith (env : Env) (user : UserCall μ) (test : Expr) : μ Bool := do
  let value ← test.evalWith env user
  step (.of value.condition)

end FlatC

import FlatC.Image.Typed
import FlatC.Value.Arithmetic

/-!
# Operators on places

The operators that read or write memory: dereference, access to a field, the steps up and down,
and assignment.  What they write goes to the address that the operand was read from.

* `Value.deref` and `Value.member` read what a value refers to;
* `Value.stepBy` adds or subtracts one element and writes the result back;
* `Value.assign` stores a value;
* `Value.unary` is any unary operator.
-/

namespace FlatC.Value

/-! ## Reading -/

/-- The value that a pointer or an array refers to. -/
def deref (table : StructTable) (v : Value) (image : Image) : Except Fault Value := do
  let type ← v.type.dereferenced
  image.read table v.toAddress type

/-- A field of a struct. -/
def member (table : StructTable) (v : Value) (name : String) (image : Image) :
    Except Fault Value :=
  match v.type with
  | .struct ref => do
    let field ← table.field ref name
    image.read table ((v.toAddress + field.offset) % wordRange) field.type
  | other => throw (.type (.notAStruct other))

/-! ## Steps -/

/-- Whether a step goes up. -/
def stepsUp : UnaryOp → Bool
  | .preInc | .postInc => true
  | _ => false

/-- Whether a step yields the new value rather than the old one. -/
def yieldsNew : UnaryOp → Bool
  | .preInc | .preDec => true
  | _ => false

/-- The value one step up or down, in elements for a pointer. -/
def stepped (table : StructTable) (op : UnaryOp) (v : Value) : Except Fault Value := do
  let type ← CType.unary op v.type
  let size ← v.stepSize table
  let direction : Binary64 := .ofInt (if stepsUp op then 1 else -1)
  return rvalue (v.number.add (direction.mul (.ofNat size))) type

/-- Moves the number at a place by one step and yields the new or the old value. -/
def stepBy (table : StructTable) (op : UnaryOp) (v : Value) : Store Value :=
  match v.address with
  | none => throw (.type (.notAnLvalue (.step op)))
  | some address => do
    let updated ← Store.of (v.stepped table op)
    Image.store address updated
    return if yieldsNew op then updated else v.toRvalue

/-! ## Assignment -/

/-- The value to store, and the value that the assignment yields.  A plain assignment yields its
right operand as it was before conversion; a compound one yields what it stores. -/
def assigned (table : StructTable) (op : AssignOp) (target source : Value) :
    Except Fault (Value × Value) := do
  match op with
  | .plain =>
    let converted ← source.implicit target.type
    return (converted, source.toRvalue)
  | .compound op =>
    let result ← binary table op target source
    if result.type.castsTo target.type then
      let converted := result.castTo target.type false
      return (converted, converted)
    else
      throw (.type (.illegalCast result.type target.type false))

/-- Stores a value at the place of another. -/
def assign (table : StructTable) (op : AssignOp) (target source : Value) : Store Value :=
  match target.address with
  | none => throw (.type (.notAnLvalue (.assign op)))
  | some address =>
    if target.type.isStorable then do
      let (stored, yielded) ← Store.of (target.assigned table op source)
      Image.store address stored
      return yielded
    else
      throw (.type (.notStorable target.type))

/-! ## Any unary operator -/

/-- Any unary operator on an evaluated operand. -/
def unary (table : StructTable) (op : UnaryOp) (v : Value) : Store Value :=
  match op with
  | .deref => Image.query (v.deref table)
  | .addressOf => Store.of v.addressOf
  | .preInc | .preDec | .postInc | .postDec => v.stepBy table op
  | .neg | .plus | .not | .bitNot => Store.of (v.plainUnary op)

/-- Converts a value and stores it at an address. -/
def storeAs (address : Nat) (type : CType) (v : Value) : Store Unit := do
  let converted ← Store.of (v.implicit type)
  Image.store address converted

/-- The address of the text that a pointer or an array refers to. -/
def textAddress (v : Value) : Except Fault Nat :=
  if v.type.isPointerLike then .ok v.toAddress else .error (.type (.notDereferenceable v.type))

/-- The text that a pointer or an array refers to, as bytes. -/
def textBytes (v : Value) (image : Image) : Except Fault (List UInt8) := do
  let address ← v.textAddress
  image.textBytes address

/-- The number of bytes of the text that a pointer or an array refers to. -/
def textLength (v : Value) (image : Image) : Except Fault Nat := do
  let address ← v.textAddress
  image.textLength address

/-- The text that a pointer or an array refers to. -/
def readText (v : Value) (image : Image) : Except Fault (List Char) := do
  let bytes ← v.textBytes image
  return Text.decode bytes

end FlatC.Value

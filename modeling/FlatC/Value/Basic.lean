import FlatC.CType.Conversion
import FlatC.CType.Struct
import FlatC.CType.Typing
import FlatC.Decimal.Shortest
import FlatC.Number.Encoding

/-!
# Values

A value is a number with a type, and with the address it was read from if it names a place in
memory.  The number always lies in the range of the type: whoever makes a value first fits the
number to its type, so overflow wraps and is never reported.

* `CType.fit` wraps a number into the range of a type;
* `Value.rvalue`, `Value.lvalue` and `Value.literal` make values;
* `Value.toAddress` and `Value.toInt32` read the number as a bit pattern;
* `Value.text` writes a value.
-/

namespace FlatC

/-- Wraps a number into the range of a type: whole numbers keep their low bits, `float` rounds
to single precision, and types without stored values take any number. -/
def CType.fit (type : CType) (x : Binary64) : Binary64 :=
  match type with
  | .int => x.wrap wordRange true
  | .char => x.wrap byteRange true
  | .pointer _ | .array .. | .struct _ => x.wrap wordRange false
  | .float => x.toSingle
  | .void | .function => x

/-- The type of a number written in a program: `float` if it has a fraction, `char` if it fits
one, and `int` otherwise. -/
def CType.ofLiteral (x : Binary64) : CType :=
  if x.hasFraction then .float
  else if (Binary64.ofInt (-128)).numLe x && x.numLe (Binary64.ofInt 127) then .char
  else .int

/-- A number with a type, and the address it was read from. -/
structure Value where
  number : Binary64
  type : CType
  address : Option Nat
deriving DecidableEq, Repr, Inhabited

namespace Value

/-! ## Making values -/

/-- The result of a computation, which has no address. -/
def rvalue (x : Binary64) (type : CType) : Value :=
  ⟨type.fit x, type, none⟩

/-- A value read from an address. -/
def lvalue (x : Binary64) (type : CType) (address : Nat) : Value :=
  ⟨type.fit x, type, some address⟩

/-- The value of a number written in a program. -/
def literal (x : Binary64) : Value :=
  rvalue x (.ofLiteral x)

/-- The value that stands for no value. -/
def void : Value :=
  rvalue .zero .void

/-- An `int` value. -/
def ofInt (n : Int) : Value :=
  rvalue (.ofInt n) .int

/-- The `int` one or zero. -/
def ofBool (b : Bool) : Value :=
  rvalue (.ofBool b) .int

/-- A pointer to an address. -/
def pointerTo (address : Nat) (type : CType) : Value :=
  rvalue (.ofNat address) type

/-- The value without its address. -/
def toRvalue (v : Value) : Value :=
  { v with address := none }

/-! ## Reading values -/

/-- Whether the value names a place in memory. -/
def isLvalue (v : Value) : Bool :=
  v.address.isSome

/-- The number as an address: the low 32 bits of its integer part. -/
def toAddress (v : Value) : Nat :=
  (v.number.toInt64 % wordRange).toNat

/-- The number as a signed 32-bit number. -/
def toInt32 (v : Value) : Int :=
  v.number.toInt64.bmod wordRange

/-- Whether the value counts as true. -/
def isTrue (v : Value) : Bool :=
  v.number.isTrue

/-- A zero of a whole type that names no place in memory may stand for the null pointer. -/
def isNullConstant (v : Value) : Bool :=
  v.type.isWhole && !v.isTrue && !v.isLvalue

/-- Whether two values have the same type and address and equal numbers. -/
def same (v w : Value) : Bool :=
  v.number.numEq w.number && v.type.same w.type && v.address == w.address

/-- The value as text: a `float` in its shortest form, what refers to memory as an address, and
anything else as a whole number. -/
def text (v : Value) : String :=
  match v.type with
  | .float => String.ofList (Decimal.shortestText v.number)
  | .pointer _ | .array .. | .struct _ => addressText v.toAddress
  | _ => String.ofList (Decimal.intText v.number.toInt64)

@[simp] theorem type_rvalue (x : Binary64) (type : CType) : (rvalue x type).type = type := rfl

@[simp] theorem address_rvalue (x : Binary64) (type : CType) : (rvalue x type).address = none :=
  rfl

@[simp] theorem type_lvalue (x : Binary64) (type : CType) (address : Nat) :
    (lvalue x type address).type = type := rfl

@[simp] theorem address_lvalue (x : Binary64) (type : CType) (address : Nat) :
    (lvalue x type address).address = some address := rfl

end Value

end FlatC

import FlatC.Image.Access
import FlatC.Value.Basic

/-!
# Typed access to memory

A scalar is stored as four bytes, or one for `char`: whole numbers and pointers as the low bits of
the number, `float` as its single-precision pattern.  Arrays and structs are not loaded; reading
one gives its own address as a value.

* `Image.read` reads a value of a type;
* `Image.store` writes a value by its own type.
-/

namespace FlatC.Image

/-- Reads the number stored in the `size` bytes at an address. -/
def readUnsigned (image : Image) (address size : Nat) : Except Fault Nat := do
  let bytes ← image.readBytes address size
  return Word.ofBytes bytes

/-- Reads an `int`. -/
def readInt (image : Image) (address : Nat) : Except Fault Value := do
  let word ← image.readUnsigned address 4
  return .lvalue (.ofInt ((word : Int).bmod wordRange)) .int address

/-- Reads a `float`. -/
def readFloat (image : Image) (address : Nat) : Except Fault Value := do
  let word ← image.readUnsigned address 4
  return .lvalue (.ofSingleBits word) .float address

/-- Reads a `char`. -/
def readChar (image : Image) (address : Nat) : Except Fault Value := do
  let byte ← image.readUnsigned address 1
  return .lvalue (.ofInt ((byte : Int).bmod byteRange)) .char address

/-- Reads a pointer as a value of the given type. -/
def readPointer (image : Image) (address : Nat) (type : CType) : Except Fault Value := do
  let word ← image.readUnsigned address 4
  return .lvalue (.ofNat word) type address

/-- Reads a value of a type.  An array or a struct must lie in the image as a whole. -/
def read (table : StructTable) (image : Image) (address : Nat) (type : CType) :
    Except Fault Value :=
  match type with
  | .int => image.readInt address
  | .float => image.readFloat address
  | .char => image.readChar address
  | .pointer _ => image.readPointer address type
  | .array .. | .struct _ => do
    let size ← table.sizeOf type
    image.checkReadable address size
    return .lvalue (.ofNat address) type address
  | .void | .function => throw (.type (.notDereferenceable type))

/-- The bytes that store a value, if values of its type are stored. -/
def stored? (value : Value) : Option (List UInt8) :=
  match value.type with
  | .int | .pointer _ => some (Word.toBytes 4 value.toAddress)
  | .float => some (Word.toBytes 4 value.number.toSingleBits)
  | .char => some (Word.toBytes 1 value.toAddress)
  | _ => none

/-- Writes a value by its own type. -/
def store (address : Nat) (value : Value) : Store Unit :=
  match stored? value with
  | some data => write address data
  | none => throw (.type (.notStorable value.type))

end FlatC.Image

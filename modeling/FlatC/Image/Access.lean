import FlatC.CType.Struct
import FlatC.Image.Basic
import FlatC.Text.Latin1

/-!
# Checked access to bytes

A program may read from every address of the image but zero, and write from the heap on.  Of
several faults of one access the null address is reported first, then the bounds, then the
read-only region.

* `Image.readBytes` and `Image.readText` take bytes and texts out of an image, and
  `Image.textLength` measures a text;
* `Image.write`, `Image.fill` and `Image.writeText` put them in, or fail and change nothing;
* `Image.readWord` and `Image.writeWord` serve the allocator, which is not bound by the rules for
  programs.
-/

namespace FlatC.Image

/-! ## Checks -/

/-- The range must lie in the image. -/
def checkBounds (image : Image) (address size : Nat) : Except Fault Unit :=
  if address + size ≤ image.size then .ok ()
  else .error (.memory (.outOfBounds address size))

/-- A range that a program may read. -/
def checkReadable (image : Image) (address size : Nat) : Except Fault Unit :=
  if address = 0 then .error (.memory .nullDereference)
  else image.checkBounds address size

/-- A range that a program may write. -/
def checkWritable (image : Image) (address size : Nat) : Except Fault Unit := do
  image.checkReadable address size
  if address < image.heapBottom then
    throw (.memory (.readOnlyWrite address))

/-! ## Bytes -/

/-- Reads bytes. -/
def readBytes (image : Image) (address size : Nat) : Except Fault (List UInt8) := do
  image.checkReadable address size
  return image.bytesAt address size

/-- Writes bytes. -/
def write (address : Nat) (data : List UInt8) : Store Unit := fun image =>
  match image.checkWritable address data.length with
  | .ok _ => .ok () (image.put address data)
  | .error fault => .error fault image

/-- Sets a range of bytes to one byte. -/
def fill (address size : Nat) (byte : UInt8) : Store Unit := fun image =>
  match image.checkWritable address size with
  | .ok _ => .ok () (image.filled address size byte)
  | .error fault => .error fault image

/-! ## Words of the allocator -/

/-- Reads a word from anywhere in the image. -/
def readWord (image : Image) (address : Nat) : Except Fault Nat := do
  image.checkBounds address wordSize
  return Word.ofBytes (image.bytesAt address wordSize)

/-- Writes a word anywhere in the image. -/
def writeWord (address word : Nat) : Store Unit := fun image =>
  match image.checkBounds address wordSize with
  | .ok _ => .ok () (image.put address (Word.toBytes wordSize word))
  | .error fault => .error fault image

/-! ## Texts -/

/-- Where the zero stands that ends the text at an address. -/
def textStop (image : Image) (address : Nat) : Except Fault Nat := do
  image.checkReadable address 1
  match image.bytes.find? 0 address with
  | some stop => return stop
  | none => throw (.memory (.unterminatedString address))

/-- The number of bytes of the text at an address, its terminating zero not counted. -/
def textLength (image : Image) (address : Nat) : Except Fault Nat := do
  let stop ← image.textStop address
  return stop - address

/-- The bytes of the text at an address, up to its terminating zero. -/
def textBytes (image : Image) (address : Nat) : Except Fault (List UInt8) := do
  let stop ← image.textStop address
  return image.bytesAt address (stop - address)

/-- The text at an address. -/
def readText (image : Image) (address : Nat) : Except Fault (List Char) := do
  let bytes ← image.textBytes address
  return Text.decode bytes

/-- Writes a text and its terminating zero. -/
def writeText (address : Nat) (text : List Char) : Store Unit :=
  write address (Text.encode text ++ [0])

end FlatC.Image

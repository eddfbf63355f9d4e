import FlatC.Fault
import FlatC.Image.Pages
import FlatC.Image.Word

/-!
# The memory image

All memory of a program is one run of bytes with three regions, each starting where the one before
it ends: read-only text, the heap and the stack.  The lowest addresses are never handed out, so that
address zero can stand for nothing.

* `Image` is the bytes with their region bounds and what is known about their contents;
* `Image.put` and `Image.filled` write bytes and `Image.bytesAt` reads them, all without any check;
* `Store` is a step on an image, which leaves an image behind even when it fails.
-/

namespace FlatC

/-- What becomes of the stack cursor when a scope is closed. -/
inductive StackPolicy where
  /-- The space of the closed scope is used again. -/
  | reclaim
  /-- The cursor stays behind everything the scope has claimed. -/
  | growOnly
deriving DecidableEq, Repr, Inhabited

/-- The lowest address handed out for a text literal. -/
def nullPage : Nat := 4

/-- The bytes of a word; allocations are rounded up to it and stack slots aligned to it. -/
def wordSize : Nat := 4

/-- Sizes of the regions, and the stack policy. -/
structure Regions where
  readOnlySize : Nat := 0x1000
  heapSize : Nat := 0x10000
  stackSize : Nat := 0x10000
  policy : StackPolicy := .reclaim
deriving DecidableEq, Repr, Inhabited

/-- The memory of a program. -/
structure Image where
  /-- Every byte, by address. -/
  bytes : Bytes
  /-- Where the heap starts and the read-only region ends. -/
  heapBottom : Nat
  /-- Where the stack starts and the heap ends. -/
  stackBottom : Nat
  /-- Where the next text literal goes. -/
  readOnlyTop : Nat
  /-- The text literals placed so far, with their addresses. -/
  literals : List (List Char × Nat)
  /-- The addresses of the allocations that have not been freed. -/
  live : List Nat
  /-- What becomes of the stack cursor when a scope is closed. -/
  policy : StackPolicy
deriving Inhabited

/-- A step on an image.  Whether it succeeds or fails, it leaves an image behind. -/
abbrev Store (α : Type) : Type := EStateM Fault Image α

/-- A result that does not depend on the image, as a step that changes nothing. -/
def Store.of {α : Type} (result : Except Fault α) : Store α := fun image =>
  match result with
  | .ok answer => .ok answer image
  | .error fault => .error fault image

namespace Image

/-- Runs a question about the image as a step that changes nothing. -/
def query {α : Type} (question : Image → Except Fault α) : Store α := fun image =>
  match question image with
  | .ok answer => .ok answer image
  | .error fault => .error fault image

/-- The number of bytes of the image. -/
def size (image : Image) : Nat :=
  image.bytes.size

/-- Bytes of the read-only region that no literal uses yet. -/
def readOnlyAvailable (image : Image) : Nat :=
  image.heapBottom - image.readOnlyTop

/-- Writes bytes one after another, as far as there is room. -/
def putFrom (bytes : Bytes) (start : Nat) : List UInt8 → Bytes
  | [] => bytes
  | byte :: rest => putFrom (bytes.set start byte) (start + 1) rest

/-- The image with bytes written from an address on. -/
def put (image : Image) (address : Nat) (data : List UInt8) : Image :=
  { image with bytes := putFrom image.bytes address data }

/-- The image with one byte written all over a range. -/
def filled (image : Image) (address size : Nat) (byte : UInt8) : Image :=
  { image with bytes := image.bytes.fill address size byte }

/-- The bytes from an address on. -/
def bytesAt (image : Image) (address size : Nat) : List UInt8 :=
  image.bytes.slice address size

/-! ## What writing leaves alone -/

@[simp] theorem size_putFrom (bytes : Bytes) (start : Nat) (data : List UInt8) :
    (putFrom bytes start data).size = bytes.size := by
  induction data generalizing bytes start with
  | nil => rfl
  | cons byte rest ih => rw [putFrom, ih, Bytes.size_set]

/-- Writing changes no byte before its start. -/
theorem getElem?_putFrom_of_lt (bytes : Bytes) (start : Nat) (data : List UInt8) {i : Nat}
    (h : i < start) : (putFrom bytes start data)[i]? = bytes[i]? := by
  induction data generalizing bytes start with
  | nil => rfl
  | cons byte rest ih =>
    rw [putFrom, ih _ _ (Nat.lt_succ_of_lt h), Bytes.getElem?_set, if_neg (by omega)]

/-- Writing changes no byte from its end on. -/
theorem getElem?_putFrom_of_le (bytes : Bytes) (start : Nat) (data : List UInt8) {i : Nat}
    (h : start + data.length ≤ i) : (putFrom bytes start data)[i]? = bytes[i]? := by
  induction data generalizing bytes start with
  | nil => rfl
  | cons byte rest ih =>
    rw [List.length_cons] at h
    rw [putFrom, ih _ _ (by omega), Bytes.getElem?_set, if_neg (by omega)]

/-- Writing puts each byte in its place, if there is room for all of them. -/
theorem getElem?_putFrom_add (bytes : Bytes) (start : Nat) (data : List UInt8) {i : Nat}
    (hi : i < data.length) (h : start + data.length ≤ bytes.size) :
    (putFrom bytes start data)[start + i]? = data[i]? := by
  induction data generalizing bytes start i with
  | nil => cases hi
  | cons byte rest ih =>
    rw [List.length_cons] at h hi
    cases i with
    | zero =>
      show (putFrom (bytes.set start byte) (start + 1) rest)[start]? = some byte
      rw [getElem?_putFrom_of_lt _ _ _ (Nat.lt_add_one start), Bytes.getElem?_set,
        if_pos ⟨rfl, by omega⟩]
    | succ i =>
      rw [putFrom, show start + (i + 1) = start + 1 + i by omega,
        ih (bytes.set start byte) (start + 1) (by omega) (by rw [Bytes.size_set]; omega),
        List.getElem?_cons_succ]

@[simp] theorem size_put (image : Image) (address : Nat) (data : List UInt8) :
    (image.put address data).size = image.size :=
  size_putFrom ..

@[simp] theorem size_filled (image : Image) (address size : Nat) (byte : UInt8) :
    (image.filled address size byte).size = image.size :=
  Bytes.size_fill ..

end Image

end FlatC

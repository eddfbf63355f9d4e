import FlatC.Heap.Block

/-!
# Allocation

An allocation takes the first free block with room enough, and splits off what it does not need
if that can hold a tag and something behind it.
-/

namespace FlatC.Image

/-- A size rounded up to whole words. -/
def roundToWord (size : Nat) : Nat :=
  (size + (wordSize - 1)) / wordSize * wordSize

/-- The first free block with room for `size` bytes.  A tag that describes no block ends the
search. -/
def firstFit (image : Image) (size : Nat) : Except Fault Block :=
  let walk := image.walk
  match walk.blocks.find? (·.fits size) with
  | some block => .ok block
  | none =>
    match walk.fault with
    | some fault => .error fault
    | none => .error (.memory (.outOfMemory size))

/-- Links the block after an address back to the block at `tag`, unless the heap ends there. -/
def linkBack (following tag : Nat) : Store Unit := do
  let image ← get
  if following < image.stackBottom then
    writeWord following tag

/-- Turns a free block into a used one with room for `size` bytes, and the rest, if it is worth
it, into a free block behind it. -/
def carve (block : Block) (size : Nat) : Store Unit := do
  let needed := size + tagSize
  let remainder := block.length - needed
  if tagSize < remainder then
    let rest := block.address + needed
    markBlock block.address needed false
    writeWord rest block.address
    markBlock rest remainder true
    linkBack (rest + remainder) rest
  else
    markBlock block.address block.length false

/-- Records a live allocation. -/
def addLive (address : Nat) : Store Unit :=
  modify fun image => { image with live := image.live.insert address }

/-- Allocates a positive number of bytes and gives a pointer to them. -/
def allocate (size : Int) : Store Value := do
  if size ≤ 0 then
    throw (.memory (.invalidAllocationSize size))
  let size := size.toNat
  if freeFlag - 1 - tagSize < size then
    throw (.memory (.outOfMemory (min size (wordRange - 1))))
  let requested := roundToWord size
  let block ← query (·.firstFit requested)
  carve block requested
  addLive block.payload
  return .pointerTo block.payload .voidPointer

end FlatC.Image

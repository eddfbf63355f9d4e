import FlatC.Image.Typed
import FlatC.Number.Checked

/-!
# Heap blocks

The heap is covered by blocks that follow one another without gaps.  A block starts with a tag of
two words: the address of the block before it, the first block naming itself, and the length of
the block with a flag in the top bit that is set while the block is free.  The bytes behind the
tag belong to the program.

* `Image.blockAt` reads the block at an address, or finds that there is none;
* `Image.walk` lists the blocks from the bottom of the heap up, and `Image.listBlocks` is the list
  that a program gets to see;
* `Image.checkHeap` verifies the links between blocks and the record of live allocations.
-/

namespace FlatC

/-- A block of the heap. -/
structure Block where
  /-- The address of its tag. -/
  address : Nat
  /-- Its length in bytes, the tag included. -/
  length : Nat
  /-- Whether it may be allocated. -/
  free : Bool
deriving DecidableEq, Repr, Inhabited

/-- The bytes of a tag. -/
def tagSize : Nat := 8

/-- The flag of a free block in the second word of its tag; lengths stay below it. -/
def freeFlag : Nat := wordTop

namespace Block

/-- The first byte of the block that belongs to the program. -/
def payload (block : Block) : Nat :=
  block.address + tagSize

/-- Where the next block starts. -/
def stop (block : Block) : Nat :=
  block.address + block.length

/-- Whether the block is free and has room for `size` bytes behind its tag. -/
def fits (block : Block) (size : Nat) : Bool :=
  block.free && decide (size ≤ block.length - tagSize)

end Block

/-- A walk over the heap: the blocks it passed, and the fault that ended it early, if any. -/
structure Walk where
  blocks : List Block
  fault : Option Fault
deriving Inhabited

namespace Image

/-! ## Tags -/

/-- The block whose tag is at an address.  The tag must lie in the heap and describe a block that
ends in it, and the address of its second word must be a number of 32 bits. -/
def blockAt (image : Image) (tag : Nat) : Except Fault Block := do
  if tag < image.heapBottom ∨ image.stackBottom ≤ tag then
    throw (.memory (.heapCorrupted tag))
  let second ← checkedWord .add (tag + 4)
  let word ← image.readWord second
  let length := word % freeFlag
  if tagSize ≤ length ∧ tag + length ≤ image.stackBottom then
    return ⟨tag, length, decide (freeFlag ≤ word)⟩
  else
    throw (.memory (.heapCorrupted tag))

/-- Writes the length and the flag of a tag. -/
def markBlock (tag length : Nat) (free : Bool) : Store Unit :=
  writeWord (tag + 4) ((if free then freeFlag else 0) + length % freeFlag)

/-- A block found by its tag starts there, has room for a tag and ends in the heap. -/
theorem of_blockAt {image : Image} {tag : Nat} {block : Block}
    (h : image.blockAt tag = .ok block) :
    block.address = tag ∧ image.heapBottom ≤ tag ∧ tagSize ≤ block.length ∧
      block.stop ≤ image.stackBottom := by
  unfold blockAt at h
  split at h
  · cases h
  · simp only [bind, Except.bind, pure, Except.pure] at h
    split at h
    · cases h
    · split at h
      · cases h
      · split at h
        · rename_i hb
          cases h
          exact ⟨rfl, by omega, hb.1, hb.2⟩
        · cases h

/-! ## Walks -/

/-- The blocks from `tag` on.  Every block is longer than nothing, so `left` bytes up to the end
of the heap allow no more than `left` blocks. -/
def walkFrom (image : Image) : (left tag : Nat) → Walk
  | 0, _ => ⟨[], none⟩
  | left + 1, tag =>
    if image.stackBottom ≤ tag then ⟨[], none⟩
    else
      match image.blockAt tag with
      | .error fault => ⟨[], some fault⟩
      | .ok block =>
        let rest := image.walkFrom left block.stop
        { rest with blocks := block :: rest.blocks }

/-- The blocks of the heap from its bottom up. -/
def walk (image : Image) : Walk :=
  image.walkFrom (image.stackBottom - image.heapBottom) image.heapBottom

/-- The blocks of the heap, up to the first tag that describes none. -/
def blocks (image : Image) : List Block :=
  image.walk.blocks

/-- The length of all free blocks, tags included. -/
def freeBytes (image : Image) : Nat :=
  (image.blocks.filter (·.free)).foldl (fun total block => total + block.length) 0

/-- Lists the blocks of the heap.  A tag that describes no block ends the list, but a tag without an
address for its second word stops the machine. -/
def listBlocks (image : Image) : Except Fault (List Block) :=
  match image.walk.fault with
  | some (.overflow operation) => .error (.overflow operation)
  | _ => .ok image.blocks

/-- Adds up the lengths of the free blocks that are listed. -/
def countFree (image : Image) : Except Fault Nat := do
  let _ ← image.listBlocks
  return image.freeBytes

/-! ## Consistency -/

/-- Whether an address is a live allocation. -/
def isLive (image : Image) (address : Nat) : Bool :=
  image.live.contains address

/-- Checks that blocks name the ones before them, and that used blocks are live allocations. -/
def checkBlocks (image : Image) (previous : Nat) : List Block → Except Fault Unit
  | [] => .ok ()
  | block :: rest => do
    let link ← image.readWord block.address
    if link ≠ previous ∨ (block.free = false ∧ image.isLive block.payload = false) then
      throw (.memory (.heapCorrupted block.address))
    image.checkBlocks block.address rest

/-- Checks that the blocks cover the heap, that they are linked, and that the used ones are
live. -/
def checkHeap (image : Image) : Except Fault Unit := do
  let walk := image.walk
  image.checkBlocks image.heapBottom walk.blocks
  match walk.fault with
  | some fault => throw fault
  | none => return ()

end Image

end FlatC

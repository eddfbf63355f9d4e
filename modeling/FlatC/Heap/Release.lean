import FlatC.Heap.Allocate

/-!
# Release

Releasing an allocation frees its block and merges it with the free blocks on either side.  The
tags of the block and of the one before it are read before anything is written; the tag of the
block after it is read later, when the block itself has already been freed.
-/

namespace FlatC.Image

/-- The block of an allocation, and the block before it unless it is the first. -/
def releasePlan (image : Image) (address : Nat) : Except Fault (Block × Option Block) := do
  if !image.isLive address then
    throw (.memory (.invalidFree address))
  let block ← image.blockAt (address - tagSize)
  let link ← image.readWord block.address
  if link = block.address then
    return (block, none)
  if link < image.heapBottom ∨ block.address ≤ link then
    throw (.memory (.heapCorrupted block.address))
  let before ← image.blockAt link
  if before.stop ≠ block.address then
    throw (.memory (.heapCorrupted block.address))
  return (block, some before)

/-- Forgets a live allocation. -/
def removeLive (address : Nat) : Store Unit :=
  modify fun image => { image with live := image.live.erase address }

/-- Merges a block with a free block before it. -/
def mergeBefore (block : Block) (before : Option Block) : Store Block := do
  match before with
  | some before =>
    if before.free then
      let merged : Block := ⟨before.address, before.length + block.length, true⟩
      markBlock merged.address merged.length true
      return merged
    else
      return block
  | none => return block

/-- Merges a block with a free block after it. -/
def mergeAfter (block : Block) : Store Block := do
  let image ← get
  if block.stop < image.stackBottom then
    let after ← query (·.blockAt block.stop)
    if after.free then
      let merged : Block := ⟨block.address, block.length + after.length, true⟩
      markBlock merged.address merged.length true
      return merged
    else
      return block
  else
    return block

/-- Frees the allocation at an address. -/
def release (address : Nat) : Store Unit := do
  let (block, before) ← query (·.releasePlan address)
  removeLive address
  markBlock block.address block.length true
  let block ← mergeBefore block before
  let block ← mergeAfter block
  linkBack block.stop block.address

end FlatC.Image

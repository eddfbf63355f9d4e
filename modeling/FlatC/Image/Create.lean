import FlatC.Heap.Block

/-!
# A new image

A new image is filled with zeros, except that its heap is one free block.
-/

namespace FlatC.Image

/-- The least length of a heap: two tags. -/
def leastHeap : Nat := 2 * tagSize

/-- The greatest length of a heap: what the length field of a tag can hold. -/
def greatestHeap : Nat := freeFlag - 1

/-- Why regions of these sizes cannot form an image, if they cannot. -/
def layoutFault? (config : Regions) : Option LayoutFault :=
  if config.readOnlySize < nullPage then
    some (.guardUncovered config.readOnlySize nullPage)
  else if config.heapSize < leastHeap ∨ greatestHeap < config.heapSize then
    some (.heapSize config.heapSize leastHeap greatestHeap)
  else if wordRange ≤ config.readOnlySize + config.heapSize + config.stackSize then
    some .addressSpace
  else none

/-- The image of zeros with one free block for a heap. -/
def blank (config : Regions) : Image :=
  let heapBottom := config.readOnlySize
  let stackBottom := heapBottom + config.heapSize
  let zeros : Image :=
    { bytes := .replicate (stackBottom + config.stackSize) 0
      heapBottom := heapBottom
      stackBottom := stackBottom
      readOnlyTop := nullPage
      literals := []
      live := []
      policy := config.policy }
  (zeros.put heapBottom (Word.toBytes 4 heapBottom)).put (heapBottom + 4)
    (Word.toBytes 4 (freeFlag + config.heapSize))

/-- A new image, unless the regions cannot be laid out. -/
def create (config : Regions) : Except Fault Image :=
  match layoutFault? config with
  | some fault => .error (.memory (.invalidLayout fault))
  | none => .ok (blank config)

theorem of_create {config : Regions} {image : Image} (h : create config = .ok image) :
    layoutFault? config = none ∧ image = blank config := by
  unfold create at h
  cases valid : layoutFault? config with
  | some fault => simp [valid] at h
  | none =>
    simp only [valid, Except.ok.injEq] at h
    exact ⟨rfl, h.symm⟩

end FlatC.Image

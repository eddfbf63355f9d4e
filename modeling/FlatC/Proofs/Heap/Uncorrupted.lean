import FlatC.Proofs.Heap.Reachable
import FlatC.Proofs.Image.Shape

/-!
# Heaps whose tags are intact

A program may write where it should not: to a block that it has released, or behind the end of one
that it still has.  As long as no tag is overwritten the heap does not suffer from it.  So the
images of this file are reached by any operations at all, of which those of a program leave the
bytes of all tags as they are.

* `Image.Uncorrupted` is these images;
* `Image.Uncorrupted.heapIs` says that their heaps are sound;
* `Image.Uncorrupted.shape_eq` says that their regions are those of a new image.
-/

namespace FlatC.Image

variable {config : Regions} {image : Image} {blocks : List Block}

namespace Action

/-- Whether the operation is a call of the allocator. -/
def ofAllocator : Action → Bool
  | .allocate _ | .release _ => true
  | _ => false

/-- The operation leaves the bytes of all tags of the heap as they are. -/
def SparesTags (image : Image) (action : Action) : Prop :=
  ∀ block ∈ image.blocks,
    image.SameBytes (action.after image) block.address (block.address + tagSize)

theorem shape_of_keeps {α : Type} {step : Store α} (h : KeepsShape step) (image : Image) :
    (step.after image).shape = image.shape := by
  rw [Store.after_eq_left]
  exact h image

/-- No operation moves a region. -/
theorem shape_after (image : Image) (action : Action) :
    (action.after image).shape = image.shape := by
  cases action with
  | allocate size => exact shape_of_keeps (keepingShape.allocate size) image
  | release address => exact shape_of_keeps (keepingShape.release address) image
  | intern text => exact shape_of_keeps (keepsShape_intern text) image
  | write address data => exact shape_of_keeps (keepsShape_write address data) image
  | fill address size byte => exact shape_of_keeps (keepsShape_fill address size byte) image
  | store address value => exact shape_of_keeps (keepingShape.store address value) image
  | writeText address text => exact shape_of_keeps (keepsShape_write address _) image

end Action

/-- The images that are reached from a new one while the operations of the program spare the tags
of the heap. -/
inductive Uncorrupted (config : Regions) : Image → Prop where
  | start {image : Image} (created : create config = .ok image) : Uncorrupted config image
  | next {image : Image} (action : Action) (earlier : Uncorrupted config image)
      (spared : action.ofAllocator = true ∨ action.SparesTags image) :
      Uncorrupted config (action.after image)

/-- An operation that spares the tags, or is one of the allocator, keeps the heap sound. -/
theorem HeapIs.after_sparing (h : image.HeapIs blocks) (action : Action)
    (spared : action.ofAllocator = true ∨ action.SparesTags image) :
    ∃ blocks', (action.after image).HeapIs blocks' := by
  -- What a program writes differs in bytes alone, and none of them is in a tag.
  have ofWrite {address size : Nat} (program : action.ofAllocator = false)
      (written : Written image address size (action.after image)) :
      ∃ blocks', (action.after image).HeapIs blocks' := by
    refine ⟨blocks, h.of_sameBytes written.onlyBytes ?_⟩
    rcases spared with allocator | tags
    · rw [program] at allocator
      cases allocator
    · rw [← h.blocks_eq]
      exact tags
  cases action with
  | allocate size => exact h.after (.allocate size) trivial
  | release address => exact h.after (.release address) trivial
  | intern text => exact h.after (.intern text) trivial
  | write address data => exact ofWrite rfl (image.write_written address data)
  | fill address size byte => exact ofWrite rfl (image.fill_written address size byte)
  | store address value => exact ofWrite rfl (image.store_written address value)
  | writeText address text => exact ofWrite rfl (image.writeText_written address text)

namespace Uncorrupted

/-- The heap of an image whose tags are intact is sound. -/
theorem heapIs (h : Uncorrupted config image) : ∃ blocks, image.HeapIs blocks := by
  induction h with
  | start created =>
    obtain ⟨valid, rfl⟩ := of_create created
    exact ⟨_, heapIs_blank valid⟩
  | next action earlier spared ih =>
    obtain ⟨blocks, sound⟩ := ih
    exact sound.after_sparing action spared

theorem shape_eq (h : Uncorrupted config image) : image.shape = (blank config).shape := by
  induction h with
  | start created => rw [(of_create created).2]
  | next action earlier spared ih => rw [action.shape_after, ih]

theorem layoutFault?_eq_none (h : Uncorrupted config image) : layoutFault? config = none := by
  induction h with
  | start created => exact (of_create created).1
  | next action earlier spared ih => exact ih

/-- The heap has room for a tag. -/
theorem room (h : Uncorrupted config image) : image.heapBottom + tagSize ≤ image.stackBottom := by
  have shape := h.shape_eq
  rw [shape_blank] at shape
  have bottom : image.heapBottom = config.readOnlySize := congrArg Shape.heapBottom shape
  have top : image.stackBottom = config.readOnlySize + config.heapSize :=
    congrArg Shape.stackBottom shape
  obtain ⟨-, least, -, -⟩ := Image.layoutFault?_eq_none h.layoutFault?_eq_none
  simp only [leastHeap] at least
  omega

end Uncorrupted

/-! ## A heap with a gap -/

/-- The heap after three allocations, the middle one of them released. -/
def gapped : Image :=
  [.allocate 4, .allocate 3, .allocate 4, .release 28].foldl Action.after
    (blank ⟨8, 61, 4, .reclaim⟩)

theorem uncorrupted_gapped : Uncorrupted ⟨8, 61, 4, .reclaim⟩ gapped := by
  have start : Uncorrupted ⟨8, 61, 4, .reclaim⟩ (blank ⟨8, 61, 4, .reclaim⟩) := .start rfl
  have first := start.next (.allocate 4) (.inl rfl)
  have second := first.next (.allocate 3) (.inl rfl)
  have third := second.next (.allocate 4) (.inl rfl)
  simp only [gapped, List.foldl_cons, List.foldl_nil]
  exact third.next (.release 28) (.inl rfl)

example : gapped.blocks =
    [⟨8, 12, false⟩, ⟨20, 12, true⟩, ⟨32, 12, false⟩, ⟨44, 25, true⟩] := by decide +kernel

end FlatC.Image

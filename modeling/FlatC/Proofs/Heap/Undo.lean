import FlatC.Proofs.Heap.FirstFit

/-!
# A release undoes the allocation before it

An allocation may split a block, and the release of what it gave must merge the two parts again and
nothing else with them.  Which merges these are is not looked at here: the allocation adds one used
block to those of the heap, the release takes it away, and the used blocks determine all others.

* `Image.HeapIs.usedBlocks_carved` says which used blocks are left when the new one is taken away;
* `Image.HeapIs.readWord_eq_of_blocks` says that two sound heaps with the same blocks have the same
  links;
* `Image.release_undoes_allocation` is the statement about every heap whose tags are intact.
-/

namespace FlatC.Image

variable {config : Regions} {image image' : Image} {blocks front back : List Block} {block : Block}
  {size : Nat}

namespace HeapIs

/-- Without the block that an allocation takes, the used blocks are those of before. -/
theorem usedBlocks_carved (h : image.HeapIs (front ++ block :: back)) (free : block.free = true) :
    (usedBlocks (front ++ block.carved size ++ back)).filter
        (fun other => decide (other.payload ≠ block.payload)) =
      usedBlocks (front ++ block :: back) := by
  have before : usedBlocks (front ++ block :: back) = usedBlocks front ++ usedBlocks back := by
    rw [usedBlocks_append, usedBlocks_cons_of_free free]
  -- Of the blocks in the place of the free one, the used one is at its address.
  have taken : (usedBlocks (block.carved size)).filter
      (fun other => decide (other.payload ≠ block.payload)) = [] := by
    unfold Block.carved
    split <;> simp [usedBlocks, Block.taken, Block.left, Block.whole, Block.payload]
  have others : ∀ other ∈ usedBlocks front ++ usedBlocks back,
      decide (other.payload ≠ block.payload) = true := by
    intro other mem
    rw [← before] at mem
    obtain ⟨inHeap, used⟩ := mem_usedBlocks.1 mem
    apply decide_eq_true
    intro same
    exact h.payload_notMem_live (by simp) free (h.mem_live_iff.2 ⟨other, inHeap, used, same⟩)
  have kept := List.filter_eq_self.2 others
  rw [List.filter_append] at kept
  rw [usedBlocks_append, usedBlocks_append, List.filter_append, List.filter_append, taken,
    List.append_nil, before, kept]

/-- Two sound heaps with the same blocks have the same links. -/
theorem readWord_eq_of_blocks (h : image.HeapIs blocks) (h' : image'.HeapIs blocks)
    (bottom : image'.heapBottom = image.heapBottom) (mem : block ∈ blocks) :
    ∃ link, image.readWord block.address = .ok link ∧ image'.readWord block.address = .ok link := by
  have chain := h'.chain
  rw [bottom] at chain
  refine ⟨image.wordAt block.address, h.readWord_eq mem, ?_⟩
  rw [h'.readWord_eq mem, h.chain.wordAt_eq chain mem]

end HeapIs

/-- **A release undoes the allocation before it.**  In every heap with intact tags, whatever has
been allocated can be released again at once.  Then the heap has the blocks of before, each with the
link of before, as many free bytes, and the same live allocations. -/
theorem release_undoes_allocation (h : Uncorrupted config image) {size : Int} {value : Value}
    (done : allocate size image = .ok value image') :
    ∃ image₂, release value.toAddress image' = .ok () image₂ ∧ image₂.blocks = image.blocks ∧
      (∀ block ∈ image.blocks, ∃ link,
        image.readWord block.address = .ok link ∧ image₂.readWord block.address = .ok link) ∧
      image₂.freeBytes = image.freeBytes ∧ image₂.live = image.live := by
  obtain ⟨blocks, sound⟩ := h.heapIs
  rcases sound.allocate_cases size with ⟨fault, failed⟩ | ⟨front, block, back, rfl, -, fits, ran⟩
  · rw [failed] at done
    cases done
  rw [ran] at done
  cases done
  obtain ⟨free, -⟩ := Block.fits_iff.mp fits
  have sound₁ := sound.allocated fits
  have pointer : (Value.pointerTo block.payload .voidPointer).toAddress = block.payload := by
    obtain ⟨-, -, room, upper, -⟩ := sound.around
    have stack := sound.laid.stack
    have addressable := sound.laid.addressable
    refine Value.toAddress_pointer ?_ _
    simp only [Block.payload]
    omega
  have fresh : block.payload ∉ image.live := sound.payload_notMem_live (by simp) free
  have live₁ : (image.allocated block (roundToWord size.toNat)).live =
      block.payload :: image.live := List.insert_of_not_mem fresh
  rw [pointer]
  rcases sound₁.release_cases block.payload with ⟨dead, -⟩ |
    ⟨front₁, block₁, back₁, image₂, blocks₂, parts, used, same, released, only, -, sound₂, left⟩
  · rw [live₁] at dead
    exact absurd List.mem_cons_self dead
  have bytes := image.onlyBytes_carved block (roundToWord size.toNat)
  have bottom : image₂.heapBottom = image.heapBottom := only.heapBottom.trans bytes.heapBottom
  have top : image₂.stackBottom = image.stackBottom := only.stackBottom.trans bytes.stackBottom
  -- What is used after the release was used before the allocation.
  have usedSame : usedBlocks (front ++ block :: back) = usedBlocks blocks₂ := by
    rw [parts] at sound₁
    rw [left, sound₁.usedBlocks_others used, ← parts, same, sound.usedBlocks_carved free]
  obtain rfl := sound.eq_of_usedBlocks_eq sound₂ bottom top usedSame
  have blocksSame : image₂.blocks = image.blocks := by rw [sound₂.blocks_eq, sound.blocks_eq]
  refine ⟨image₂, released, blocksSame, fun other mem => ?_, ?_, ?_⟩
  · rw [sound.blocks_eq] at mem
    exact sound.readWord_eq_of_blocks sound₂ bottom mem
  · rw [freeBytes, freeBytes, blocksSame]
  · rw [only.live, live₁, List.erase_cons_head]

/-- Five bytes behind a gap, taken and given back. -/
theorem release_undoes_split_behind_gap :
    ∃ value image₁ image₂, Uncorrupted ⟨8, 61, 4, .reclaim⟩ gapped ∧
      allocate 5 gapped = .ok value image₁ ∧ release 52 image₁ = .ok () image₂ ∧
      image₁.blocks = [⟨8, 12, false⟩, ⟨20, 12, true⟩, ⟨32, 12, false⟩, ⟨44, 16, false⟩,
        ⟨60, 9, true⟩] ∧
      image₂.blocks = [⟨8, 12, false⟩, ⟨20, 12, true⟩, ⟨32, 12, false⟩, ⟨44, 25, true⟩] := by
  have taken : (match allocate 5 gapped with
      | .ok value image₁ => decide (value.toAddress = 52 ∧ image₁.blocks =
          [⟨8, 12, false⟩, ⟨20, 12, true⟩, ⟨32, 12, false⟩, ⟨44, 16, false⟩, ⟨60, 9, true⟩])
      | .error _ _ => false) = true := by
    decide +kernel
  have before : gapped.blocks =
      [⟨8, 12, false⟩, ⟨20, 12, true⟩, ⟨32, 12, false⟩, ⟨44, 25, true⟩] := by
    decide +kernel
  split at taken
  next value image₁ done =>
    obtain ⟨place, split⟩ := of_decide_eq_true taken
    obtain ⟨image₂, released, same, -⟩ := release_undoes_allocation uncorrupted_gapped done
    rw [place] at released
    exact ⟨value, image₁, image₂, uncorrupted_gapped, done, released, split, same.trans before⟩
  next => cases taken

end FlatC.Image

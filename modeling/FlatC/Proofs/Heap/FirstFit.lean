import FlatC.Proofs.Heap.UserData
import FlatC.Proofs.Image.Literal

/-!
# An allocation is a first fit

An allocator that walks over tags in memory is compared with a rule about a list of blocks.  The
request is rounded up to whole words.  Of all free blocks with room for it the lowest is taken; what
is left of that block becomes a free block if it is longer than a tag, and stays with the block
otherwise.  All other blocks are as before.

* `Block.fits_iff` and `Image.roundToWord_bounds` say what a request asks for;
* `Image.HeapIs.allocate_ok_iff` says when an allocation succeeds, whatever the size of the request;
* `Image.Took` is what it has done then, and `Image.HeapIs.took_of_allocate` says so;
* `Image.allocation_is_first_fit` is all of it about the heaps whose tags are intact.
-/

namespace FlatC

theorem Block.fits_iff {block : Block} {size : Nat} :
    block.fits size = true ↔ block.free = true ∧ size ≤ block.length - tagSize := by
  simp [Block.fits]

namespace Image

variable {config : Regions} {image image' : Image} {blocks front back : List Block}
  {block other : Block} {size : Nat}

/-! ## Requests -/

/-- A size is rounded up to the next whole number of words. -/
theorem roundToWord_bounds (size : Nat) :
    wordSize ∣ roundToWord size ∧ size ≤ roundToWord size ∧
      roundToWord size < size + wordSize := by
  refine ⟨Nat.dvd_mul_left .., ?_, ?_⟩
  · simp only [roundToWord, wordSize]
    omega
  · simp only [roundToWord, wordSize]
    omega

namespace HeapIs

/-- A request that the length field of a tag cannot hold finds no block. -/
theorem not_fits_of_large (h : image.HeapIs blocks) (large : freeFlag - 1 - tagSize < size)
    (mem : block ∈ blocks) : ¬ block.fits (roundToWord size) = true := by
  obtain ⟨front, back, rfl⟩ := List.append_of_mem mem
  obtain ⟨-, -, -, -, short⟩ := h.around
  obtain ⟨-, rounded, -⟩ := roundToWord_bounds size
  intro fits
  have room := (Block.fits_iff.mp fits).2
  omega

/-- An allocation succeeds if something is asked for and a free block has room for it. -/
theorem allocate_ok_iff (h : image.HeapIs blocks) (size : Int) :
    (∃ value image', allocate size image = .ok value image') ↔
      0 < size ∧ ∃ block ∈ blocks, block.fits (roundToWord size.toNat) = true := by
  by_cases positive : size ≤ 0
  · simp [image.allocate_of_nonpos positive, Int.not_lt.mpr positive]
  by_cases large : freeFlag - 1 - tagSize < size.toNat
  · have refused := image.allocate_of_large positive large
    have nowhere : ¬ ∃ block ∈ blocks, block.fits (roundToWord size.toNat) = true := by
      rintro ⟨block, mem, fits⟩
      exact h.not_fits_of_large large mem fits
    simp [refused, nowhere]
  have asked : 0 < size := Int.not_le.mp positive
  rw [h.allocate_eq positive large]
  cases found : blocks.find? (·.fits (roundToWord size.toNat)) with
  | none =>
    have nowhere := List.find?_eq_none.mp found
    simpa [asked] using nowhere
  | some block =>
    have mem := List.mem_of_find?_eq_some found
    have fits := List.find?_some found
    simp only [asked, true_and, EStateM.Result.ok.injEq, exists_and_left, exists_eq', and_true,
      true_iff]
    exact ⟨block, mem, fits⟩

/-! ## The block that is taken -/

/-- If no lower block has room, every block with room lies above. -/
theorem address_le_of_fits (h : image.HeapIs (front ++ block :: back))
    (skipped : ∀ other ∈ front, other.fits size = false) (mem : other ∈ front ++ block :: back)
    (fits : other.fits size = true) : block.address ≤ other.address := by
  obtain ⟨-, above, room, -, -⟩ := h.around
  rcases List.mem_append.mp mem with lower | rest
  · rw [skipped other lower] at fits
    cases fits
  rcases List.mem_cons.mp rest with rfl | higher
  · exact Nat.le_refl _
  · have := (above.bounds higher).1
    omega

end HeapIs

/-- What an allocation of `size` bytes, a whole number of words, has done with a block.  The block
was free and had room, no lower block did, and the program is given the bytes behind its tag.  They
were not live before and are now.  In the list of blocks it was replaced by a used block and a free
one with the rest, or by a used block alone, and nothing else has changed there. -/
structure Took (image : Image) (size : Nat) (block : Block) (value : Value) (image' : Image) :
    Prop where
  free : block.free = true
  room : size ≤ block.length - tagSize
  lowest : ∀ other ∈ image.blocks, other.free = true → size ≤ other.length - tagSize →
    block.address ≤ other.address
  pointer : value.type = .voidPointer ∧ value.address = none ∧ value.toAddress = block.payload
  fresh : block.payload ∉ image.live
  live : ∀ address, address ∈ image'.live ↔ address = block.payload ∨ address ∈ image.live
  replaced : ∃ front back, image.blocks = front ++ block :: back ∧
    image'.blocks = front ++
      (if tagSize < block.length - (size + tagSize) then
        [⟨block.address, size + tagSize, false⟩,
          ⟨block.address + (size + tagSize), block.length - (size + tagSize), true⟩]
      else [⟨block.address, block.length, false⟩]) ++ back

/-- An allocation that succeeds has taken a block. -/
theorem HeapIs.took_of_allocate (h : image.HeapIs blocks) {size : Int} {value : Value}
    (done : allocate size image = .ok value image') :
    ∃ block, image.Took (roundToWord size.toNat) block value image' := by
  rcases h.allocate_cases size with ⟨fault, failed⟩ | ⟨front, block, back, rfl, skipped, fits, ran⟩
  · rw [failed] at done
    cases done
  rw [ran] at done
  cases done
  obtain ⟨free, room⟩ := Block.fits_iff.mp fits
  have sound := h.allocated fits
  obtain ⟨-, -, own, upper, -⟩ := h.around
  have stack := h.laid.stack
  have addressable := h.laid.addressable
  have fresh : block.payload ∉ image.live := h.payload_notMem_live (by simp) free
  refine ⟨block, free, room, ?_, ⟨rfl, rfl, ?_⟩, fresh, ?_, front, back, h.blocks_eq, ?_⟩
  · intro other mem free' room'
    rw [h.blocks_eq] at mem
    exact h.address_le_of_fits skipped mem (Block.fits_iff.mpr ⟨free', room'⟩)
  · apply Value.toAddress_pointer
    simp only [Block.payload]
    omega
  · intro address
    show address ∈ image.live.insert block.payload ↔ _
    simp
  · rw [sound.blocks_eq]
    rfl

/-! ## Every heap with intact tags -/

/-- **An allocation is a first fit.**  In every heap with intact tags and for every size, an
allocation succeeds if and only if the size is positive and some free block has room for it, rounded
up to whole words.  Then it has taken the lowest such block.  If it fails, the image is as
before. -/
theorem allocation_is_first_fit (h : Uncorrupted config image) (size : Int) :
    ∃ rounded : Nat, wordSize ∣ rounded ∧ size.toNat ≤ rounded ∧
      rounded < size.toNat + wordSize ∧
      ((∃ value image', allocate size image = .ok value image') ↔
        0 < size ∧ ∃ block ∈ image.blocks, block.free = true ∧ rounded ≤ block.length - tagSize) ∧
      (∀ value image', allocate size image = .ok value image' →
        ∃ block, image.Took rounded block value image') ∧
      ∀ fault image', allocate size image = .error fault image' → image' = image := by
  obtain ⟨blocks, sound⟩ := h.heapIs
  obtain ⟨multiple, enough, least⟩ := roundToWord_bounds size.toNat
  refine ⟨roundToWord size.toNat, multiple, enough, least, ?_, ?_, ?_⟩
  · rw [sound.allocate_ok_iff, sound.blocks_eq]
    simp only [Block.fits_iff]
  · intro value image' done
    exact sound.took_of_allocate done
  · intro fault image' failed
    rcases sound.allocate_cases size with ⟨fault', failed'⟩ | ⟨_, _, _, -, -, -, done⟩
    · rw [failed'] at failed
      cases failed
      rfl
    · rw [done] at failed
      cases failed

/-- Five bytes do not fit the gap of four; the block behind it is split with one byte to spare. -/
theorem five_bytes_skip_the_gap :
    ∃ value image' block, allocate 5 gapped = .ok value image' ∧
      gapped.Took 8 block value image' ∧ image'.isLive 52 = true ∧
      image'.blocks = [⟨8, 12, false⟩, ⟨20, 12, true⟩, ⟨32, 12, false⟩, ⟨44, 16, false⟩,
        ⟨60, 9, true⟩] := by
  obtain ⟨rounded, multiple, enough, least, succeeds, took, -⟩ :=
    allocation_is_first_fit uncorrupted_gapped 5
  obtain rfl : rounded = 8 := by
    clear succeeds took
    simp only [wordSize] at multiple least
    omega
  obtain ⟨value, image', done⟩ :=
    succeeds.mpr ⟨by decide, ⟨44, 25, true⟩, by decide +kernel, rfl, by decide⟩
  obtain ⟨block, taken⟩ := took value image' done
  have left : image' = (allocate 5).after gapped := by rw [Store.after, done]
  exact ⟨value, image', block, done, taken, by rw [left]; decide +kernel,
    by rw [left]; decide +kernel⟩

end Image

end FlatC

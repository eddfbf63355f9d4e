import FlatC.Library.Call
import FlatC.Proofs.Heap.FirstFit
import FlatC.Proofs.Image.Fill
import FlatC.Proofs.Value.Cast
import FlatC.Proofs.Value.TwosComplement
import Mathlib.Data.Int.Order.Basic

/-!
# Zeroed allocations

A zeroed allocation multiplies a count by a size, allocates as many bytes and fills them.  The
product of two integers is not reduced to 32 bits before the allocator sees it, so it never wraps
around.  What is filled lies behind the tag of the block that was taken, and so the heap is the one
that the allocation alone would have left, whatever the block held before.

The allocator refuses a size that is not positive.  It is only shown the product, which is positive
if both factors are negative.

* `Image.HeapIs.allocateZeroed_cases` says what a zeroed allocation comes to;
* `Image.HeapIs.zeroed_allocated` says that the zeros meet no tag;
* `LibraryFunction.calloc_zeroes_allocation_of_product` is the statement about calls.
-/

namespace FlatC

/-- An integer stays the same when it is converted to `int`. -/
theorem Value.Integer.implicit_int {v : Value} {n : Int} (h : v.Integer n) :
    ∃ r, v.implicit .int = .ok r ∧ r.Integer n := by
  have stores : v.type.storesWhole = true := by
    obtain int | char := h.typed
    · rw [int]
      rfl
    · rw [char]
      rfl
  have converts : v.type.convertsTo .int = true := by
    obtain int | char := h.typed
    · rw [int]
      rfl
    · rw [char]
      rfl
  have spans : CType.int.Spans n := ⟨_, rfl, h.bounds⟩
  have stores' : CType.int.storesWhole = true := rfl
  have whole := Value.castTo_isWhole stores stores' h.isWhole false
  rw [CType.residue_eq rfl spans] at whole
  refine ⟨v.castTo .int false, ?_, .inl rfl, inRange_castTo .., whole⟩
  rw [implicit, converts, Bool.true_or, if_pos rfl]

namespace Image

variable {image : Image} {blocks front back : List Block} {block : Block} {size count : Nat}

namespace HeapIs

/-- The bytes behind the tag of a block that is taken belong to the program. -/
theorem owned_allocated (h : image.HeapIs (front ++ block :: back)) (fits : block.fits size = true)
    (within : count ≤ size) : (image.allocated block size).Owned block.payload count := by
  have sound := h.allocated fits
  obtain ⟨free, room⟩ := Block.fits_iff.mp fits
  obtain ⟨-, -, own, -, -⟩ := h.around
  refine .inr ?_
  rw [sound.blocks_eq]
  have live : block.payload ∈ (image.allocated block size).live := by
    show block.payload ∈ image.live.insert block.payload
    simp
  simp only [Block.stop] at own
  by_cases split : block.splits size
  · refine ⟨block.taken size, ?_, live, Nat.le_refl _, ?_⟩
    · simp [Block.carved, split]
    · simp only [Block.payload, Block.taken, Block.stop]
      omega
  · refine ⟨block.whole, ?_, live, Nat.le_refl _, ?_⟩
    · simp [Block.carved, split]
    · simp only [Block.payload, Block.whole, Block.stop]
      omega

/-- Zeros behind the tag of the block that was taken leave the heap as it is. -/
theorem zeroed_allocated (h : image.HeapIs (front ++ block :: back))
    (fits : block.fits size = true) (within : count ≤ size) :
    ((image.allocated block size).zeroed block.payload count).HeapIs
      (front ++ block.carved size ++ back) := by
  have sound := h.allocated fits
  have owned := h.owned_allocated fits within
  exact sound.of_sameBytes (onlyBytes_filled ..) fun _ mem =>
    sameBytes_filled _ 0 (sound.apart_of_owned owned mem)

/-- What a block with room is given away for can be written. -/
theorem checkWritable_allocated (h : image.HeapIs (front ++ block :: back))
    (fits : block.fits size = true) (within : count ≤ size) :
    (image.allocated block size).checkWritable block.payload count = .ok () := by
  obtain ⟨-, room⟩ := Block.fits_iff.mp fits
  obtain ⟨below, -, own, upper, -⟩ := h.around
  have mem : block ∈ front ++ [block] := by simp
  have lower := (below.bounds mem).1
  have stack := h.laid.stack
  have only := image.onlyBytes_carved block size
  have bottom : (image.allocated block size).heapBottom = image.heapBottom := only.heapBottom
  have total : (image.allocated block size).size = image.size := only.size
  rw [checkWritable_iff, bottom, total]
  simp only [Block.stop] at own upper
  simp only [Block.payload, tagSize] at own room ⊢
  omega

theorem toAddress_payload (h : image.HeapIs (front ++ block :: back)) :
    (Value.pointerTo block.payload .voidPointer).toAddress = block.payload := by
  obtain ⟨-, -, own, upper, -⟩ := h.around
  have stack := h.laid.stack
  have addressable := h.laid.addressable
  apply Value.toAddress_pointerTo
  simp only [Block.payload]
  omega

/-- What an allocation gives is filled with as many zeros as were asked for. -/
theorem allocateZeroed_eq (h : image.HeapIs (front ++ block :: back)) {size : Int}
    (fits : block.fits (roundToWord size.toNat) = true)
    (done : allocate size image = .ok (.pointerTo block.payload .voidPointer)
      (image.allocated block (roundToWord size.toNat))) :
    LibraryFunction.allocateZeroed size image = .ok (.pointerTo block.payload .voidPointer)
      ((image.allocated block (roundToWord size.toNat)).zeroed block.payload size.toNat) := by
  have enough : size.toNat ≤ roundToWord size.toNat := (roundToWord_bounds size.toNat).2.1
  have filled := fill_zero (h.checkWritable_allocated fits enough)
  refine (Step.bind_of_ok done).trans ?_
  rw [h.toAddress_payload]
  exact Step.bind_of_ok filled

/-- A zeroed allocation fails where an allocation does, and otherwise takes the same block and fills
what was asked for. -/
theorem allocateZeroed_cases (h : image.HeapIs blocks) (size : Int) :
    (∃ fault, allocate size image = .error fault image ∧
        LibraryFunction.allocateZeroed size image = .error fault image) ∨
      ∃ front block back, blocks = front ++ block :: back ∧
        block.fits (roundToWord size.toNat) = true ∧
        allocate size image = .ok (.pointerTo block.payload .voidPointer)
          (image.allocated block (roundToWord size.toNat)) ∧
        LibraryFunction.allocateZeroed size image = .ok (.pointerTo block.payload .voidPointer)
          ((image.allocated block (roundToWord size.toNat)).zeroed block.payload size.toNat) := by
  rcases h.allocate_cases size with ⟨fault, failed⟩ | ⟨front, block, back, rfl, -, fits, done⟩
  · exact .inl ⟨fault, failed, Step.bind_of_error failed⟩
  · exact .inr ⟨front, block, back, rfl, fits, done, h.allocateZeroed_eq fits done⟩

/-- Beside the block that is taken, a zeroed allocation changes tags alone. -/
theorem allocateZeroed_foreign (h : image.HeapIs (front ++ block :: back))
    (fits : block.fits size = true) (within : count ≤ size) {i : Nat}
    (foreign : image.Foreign (front ++ block :: back) i) :
    ((image.allocated block size).zeroed block.payload count).bytes[i]? = image.bytes[i]? := by
  obtain ⟨free, room⟩ := Block.fits_iff.mp fits
  obtain ⟨-, -, own, -, -⟩ := h.around
  have outside := h.outside_of_foreign foreign (by simp) free
  have allocated : (image.allocated block size).bytes[i]? = image.bytes[i]? := by
    refine h.allocated_getElem? outside ?_
    exact fun other mem => h.untagged_of_foreign foreign (by simp [mem])
  rw [getElem?_zeroed_of_outside, allocated]
  simp only [Block.stop] at own outside
  simp only [Block.payload, tagSize] at own room ⊢
  omega

end HeapIs

end Image

namespace LibraryFunction

variable {config : Regions} {machine : Machine} {v w : Value} {n m : Int}

/-- A call of `malloc` allocates the number that it is given. -/
theorem call_malloc (h : v.Integer n) (machine : Machine) :
    malloc.call [v] machine = Exec.onImage (Image.allocate n) machine := by
  obtain ⟨r, converted, given⟩ := h.implicit_int
  have arguments : malloc.convertArguments [v] = .ok [r] := by
    simp only [convertArguments, convertAll, params, converted]
    rfl
  rw [← given.toInt32_eq]
  simp only [call, arguments]
  rfl

/-- A call of `calloc` allocates the product of its numbers, and fills it with zeros. -/
theorem call_calloc (hn : v.Integer n) (hm : w.Integer m) (machine : Machine) :
    calloc.call [v, w] machine = Exec.onImage (allocateZeroed (n * m)) machine := by
  obtain ⟨r, converted, count⟩ := hn.implicit_int
  obtain ⟨r', converted', size⟩ := hm.implicit_int
  have arguments : calloc.convertArguments [v, w] = .ok [r, r'] := by
    simp only [convertArguments, convertAll, params, converted, converted']
    rfl
  rw [← count.toInt32_eq, ← size.toInt32_eq]
  simp only [call, arguments]
  rfl

/-- **`calloc` zeroes what `malloc` would give for the product.**  In every heap with intact tags and
for every two integers `n` and `m`, a call of `calloc` is an allocation of the integer `n * m`,
which is never reduced to 32 bits.  It fails if the allocation does, and then changes nothing.  That
is so if `n` or `m` is not positive, unless both are negative.  Otherwise it gives the same pointer,
leaves the same blocks and the same live allocations, and `n * m` zeros at the pointer, whatever was
there before.  The bytes outside the heap and those of the allocations that were live before are as
they were. -/
theorem calloc_zeroes_allocation_of_product (h : Image.Uncorrupted config machine.image)
    (hn : v.Integer n) (hm : w.Integer m) :
    let called := calloc.call [v, w] machine
    let plain := Exec.onImage (Image.allocate (n * m)) machine
    (∀ u : Value, u.Integer (n * m) → malloc.call [u] machine = plain) ∧
    (n ≤ 0 ∨ m ≤ 0 → ¬ (n < 0 ∧ m < 0) →
      called = .error (.memory (.invalidAllocationSize (n * m))) machine) ∧
    ((∃ value machine', called = .ok value machine') ↔
      ∃ value machine', plain = .ok value machine') ∧
    (∀ fault machine', called = .error fault machine' →
      machine' = machine ∧ plain = .error fault machine) ∧
    ∀ value machine', called = .ok value machine' → ∃ image,
      plain = .ok value { machine with image := image } ∧
      machine' = { machine with image := machine'.image } ∧
      machine'.image.blocks = image.blocks ∧ machine'.image.live = image.live ∧
      machine'.image.bytesAt value.toAddress (n * m).toNat = List.replicate (n * m).toNat 0 ∧
      ∀ i, (i < machine.image.heapBottom ∨ machine.image.stackBottom ≤ i ∨
          ∃ block ∈ machine.image.blocks, block.payload ∈ machine.image.live ∧
            block.payload ≤ i ∧ i < block.stop) →
        machine'.image.bytes[i]? = machine.image.bytes[i]? := by
  intro called plain
  obtain ⟨blocks, sound⟩ := h.heapIs
  have product : called = Exec.onImage (allocateZeroed (n * m)) machine := call_calloc hn hm machine
  refine ⟨fun u hu => call_malloc hu machine, ?_, ?_⟩
  · intro notPositive notBoth
    have nonpos : n * m ≤ 0 := by
      rw [Int.mul_nonpos_iff]
      omega
    have refused : allocateZeroed (n * m) machine.image = .error _ machine.image :=
      Step.bind_of_error (machine.image.allocate_of_nonpos nonpos)
    rw [product, Exec.onImage_of_error refused]
  rcases sound.allocateZeroed_cases (n * m) with
    ⟨fault, failed, failed'⟩ | ⟨front, block, back, rfl, fits, done, done'⟩
  · have first : plain = .error fault machine := Exec.onImage_of_error failed
    have second : called = .error fault machine := by
      rw [product, Exec.onImage_of_error failed']
    rw [first, second]
    refine ⟨by simp, ?_, ?_⟩
    · rintro _ _ ⟨⟩
      exact ⟨rfl, rfl⟩
    · rintro _ _ ⟨⟩
  · have enough := (Image.roundToWord_bounds (n * m).toNat).2.1
    generalize Image.roundToWord (n * m).toNat = size at fits done done' enough
    have first : plain = .ok _ _ := Exec.onImage_of_ok done
    rw [first, product, Exec.onImage_of_ok done']
    refine ⟨by simp, ?_, ?_⟩
    · rintro _ _ ⟨⟩
    · rintro _ _ ⟨⟩
      have writable := sound.checkWritable_allocated fits enough
      have inside := (Image.checkWritable_iff.mp writable).2.2
      refine ⟨_, rfl, rfl, ?_, rfl, ?_, ?_⟩
      · rw [(sound.zeroed_allocated fits enough).blocks_eq, (sound.allocated fits).blocks_eq]
      · rw [sound.toAddress_payload]
        exact Image.bytesAt_zeroed inside
      · intro i foreign
        rw [sound.blocks_eq] at foreign
        refine sound.allocateZeroed_foreign fits enough ?_
        rcases foreign with below | above | ⟨other, mem, live, within⟩
        · exact .inl below
        · exact .inr (.inl above)
        · exact .inr (.inr ⟨other, sound.mem_usedBlocks_of_live mem live, within⟩)

/-- A machine whose heap has a gap with old bytes in it. -/
def littered : Machine :=
  .start ((Image.Action.write 28 [1, 2, 3, 4]).after Image.gapped) (.start [])

theorem uncorrupted_littered : Image.Uncorrupted ⟨8, 61, 4, .reclaim⟩ littered.image := by
  have tags : (Image.Action.write 28 [1, 2, 3, 4]).SparesTags Image.gapped := by
    have apart : ∀ block ∈ Image.gapped.blocks,
        block.address + tagSize ≤ 28 ∨ 28 + 4 ≤ block.address := by decide +kernel
    exact fun block mem =>
      (Image.write_written Image.gapped 28 [1, 2, 3, 4]).sameBytes (apart block mem)
  rw [littered, Machine.image_start]
  exact Image.uncorrupted_gapped.next _ (.inr tags)

/-- The gap is given away again, with zeros for the old bytes. -/
theorem littered_gap_is_zeroed :
    Image.Uncorrupted ⟨8, 61, 4, .reclaim⟩ littered.image ∧
      littered.image.bytesAt 28 4 = [1, 2, 3, 4] ∧
      ∃ value machine', calloc.call [.ofInt 2, .ofInt 2] littered = .ok value machine' ∧
        value.toAddress = 28 ∧ machine'.image.bytesAt 28 4 = [0, 0, 0, 0] := by
  have intact := uncorrupted_littered
  have two : (Value.ofInt 2).Integer 2 := Value.integer_int (by decide) (by decide)
  -- The gap is the first block with room for four bytes.
  obtain ⟨blocks, sound⟩ := intact.heapIs
  obtain rfl : [⟨8, 12, false⟩, ⟨20, 12, true⟩, ⟨32, 12, false⟩, ⟨44, 25, true⟩] = blocks := by
    rw [← sound.blocks_eq]
    decide +kernel
  have positive : ¬ (2 * 2 : Int) ≤ 0 := by decide
  have taken := Exec.onImage_of_ok (sound.allocate_eq positive (by decide))
  obtain ⟨-, -, succeeds, -, done⟩ := calloc_zeroes_allocation_of_product intact two two
  obtain ⟨value, machine', run⟩ := succeeds.mpr ⟨_, _, taken⟩
  obtain ⟨image, plain, -, -, -, zeros, -⟩ := done value machine' run
  have pointer : Value.pointerTo (Block.payload ⟨20, 12, true⟩) .voidPointer = value :=
    (EStateM.Result.ok.inj (taken.symm.trans plain)).1
  have place : value.toAddress = 28 := by
    rw [← pointer]
    exact Value.toAddress_pointerTo (by decide)
  rw [place] at zeros
  exact ⟨intact, by decide +kernel, value, machine', run, place, zeros⟩

/-- A machine whose heap is one free block. -/
def bare : Machine :=
  .start (.blank ⟨16, 64, 16, .reclaim⟩) (.start [])

/-- Minus one element of minus one byte is one byte, and is given away. -/
theorem calloc_gives_product_of_two_negatives :
    Image.Uncorrupted ⟨16, 64, 16, .reclaim⟩ bare.image ∧ (-1 : Int) ≤ 0 ∧
      ∃ value machine', calloc.call [.ofInt (-1), .ofInt (-1)] bare = .ok value machine' ∧
        bare.image.live = [] ∧ machine'.image.live = [24] := by
  have image : bare.image = .blank ⟨16, 64, 16, .reclaim⟩ := Machine.image_start ..
  have intact : Image.Uncorrupted ⟨16, 64, 16, .reclaim⟩ bare.image := by
    rw [image]
    exact .start rfl
  have minus : (Value.ofInt (-1)).Integer (-1) := Value.integer_int (by decide) (by decide)
  have sound : bare.image.HeapIs ([] ++ ⟨16, 64, true⟩ :: []) := by
    rw [image]
    exact Image.heapIs_blank rfl
  have positive : ¬ (-1 * -1 : Int) ≤ 0 := by decide
  have taken := sound.allocate_eq positive (by decide)
  have zeroed := sound.allocateZeroed_eq rfl taken
  have called := call_calloc minus minus bare
  rw [Exec.onImage_of_ok zeroed] at called
  exact ⟨intact, by decide, _, _, called, by decide +kernel, by decide +kernel⟩

end LibraryFunction

end FlatC

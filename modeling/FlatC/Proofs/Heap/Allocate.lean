import FlatC.Proofs.Heap.Edit
import FlatC.Proofs.Step

/-!
# Allocation keeps the heap sound

An allocation replaces one free block of the list by what it is carved into.  It fails without a
trace if no block has room.

* `Block.carved` is what becomes of the block, as blocks, and `Image.carved` as an image;
* `HeapIs.carve_eq` says that carving goes through in a sound heap;
* `HeapIs.allocate_cases` is everything that an allocation can do to a sound heap.
-/

namespace FlatC

/-! ## What a block is carved into -/

/-- The part of a free block that an allocation of `size` bytes uses, if it does not use it all. -/
def Block.taken (block : Block) (size : Nat) : Block :=
  ⟨block.address, size + tagSize, false⟩

/-- The part of a free block that an allocation of `size` bytes leaves. -/
def Block.left (block : Block) (size : Nat) : Block :=
  ⟨block.address + (size + tagSize), block.length - (size + tagSize), true⟩

/-- The block, used as a whole. -/
def Block.whole (block : Block) : Block :=
  ⟨block.address, block.length, false⟩

/-- Whether an allocation of `size` bytes leaves enough of the block for another one. -/
def Block.splits (block : Block) (size : Nat) : Prop :=
  tagSize < block.length - (size + tagSize)

instance (block : Block) (size : Nat) : Decidable (block.splits size) :=
  inferInstanceAs (Decidable (_ < _))

/-- The blocks that stand in the place of a free block after an allocation of `size` bytes. -/
def Block.carved (block : Block) (size : Nat) : List Block :=
  if block.splits size then [block.taken size, block.left size] else [block.whole]

theorem Block.usedPayloads_carved (block : Block) (size : Nat) :
    usedPayloads (block.carved size) = [block.payload] := by
  unfold Block.carved
  split <;> simp [taken, left, whole, payload]

namespace Image

variable {image : Image} {front back blocks : List Block} {block : Block} {size : Nat}

/-- The image in which a free block has been split, but the block behind it not yet linked. -/
def halved (image : Image) (block : Block) (size : Nat) : Image :=
  ((image.marked (block.taken size)).putWord (block.left size).address block.address).marked
    (block.left size)

/-- The image in which a free block has been carved for an allocation of `size` bytes. -/
def carved (image : Image) (block : Block) (size : Nat) : Image :=
  if block.splits size then
    (image.halved block size).linked (block.left size).stop (block.left size).address
  else image.marked block.whole

theorem onlyBytes_halved (image : Image) (block : Block) (size : Nat) :
    image.OnlyBytes (image.halved block size) :=
  ((image.onlyBytes_marked _).trans (onlyBytes_putWord ..)).trans (onlyBytes_marked ..)

theorem sameBytes_halved (image : Image) {start stop : Nat}
    (h : stop ≤ block.address ∨ (block.left size).address + tagSize ≤ start) :
    image.SameBytes (image.halved block size) start stop := by
  simp only [Block.left, tagSize] at h
  have first : image.SameBytes (image.marked (block.taken size)) start stop := by
    refine image.sameBytes_marked _ ?_
    simp only [Block.taken, tagSize, wordSize]
    omega
  refine (first.trans (sameBytes_putWord _ _ ?_)).trans (sameBytes_marked _ _ ?_)
  · simp only [Block.left, tagSize, wordSize]
    omega
  · simp only [Block.left, tagSize, wordSize]
    omega

theorem onlyBytes_carved (image : Image) (block : Block) (size : Nat) :
    image.OnlyBytes (image.carved block size) := by
  unfold carved
  split
  · exact (image.onlyBytes_halved block size).trans (onlyBytes_linked ..)
  · exact image.onlyBytes_marked _

namespace HeapIs

/-- What is known about one block of a heap and its surroundings. -/
theorem around (h : image.HeapIs (front ++ block :: back)) :
    image.Chain image.heapBottom image.heapBottom (front ++ [block]) block.stop ∧
      image.Chain block.address block.stop back image.stackBottom ∧
      block.address + tagSize ≤ block.stop ∧ block.stop ≤ image.stackBottom ∧
      block.length < freeFlag := by
  have whole : image.Chain image.heapBottom image.heapBottom ((front ++ [block]) ++ back)
      image.stackBottom := by simpa using h.chain
  obtain ⟨middle, below, above⟩ := chain_append.1 whole
  obtain ⟨start, -, rfl, tagged, rfl⟩ := chain_append.1 below
  rw [lastTag_append_singleton] at above
  exact ⟨below, above, tagged.lt_stop, above.start_le_stop, tagged.short⟩

theorem carve_eq (h : image.HeapIs (front ++ block :: back)) :
    carve block size image = .ok () (image.carved block size) := by
  obtain ⟨-, above, room, upper, short⟩ := h.around
  have stack := h.laid.stack
  have inside : block.address + tagSize ≤ image.size := by omega
  unfold carve carved
  by_cases split : block.splits size
  · have longer : tagSize < block.length - (size + tagSize) := split
    have stop : (block.left size).stop = block.stop := by
      simp only [Block.stop, Block.left]
      omega
    have fits : (block.left size).address + tagSize ≤ image.size := by
      simp only [Block.stop] at upper
      simp only [Block.left]
      omega
    have fits' : (block.left size).address + wordSize ≤ (image.marked (block.taken size)).size := by
      rw [(image.onlyBytes_marked _).size]
      simp only [tagSize, wordSize] at fits ⊢
      omega
    -- The four writes, each on the image that the ones before it leave.
    have first := image.markBlock_eq (block.taken size) (by simp only [Block.taken]; omega) inside
    have second := writeWord_eq _ block.address fits'
    have third := markBlock_eq ((image.marked (block.taken size)).putWord
      (block.left size).address block.address) (block.left size) (by simp only [Block.left]; omega)
      (by rw [(onlyBytes_putWord ..).size, (image.onlyBytes_marked _).size]; exact fits)
    rw [if_pos split]
    simp only [if_pos longer]
    refine (Step.bind_of_ok first).trans ((Step.bind_of_ok second).trans
      ((Step.bind_of_ok third).trans (linkBack_eq (image.halved block size) ?_)))
    rw [(image.onlyBytes_halved block size).stackBottom, (image.onlyBytes_halved block size).size]
    intro more
    have behind : block.stop < image.stackBottom := by rwa [← stop]
    have := above.room behind
    rw [← stop] at this
    simp only [Block.left, Block.stop, tagSize, wordSize] at this ⊢
    omega
  · have shorter : ¬ tagSize < block.length - (size + tagSize) := split
    rw [if_neg split]
    simp only [if_neg shorter]
    exact image.markBlock_eq block.whole short inside

theorem chain_carved (h : image.HeapIs (front ++ block :: back))
    (fits : size + tagSize ≤ block.length) :
    (image.carved block size).Chain image.heapBottom image.heapBottom
      (front ++ block.carved size ++ back) image.stackBottom := by
  obtain ⟨below, above, room, upper, short⟩ := h.around
  have stack := h.laid.stack
  have inside : block.address + tagSize ≤ image.size := by omega
  have addressable : block.address + block.length < wordRange := by
    have := h.laid.addressable
    simp only [Block.stop] at upper
    omega
  unfold carved Block.carved
  by_cases split : block.splits size
  · have longer : tagSize < block.length - (size + tagSize) := split
    have stop : (block.left size).stop = block.stop := by
      simp only [Block.stop, Block.left]
      omega
    have fits : (block.left size).address + tagSize ≤ image.size := by
      simp only [Block.stop] at upper
      simp only [Block.left]
      omega
    have taken : (image.marked (block.taken size)).Chain image.heapBottom image.heapBottom
        (front ++ [block.taken size]) (block.left size).address :=
      below.mark rfl (Nat.le_add_left ..) (by simp only [Block.taken]; omega) inside
    have both : (image.halved block size).Chain image.heapBottom image.heapBottom
        (front ++ [block.taken size] ++ [block.left size]) (block.left size).stop := by
      have extended := taken.extend (Nat.le_of_lt longer) (by simp only [Block.left]; omega)
        (by rw [(image.onlyBytes_marked _).size]; exact fits)
        (by rw [lastTag_append_singleton]; simp only [Block.taken]; omega)
      rwa [lastTag_append_singleton] at extended
    have higher : (image.halved block size).Chain block.address (block.left size).stop back
        (image.halved block size).stackBottom := by
      rw [stop, (image.onlyBytes_halved block size).stackBottom]
      refine above.above (image.sameBytes_halved (.inr ?_))
      simp only [Block.stop, Block.left]
      omega
    have joined := both.link higher
      (by rw [(image.onlyBytes_halved block size).stackBottom,
        (image.onlyBytes_halved block size).size]; exact stack)
      (by simp only [Block.left]; omega)
    rw [(image.onlyBytes_halved block size).stackBottom] at joined
    rw [if_pos split, if_pos split]
    simpa using joined
  · rw [if_neg split, if_neg split]
    have whole := below.mark (show block.whole.address = block.address from rfl)
      (Nat.le_trans (Nat.le_add_left ..) fits) short inside
    refine chain_append.2 ⟨block.stop, whole, ?_⟩
    rw [lastTag_append_singleton]
    exact above.above (image.sameBytes_marked _ (.inr room))

/-! ## The free blocks stay apart -/

theorem coalesced_carved (h : image.HeapIs (front ++ block :: back)) (free : block.free = true) :
    (front ++ block.carved size ++ back).IsChain Apart := by
  obtain ⟨below, above⟩ := List.isChain_split.1 h.coalesced
  have used : ∀ other : Block, other.free = false → (front ++ [other]).IsChain Apart := by
    intro other used
    refine below.left_of_append.append (.singleton _) ?_
    rintro a - b mem ⟨-, hb⟩
    obtain rfl : other = b := by simpa using mem
    rw [used] at hb
    cases hb
  -- Behind the free block no other free block stands.
  have behind : ∀ other : Block, (other :: back).IsChain Apart := by
    intro other
    refine List.isChain_cons.2 ⟨fun next mem => ?_, above.tail⟩
    rintro ⟨-, hn⟩
    exact above.rel_head? mem ⟨free, hn⟩
  unfold Block.carved
  split
  · simp only [List.append_assoc, List.cons_append, List.nil_append]
    refine List.isChain_append_cons_cons.2 ⟨used _ rfl, ?_, behind _⟩
    rintro ⟨taken, -⟩
    cases taken
  · simp only [List.append_assoc, List.cons_append, List.nil_append]
    exact List.isChain_split.2 ⟨used _ rfl, behind _⟩

end HeapIs

/-! ## Allocation -/

/-- The image in which a free block has been allocated for `size` bytes. -/
def allocated (image : Image) (block : Block) (size : Nat) : Image :=
  { image.carved block size with live := image.live.insert block.payload }

/-- Nothing and less than nothing cannot be allocated. -/
theorem allocate_of_nonpos (image : Image) {size : Int} (h : size ≤ 0) :
    allocate size image = .error (.memory (.invalidAllocationSize size)) image := by
  unfold allocate
  rw [if_pos h]
  rfl

/-- Nor can more than the length field of a tag can hold. -/
theorem allocate_of_large (image : Image) {size : Int} (positive : ¬ size ≤ 0)
    (large : freeFlag - 1 - tagSize < size.toNat) :
    allocate size image =
      .error (.memory (.outOfMemory (min size.toNat (wordRange - 1)))) image := by
  unfold allocate
  simp only [if_neg positive, if_pos large]
  rfl

namespace HeapIs

theorem allocated (h : image.HeapIs (front ++ block :: back)) (fits : block.fits size = true) :
    (image.allocated block size).HeapIs (front ++ block.carved size ++ back) := by
  obtain ⟨free, room⟩ : block.free = true ∧ size + tagSize ≤ block.length := by
    obtain ⟨-, -, own, -, -⟩ := h.around
    simp only [Block.fits, Bool.and_eq_true, decide_eq_true_eq] at fits
    simp only [Block.stop] at own
    exact ⟨fits.1, by omega⟩
  have only := image.onlyBytes_carved block size
  have fresh : block.payload ∉ image.live := h.payload_notMem_live (by simp) free
  refine ⟨?_, ?_, h.coalesced_carved free, ?_⟩
  · obtain ⟨h₁, h₂, h₃, h₄, h₅⟩ := h.laid.of_onlyBytes only
    exact ⟨h₁, h₂, h₃, h₄, h₅⟩
  · have chain := h.chain_carved room
    rw [← only.heapBottom, ← only.stackBottom] at chain
    exact chain.congr fun _ _ => SameBytes.refl _ _ _
  · have before : image.live.Perm (usedPayloads front ++ usedPayloads back) := by
      simpa [free] using h.live
    have after : (block.payload :: image.live).Perm
        (usedPayloads front ++ block.payload :: usedPayloads back) :=
      (before.cons _).trans List.perm_middle.symm
    simpa [Image.allocated, fresh, Block.usedPayloads_carved] using after

theorem firstFit_eq (h : image.HeapIs blocks) (size : Nat) :
    image.firstFit size =
      match blocks.find? (·.fits size) with
      | some block => .ok block
      | none => .error (.memory (.outOfMemory size)) := by
  cases found : blocks.find? (·.fits size) <;> simp [firstFit, h.walk_eq, found]

/-- An allocation in a sound heap finds the first block with room and allocates it. -/
theorem allocate_eq (h : image.HeapIs blocks) {size : Int} (positive : ¬ size ≤ 0)
    (small : ¬ freeFlag - 1 - tagSize < size.toNat) :
    allocate size image =
      match blocks.find? (·.fits (roundToWord size.toNat)) with
      | some block =>
        .ok (.pointerTo block.payload .voidPointer) (image.allocated block (roundToWord size.toNat))
      | none => .error (.memory (.outOfMemory (roundToWord size.toNat))) image := by
  unfold allocate
  simp only [if_neg positive, if_neg small]
  cases found : blocks.find? (·.fits (roundToWord size.toNat)) with
  | none =>
    have search : query (·.firstFit (roundToWord size.toNat)) image =
        .error (.memory (.outOfMemory (roundToWord size.toNat))) image := by
      simp only [query, h.firstFit_eq, found]
    exact Step.bind_of_error search
  | some block =>
    have search : query (·.firstFit (roundToWord size.toNat)) image = .ok block image := by
      simp only [query, h.firstFit_eq, found]
    obtain ⟨-, front, back, rfl, -⟩ := List.find?_eq_some_iff_append.1 found
    have recorded : addLive block.payload (image.carved block (roundToWord size.toNat)) =
        .ok () (image.allocated block (roundToWord size.toNat)) := by
      rw [Image.allocated, ← (image.onlyBytes_carved block (roundToWord size.toNat)).live]
      rfl
    exact (Step.bind_of_ok search).trans
      ((Step.bind_of_ok h.carve_eq).trans (Step.bind_of_ok recorded))

/-- Everything that an allocation can do to a sound heap: fail and change nothing, or replace the
first free block with room for it. -/
theorem allocate_cases (h : image.HeapIs blocks) (size : Int) :
    (∃ fault, allocate size image = .error fault image) ∨
      ∃ front block back, blocks = front ++ block :: back ∧
        (∀ other ∈ front, other.fits (roundToWord size.toNat) = false) ∧
        block.fits (roundToWord size.toNat) = true ∧
        allocate size image = .ok (.pointerTo block.payload .voidPointer)
          (image.allocated block (roundToWord size.toNat)) := by
  by_cases positive : size ≤ 0
  · exact .inl ⟨_, image.allocate_of_nonpos positive⟩
  by_cases small : freeFlag - 1 - tagSize < size.toNat
  · exact .inl ⟨_, image.allocate_of_large positive small⟩
  rw [h.allocate_eq positive small]
  cases found : blocks.find? (·.fits (roundToWord size.toNat)) with
  | none => exact .inl ⟨_, rfl⟩
  | some block =>
    obtain ⟨fits, front, back, parts, skipped⟩ := List.find?_eq_some_iff_append.1 found
    exact .inr ⟨front, block, back, parts, by simpa using skipped, fits, rfl⟩

end HeapIs

end Image

end FlatC

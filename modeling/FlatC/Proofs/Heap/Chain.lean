import FlatC.Heap.Block
import FlatC.Proofs.Image.Bytes
import Mathlib.Data.List.Chain

/-!
# Chains of heap blocks

The blocks of a heap are nowhere written down but in the bytes of the heap itself.  This file
relates the two: `Image.Chain` says that a list of blocks is what the tags of an image describe,
from one address up to another, and the walk over the heap is shown to read exactly that list.

* `Image.chain_append` cuts a chain in two at any block;
* `Image.Chain.congr` keeps a chain as long as its tags stay as they are;
* `Image.HeapIs` is the invariant of a heap: its blocks are a chain that covers it, no two free
  blocks are neighbours, and the live allocations are the used blocks;
* `Image.HeapIs.walk_eq` and `Image.HeapIs.checkHeap_eq` read the invariant off the functions
  that inspect a heap.
-/

namespace FlatC

/-- The second word of the tag of a block. -/
def Block.mark (block : Block) : Nat :=
  (if block.free then freeFlag else 0) + block.length

/-- The tag of the last of some blocks, or `previous` if there are none. -/
def lastTag (previous : Nat) : List Block → Nat
  | [] => previous
  | block :: rest => lastTag block.address rest

@[simp] theorem lastTag_append_singleton (previous : Nat) (blocks : List Block) (block : Block) :
    lastTag previous (blocks ++ [block]) = block.address := by
  induction blocks generalizing previous with
  | nil => rfl
  | cons head rest ih => exact ih head.address

/-- The blocks follow one another from `start` up to `stop` without gaps, each with room for its
tag. -/
def Tiles : (start : Nat) → List Block → (stop : Nat) → Prop
  | start, [], stop => start = stop
  | start, block :: rest, stop =>
    block.address = start ∧ tagSize ≤ block.length ∧ Tiles block.stop rest stop

/-- The addresses that the program was given for the used blocks. -/
def usedPayloads (blocks : List Block) : List Nat :=
  (blocks.filter fun block => !block.free).map Block.payload

@[simp] theorem usedPayloads_nil : usedPayloads [] = [] := rfl

@[simp] theorem usedPayloads_cons (block : Block) (rest : List Block) :
    usedPayloads (block :: rest) =
      if block.free then usedPayloads rest else block.payload :: usedPayloads rest := by
  cases free : block.free <;> simp [usedPayloads, free]

@[simp] theorem usedPayloads_append (front back : List Block) :
    usedPayloads (front ++ back) = usedPayloads front ++ usedPayloads back := by
  simp [usedPayloads]

theorem mem_usedPayloads {blocks : List Block} {address : Nat} :
    address ∈ usedPayloads blocks ↔
      ∃ block ∈ blocks, block.free = false ∧ block.payload = address := by
  simp [usedPayloads, and_assoc]

namespace Image

/-! ## Tags and chains -/

/-- The tag in memory is that of the block, and links it to the block at `previous`. -/
structure Tagged (image : Image) (previous : Nat) (block : Block) : Prop where
  room : tagSize ≤ block.length
  short : block.length < freeFlag
  link : image.wordAt block.address = previous
  mark : image.wordAt (block.address + wordSize) = block.mark

/-- The tags from `start` on describe the blocks of the list, the first of them linked to
`previous` and the last of them ending at `stop`. -/
def Chain (image : Image) : (previous start : Nat) → List Block → (stop : Nat) → Prop
  | _, start, [], stop => start = stop
  | previous, start, block :: rest, stop =>
    block.address = start ∧ image.Tagged previous block ∧ image.Chain start block.stop rest stop

variable {image image' : Image} {previous start stop : Nat} {block : Block} {blocks : List Block}

/-- A chain of two parts is two chains, the second linked to the last block of the first. -/
theorem chain_append {front back : List Block} :
    image.Chain previous start (front ++ back) stop ↔
      ∃ middle, image.Chain previous start front middle ∧
        image.Chain (lastTag previous front) middle back stop := by
  induction front generalizing previous start with
  | nil => simp [Chain, lastTag]
  | cons head rest ih =>
    simp only [List.cons_append, Chain, ih, lastTag]
    constructor
    · rintro ⟨rfl, tagged, middle, first, second⟩
      exact ⟨middle, ⟨rfl, tagged, first⟩, second⟩
    · rintro ⟨middle, ⟨rfl, tagged, first⟩, second⟩
      exact ⟨rfl, tagged, middle, first, second⟩

theorem Tagged.lt_stop (h : image.Tagged previous block) : block.address + tagSize ≤ block.stop :=
  Nat.add_le_add_left h.room _

theorem Chain.start_le_stop (h : image.Chain previous start blocks stop) : start ≤ stop := by
  induction blocks generalizing previous start with
  | nil => exact Nat.le_of_eq h
  | cons head rest ih =>
    obtain ⟨rfl, tagged, more⟩ := h
    have := ih more
    have := tagged.lt_stop
    omega

/-- A chain that does not end where it starts has a tag there. -/
theorem Chain.room (h : image.Chain previous start blocks stop) (more : start < stop) :
    start + tagSize ≤ stop := by
  cases blocks with
  | nil => exact absurd h (Nat.ne_of_lt more)
  | cons head rest =>
    obtain ⟨rfl, tagged, more⟩ := h
    exact Nat.le_trans tagged.lt_stop more.start_le_stop

/-- Every block of a chain has its tag and lies inside it. -/
theorem Chain.bounds (h : image.Chain previous start blocks stop) (mem : block ∈ blocks) :
    start ≤ block.address ∧ block.address + tagSize ≤ block.stop ∧ block.stop ≤ stop := by
  induction blocks generalizing previous start with
  | nil => cases mem
  | cons head rest ih =>
    obtain ⟨rfl, tagged, more⟩ := h
    have room := tagged.lt_stop
    rcases List.mem_cons.1 mem with rfl | mem
    · exact ⟨Nat.le_refl _, room, more.start_le_stop⟩
    · obtain ⟨lower, own, upper⟩ := ih more mem
      exact ⟨by omega, own, upper⟩

/-- A chain has no two blocks at one address. -/
theorem Chain.eq_of_address_eq (h : image.Chain previous start blocks stop) {a b : Block}
    (ha : a ∈ blocks) (hb : b ∈ blocks) (same : a.address = b.address) : a = b := by
  induction blocks generalizing previous start with
  | nil => cases ha
  | cons head rest ih =>
    obtain ⟨rfl, tagged, more⟩ := h
    -- A block further up starts no lower than the head ends.
    have above : ∀ other ∈ rest, head.address < other.address := by
      intro other mem
      have room := tagged.lt_stop
      have := (more.bounds mem).1
      simp only [tagSize] at room
      omega
    rcases List.mem_cons.1 ha with rfl | ha'
    · rcases List.mem_cons.1 hb with rfl | hb'
      · rfl
      · exact absurd same (Nat.ne_of_lt (above b hb'))
    · rcases List.mem_cons.1 hb with rfl | hb'
      · exact absurd same (Nat.ne_of_gt (above a ha'))
      · exact ih more ha' hb'

/-- A chain depends on the bytes of its tags alone. -/
theorem Chain.congr (h : image.Chain previous start blocks stop)
    (same : ∀ block ∈ blocks,
      image.SameBytes image' block.address (block.address + tagSize)) :
    image'.Chain previous start blocks stop := by
  induction blocks generalizing previous start with
  | nil => exact h
  | cons head rest ih =>
    obtain ⟨rfl, tagged, more⟩ := h
    have own := same head List.mem_cons_self
    refine ⟨rfl, ⟨tagged.room, tagged.short, ?_, ?_⟩, ih more fun b mem => same b (.tail _ mem)⟩
    · rw [wordAt_congr (own.mono (Nat.le_refl _) (by simp [wordSize, tagSize])), tagged.link]
    · rw [wordAt_congr (own.mono (Nat.le_add_right ..) (by simp [wordSize, tagSize])), tagged.mark]

/-- A chain stays a chain when the link of its first block is changed. -/
theorem Chain.relink {previous' : Nat} (h : image.Chain previous start blocks stop)
    (link : start < stop → image'.wordAt start = previous')
    (same : image.SameBytes image' (start + wordSize) stop) :
    image'.Chain previous' start blocks stop := by
  cases blocks with
  | nil => exact h
  | cons head rest =>
    obtain ⟨rfl, tagged, more⟩ := h
    have room := tagged.lt_stop
    have upper := more.start_le_stop
    simp only [tagSize] at room
    refine ⟨rfl, ⟨tagged.room, tagged.short, link (by omega), ?_⟩, more.congr ?_⟩
    · rw [wordAt_congr (same.mono (Nat.le_refl _) (by simp only [wordSize]; omega)), tagged.mark]
    · intro other mem
      obtain ⟨lower, own, above⟩ := more.bounds mem
      exact same.mono (by simp only [wordSize]; omega) (by omega)

theorem Chain.tiles (h : image.Chain previous start blocks stop) : Tiles start blocks stop := by
  induction blocks generalizing previous start with
  | nil => exact h
  | cons head rest ih =>
    obtain ⟨rfl, tagged, more⟩ := h
    exact ⟨rfl, tagged.room, ih more⟩

/-- Each block of a chain is linked to the block before it. -/
theorem Chain.isChain_link (h : image.Chain previous start blocks stop) :
    blocks.IsChain fun a b => image.wordAt b.address = a.address := by
  induction blocks generalizing previous start with
  | nil => exact .nil
  | cons head rest ih =>
    obtain ⟨rfl, -, more⟩ := h
    refine (ih more).cons fun next first => ?_
    cases rest with
    | nil => cases first
    | cons other others =>
      obtain rfl : other = next := by simpa using first
      exact more.2.1.link

theorem Chain.nodup_usedPayloads (h : image.Chain previous start blocks stop) :
    (usedPayloads blocks).Nodup := by
  induction blocks generalizing previous start with
  | nil => exact .nil
  | cons head rest ih =>
    obtain ⟨rfl, tagged, more⟩ := h
    rw [usedPayloads_cons]
    split
    · exact ih more
    · refine List.nodup_cons.2 ⟨fun mem => ?_, ih more⟩
      obtain ⟨other, inRest, -, same⟩ := mem_usedPayloads.1 mem
      have lower := (more.bounds inRest).1
      have room := tagged.lt_stop
      simp only [Block.payload, tagSize] at same room
      omega

/-! ## Reading the blocks back -/

/-- The regions of the image follow one another, addresses fit a word and the length of the heap
fits a tag. -/
structure Laid (image : Image) : Prop where
  readOnly : image.readOnlyTop ≤ image.heapBottom
  heap : image.heapBottom ≤ image.stackBottom
  stack : image.stackBottom ≤ image.size
  addressable : image.size < wordRange
  short : image.stackBottom < image.heapBottom + freeFlag

/-- Writing bytes leaves the regions as they are. -/
theorem Laid.of_onlyBytes (laid : image.Laid) (h : image.OnlyBytes image') : image'.Laid := by
  obtain ⟨bytes, size, rfl⟩ := h
  obtain ⟨readOnly, heap, stack, addressable, short⟩ := laid
  refine ⟨readOnly, heap, ?_, ?_, short⟩
  · rwa [Image.size, size]
  · rwa [Image.size, size]

theorem Tagged.mark_mod (h : image.Tagged previous block) :
    block.mark % freeFlag = block.length := by
  have short := h.short
  cases free : block.free <;> simp only [Block.mark, free]
  · simpa using Nat.mod_eq_of_lt short
  · simpa using Nat.mod_eq_of_lt short

theorem Tagged.le_mark (h : image.Tagged previous block) :
    decide (freeFlag ≤ block.mark) = block.free := by
  have short := h.short
  cases free : block.free <;> simp only [Block.mark, free]
  · simpa using short
  · simp

/-- The second word of a tag inside the heap says which block it describes. -/
theorem blockAt_of_readWord {tag word : Nat}
    (inHeap : image.heapBottom ≤ tag ∧ tag < image.stackBottom) (fits : tag + 4 < wordRange)
    (read : image.readWord (tag + 4) = .ok word)
    (inside : tagSize ≤ word % freeFlag ∧ tag + word % freeFlag ≤ image.stackBottom) :
    image.blockAt tag = .ok ⟨tag, word % freeFlag, decide (freeFlag ≤ word)⟩ := by
  rw [blockAt, if_neg (by omega), checkedWord_of_lt fits]
  refine bind_eq_ok.mpr ⟨_, rfl, bind_eq_ok.mpr ⟨word, read, ?_⟩⟩
  rw [if_pos inside]
  rfl

/-- The tag of a block inside the heap reads as that block. -/
theorem Tagged.blockAt_eq (h : image.Tagged previous block) (laid : image.Laid)
    (lower : image.heapBottom ≤ block.address) (upper : block.stop ≤ image.stackBottom) :
    image.blockAt block.address = .ok block := by
  have room := h.lt_stop
  have stack := laid.stack
  simp only [tagSize] at room
  have fits : block.address + 4 < wordRange := by
    have := laid.addressable
    omega
  have read : image.readWord (block.address + 4) = .ok block.mark := by
    rw [readWord_eq image (by simp only [wordSize]; omega)]
    exact congrArg Except.ok h.mark
  have found := blockAt_of_readWord ⟨lower, by omega⟩ fits read
  rw [h.mark_mod, h.le_mark] at found
  exact found ⟨h.room, upper⟩

theorem Chain.walkFrom_eq (h : image.Chain previous start blocks image.stackBottom)
    (laid : image.Laid) (lower : image.heapBottom ≤ start) {left : Nat}
    (enough : image.stackBottom - start ≤ left) : image.walkFrom left start = ⟨blocks, none⟩ := by
  induction blocks generalizing previous start left with
  | nil =>
    have done : image.stackBottom ≤ start := Nat.le_of_eq h.symm
    cases left with
    | zero => rfl
    | succ left => rw [walkFrom, if_pos done]
  | cons head rest ih =>
    obtain ⟨rfl, tagged, more⟩ := h
    have room := tagged.lt_stop
    have upper := more.start_le_stop
    simp only [tagSize] at room
    obtain ⟨left, rfl⟩ : ∃ n, left = n + 1 := ⟨left - 1, by omega⟩
    rw [walkFrom, if_neg (by omega), tagged.blockAt_eq laid lower upper]
    simp only [ih more (by omega) (show image.stackBottom - head.stop ≤ left by omega)]

theorem Chain.checkBlocks_eq (h : image.Chain previous start blocks stop)
    (upper : stop ≤ image.size) (live : ∀ a ∈ usedPayloads blocks, a ∈ image.live) :
    image.checkBlocks previous blocks = .ok () := by
  induction blocks generalizing previous start with
  | nil => rfl
  | cons head rest ih =>
    obtain ⟨rfl, tagged, more⟩ := h
    have room := tagged.lt_stop
    have above := more.start_le_stop
    simp only [tagSize] at room
    have inside : head.address + wordSize ≤ image.size := by simp only [wordSize]; omega
    have known : ¬ (image.wordAt head.address ≠ previous ∨
        (head.free = false ∧ image.isLive head.payload = false)) := by
      rintro (link | ⟨used, dead⟩)
      · exact link tagged.link
      · have : head.payload ∈ image.live := live _ (by simp [used])
        simp [isLive, this] at dead
    have others : ∀ a ∈ usedPayloads rest, a ∈ image.live := by
      intro a mem
      refine live a ?_
      rw [usedPayloads_cons]
      split
      · exact mem
      · exact List.mem_cons_of_mem _ mem
    rw [checkBlocks]
    simp only [bind, Except.bind, readWord_eq image inside, if_neg known]
    exact ih more others

/-! ## The invariant of a heap -/

/-- Two blocks that may follow one another: not both of them are free. -/
def Apart (a b : Block) : Prop :=
  ¬ (a.free = true ∧ b.free = true)

/-- The heap of the image consists of the given blocks: they cover it, each linked to the one
before it and the first to itself, no two free blocks are neighbours, and the used blocks are the
live allocations. -/
structure HeapIs (image : Image) (blocks : List Block) : Prop where
  laid : image.Laid
  chain : image.Chain image.heapBottom image.heapBottom blocks image.stackBottom
  coalesced : blocks.IsChain Apart
  live : image.live.Perm (usedPayloads blocks)

namespace HeapIs

theorem walk_eq (h : image.HeapIs blocks) : image.walk = ⟨blocks, none⟩ :=
  h.chain.walkFrom_eq h.laid (Nat.le_refl _) (Nat.le_refl _)

theorem blocks_eq (h : image.HeapIs blocks) : image.blocks = blocks := by
  rw [Image.blocks, h.walk_eq]

theorem checkHeap_eq (h : image.HeapIs blocks) : image.checkHeap = .ok () := by
  have linked := h.chain.checkBlocks_eq h.laid.stack fun a mem => h.live.mem_iff.2 mem
  simp only [checkHeap, h.walk_eq, linked]
  rfl

theorem mem_live_iff (h : image.HeapIs blocks) {address : Nat} :
    address ∈ image.live ↔ ∃ block ∈ blocks, block.free = false ∧ block.payload = address := by
  rw [h.live.mem_iff, mem_usedPayloads]

/-- The payload of a free block is no live allocation. -/
theorem payload_notMem_live (h : image.HeapIs blocks) {block : Block} (mem : block ∈ blocks)
    (free : block.free = true) : block.payload ∉ image.live := by
  intro live
  obtain ⟨other, inHeap, used, same⟩ := h.mem_live_iff.1 live
  obtain rfl : other = block := h.chain.eq_of_address_eq inHeap mem (Nat.add_right_cancel same)
  rw [free] at used
  cases used

end HeapIs

end Image

end FlatC

import FlatC.Image.Create
import FlatC.Proofs.Heap.Release

/-!
# Heaps that a program can reach

From a new image a program allocates, releases, places text literals and writes bytes.  As long
as it writes only to what it was given, to its allocations and its stack, the heap stays sound,
however long it goes on.

* `Image.Action` is one operation on memory, and `Image.Action.after` the image it leaves;
* `Image.Owned` is a range that belongs to the program, and `Image.Action.Tame` an operation that
  writes nowhere else;
* `Image.Reachable` is the images that a program can reach by tame operations;
* `Image.Reachable.heapIs` says that the heap of every such image is sound, and
  `Image.reachable_heap_sound` reads this off the functions that inspect a heap.
-/

namespace FlatC.Image

variable {config : Regions} {image image' : Image} {blocks : List Block}

/-! ## Operations and runs -/

/-- An operation on memory. -/
inductive Action where
  | allocate (size : Int)
  | release (address : Nat)
  | intern (text : List Char)
  | write (address : Nat) (data : List UInt8)
  | fill (address size : Nat) (byte : UInt8)
  | store (address : Nat) (value : Value)
  | writeText (address : Nat) (text : List Char)
deriving Repr, Inhabited

/-- The image that an operation leaves, whether it succeeds or fails. -/
def Action.after (image : Image) : Action → Image
  | .allocate size => (Image.allocate size).after image
  | .release address => (Image.release address).after image
  | .intern text => (Image.intern text).after image
  | .write address data => (Image.write address data).after image
  | .fill address size byte => (Image.fill address size byte).after image
  | .store address value => (Image.store address value).after image
  | .writeText address text => (Image.writeText address text).after image

/-- The range belongs to the program: it lies on the stack, or in a block of the heap behind the
tag, and the block is a live allocation. -/
def Owned (image : Image) (address size : Nat) : Prop :=
  image.stackBottom ≤ address ∨
    ∃ block ∈ image.blocks, block.payload ∈ image.live ∧ block.payload ≤ address ∧
      address + size ≤ block.stop

/-- An operation that writes to nothing but what belongs to the program. -/
def Action.Tame (image : Image) : Action → Prop
  | .allocate _ | .release _ | .intern _ => True
  | .write address data => image.Owned address data.length
  | .fill address size _ => image.Owned address size
  | .store address value => image.Owned address (storedSize value)
  | .writeText address text => image.Owned address (text.length + 1)

/-- The images that tame operations reach from a new one. -/
inductive Reachable (config : Regions) : Image → Prop where
  | start {image : Image} (created : create config = .ok image) : Reachable config image
  | next {image : Image} (action : Action) (earlier : Reachable config image)
      (tame : action.Tame image) : Reachable config (action.after image)

/-! ## A new heap -/

theorem layoutFault?_eq_none (h : layoutFault? config = none) :
    nullPage ≤ config.readOnlySize ∧ leastHeap ≤ config.heapSize ∧
      config.heapSize ≤ greatestHeap ∧
      config.readOnlySize + config.heapSize + config.stackSize < wordRange := by
  unfold layoutFault? at h
  by_cases guard : config.readOnlySize < nullPage
  · simp [guard] at h
  by_cases heap : config.heapSize < leastHeap ∨ greatestHeap < config.heapSize
  · simp [guard, heap] at h
  by_cases space : wordRange ≤ config.readOnlySize + config.heapSize + config.stackSize
  · simp [guard, heap, space] at h
  omega

/-- The zeros that a new image is made of. -/
def zeros (config : Regions) : Image :=
  { bytes := .replicate (config.readOnlySize + config.heapSize + config.stackSize) 0
    heapBottom := config.readOnlySize
    stackBottom := config.readOnlySize + config.heapSize
    readOnlyTop := nullPage
    literals := []
    live := []
    policy := config.policy }

/-- The one block of a new heap. -/
def onlyBlock (config : Regions) : Block :=
  ⟨config.readOnlySize, config.heapSize, true⟩

theorem blank_eq (config : Regions) :
    blank config = ((zeros config).putWord (onlyBlock config).address
      (lastTag (onlyBlock config).address [])).marked (onlyBlock config) := rfl

theorem size_zeros (config : Regions) :
    (zeros config).size = config.readOnlySize + config.heapSize + config.stackSize := rfl

/-- The heap of a new image is one free block. -/
theorem heapIs_blank (valid : layoutFault? config = none) :
    (blank config).HeapIs [onlyBlock config] := by
  obtain ⟨guard, least, greatest, space⟩ := layoutFault?_eq_none valid
  simp only [nullPage, leastHeap, greatestHeap, tagSize] at guard least greatest
  have only : (zeros config).OnlyBytes (blank config) := by
    rw [blank_eq]
    exact (onlyBytes_putWord ..).trans (onlyBytes_marked ..)
  have short : config.heapSize < freeFlag := by
    have : 0 < freeFlag := by decide
    omega
  have laid : (zeros config).Laid := by
    refine ⟨guard, Nat.le_add_right .., ?_, ?_, Nat.add_lt_add_left short _⟩
    · rw [size_zeros]
      exact Nat.le_add_right ..
    · rwa [size_zeros]
  have nothing : (zeros config).Chain (onlyBlock config).address (onlyBlock config).address []
      (onlyBlock config).address := rfl
  have room : tagSize ≤ config.heapSize := by
    simp only [tagSize]
    omega
  have inside : config.readOnlySize + tagSize ≤ (zeros config).size := by
    rw [size_zeros]
    omega
  have addressable : config.readOnlySize < wordRange := by omega
  have chain : (blank config).Chain (onlyBlock config).address (onlyBlock config).address
      [onlyBlock config] (onlyBlock config).stop := by
    rw [blank_eq]
    exact nothing.extend room short inside addressable
  exact ⟨laid.of_onlyBytes only, chain, .singleton _, .refl _⟩

/-! ## What the program owns is no tag -/

/-- Bytes written above the stack bottom, or below the heap, are no tags. -/
theorem HeapIs.of_sameBytes (h : image.HeapIs blocks) (only : image.OnlyBytes image')
    (same : ∀ block ∈ blocks, image.SameBytes image' block.address (block.address + tagSize)) :
    image'.HeapIs blocks := by
  refine ⟨h.laid.of_onlyBytes only, ?_, h.coalesced, ?_⟩
  · rw [only.heapBottom, only.stackBottom]
    exact h.chain.congr same
  · rw [only.live]
    exact h.live

/-- The tag of a block and the bytes that belong to the program do not meet. -/
theorem HeapIs.apart_of_owned (h : image.HeapIs blocks) {address size : Nat}
    (owned : image.Owned address size) {other : Block} (mem : other ∈ blocks) :
    other.address + tagSize ≤ address ∨ address + size ≤ other.address := by
  obtain ⟨-, own, upper⟩ := h.chain.bounds mem
  rcases owned with stack | ⟨block, inHeap, -, lower, within⟩
  · exact .inl (by omega)
  rw [h.blocks_eq] at inHeap
  -- The tags of the blocks below end before the range, those of the blocks above start behind it.
  obtain ⟨front, back, rfl⟩ := List.append_of_mem inHeap
  obtain ⟨below, above, -, -, -⟩ := h.around
  simp only [List.mem_append, List.mem_cons] at mem
  rcases mem with mem | rfl | mem
  · obtain ⟨middle, lowerPart, next, -⟩ := chain_append.1 below
    have := (lowerPart.bounds mem).2.2
    simp only [Block.payload] at lower
    exact .inl (by omega)
  · exact .inl lower
  · have := (above.bounds mem).1
    exact .inr (by omega)

/-- A write to what belongs to the program changes no tag. -/
theorem HeapIs.written (h : image.HeapIs blocks) {address size : Nat}
    (owned : image.Owned address size) (written : Written image address size image') :
    image'.HeapIs blocks :=
  h.of_sameBytes written.onlyBytes fun _ mem => written.sameBytes (h.apart_of_owned owned mem)

/-- What a request for a literal comes to: the literal has a place, or there is no room for it, or
it is placed. -/
theorem intern_cases (image : Image) (text : List Char) :
    (∃ address, image.literalAddress? (Text.literalBody text) = some address ∧
        Image.intern text image = .ok (.pointerTo address .charPointer) image) ∨
      (∃ fault, Image.intern text image = .error fault image) ∨
      image.literalAddress? (Text.literalBody text) = none ∧
        (Text.literalBody text).length + 1 ≤ image.readOnlyAvailable ∧
        Image.intern text image = .ok (.pointerTo image.readOnlyTop .charPointer)
          (image.placeLiteral (Text.literalBody text)) := by
  unfold Image.intern
  cases known : image.literalAddress? (Text.literalBody text) with
  | some address => exact .inl ⟨address, rfl, by simp only [known]⟩
  | none =>
    by_cases full : image.readOnlyAvailable < (Text.literalBody text).length + 1
    · exact .inr (.inl ⟨_, by simp only [known, if_pos full]; rfl⟩)
    · exact .inr (.inr ⟨rfl, Nat.le_of_not_lt full, by simp only [known, if_neg full]⟩)

/-- A literal that is not known yet and fits the read-only region is placed there; in all other
cases nothing changes. -/
theorem after_intern_cases (image : Image) (text : List Char) :
    (Image.intern text).after image = image ∨
      image.literalAddress? (Text.literalBody text) = none ∧
        (Text.literalBody text).length + 1 ≤ image.readOnlyAvailable ∧
        (Image.intern text).after image = image.placeLiteral (Text.literalBody text) := by
  unfold Store.after
  rcases image.intern_cases text with ⟨_, -, done⟩ | ⟨_, done⟩ | ⟨unknown, fits, done⟩
  · exact .inl (by simp only [done])
  · exact .inl (by simp only [done])
  · exact .inr ⟨unknown, fits, by simp only [done]⟩

/-- Placing a literal changes bytes of the read-only region alone. -/
theorem HeapIs.intern (h : image.HeapIs blocks) (text : List Char) :
    ((Image.intern text).after image).HeapIs blocks := by
  rcases image.after_intern_cases text with same | ⟨-, fits, placed⟩
  · rwa [same]
  rw [placed]
  generalize Text.literalBody text = body at fits
  have length : (Text.encode body ++ [0]).length = body.length + 1 := by simp
  have below : image.readOnlyTop + (Text.encode body ++ [0]).length ≤ image.heapBottom := by
    have := h.laid.readOnly
    simp only [readOnlyAvailable] at fits
    omega
  have bytes : (image.put image.readOnlyTop (Text.encode body ++ [0])).HeapIs blocks := by
    refine h.of_sameBytes (image.onlyBytes_put ..) fun other mem => image.sameBytes_put (.inr ?_)
    have := (h.chain.bounds mem).1
    omega
  obtain ⟨⟨-, heap, stack, addressable, short⟩, chain, coalesced, live⟩ := bytes
  exact ⟨⟨below, heap, stack, addressable, short⟩, chain.congr fun _ _ => SameBytes.refl _ _ _,
    coalesced, live⟩

/-! ## Every step, and every run -/

/-- A tame operation keeps the heap sound. -/
theorem HeapIs.after (h : image.HeapIs blocks) (action : Action) (tame : action.Tame image) :
    ∃ blocks', (action.after image).HeapIs blocks' := by
  cases action with
  | allocate size =>
    rcases h.allocate_cases size with ⟨fault, failed⟩ | ⟨front, block, back, rfl, -, fits, done⟩
    · refine ⟨blocks, ?_⟩
      simpa only [Action.after, Store.after, failed] using h
    · refine ⟨front ++ block.carved (roundToWord size.toNat) ++ back, ?_⟩
      simpa only [Action.after, Store.after, done] using h.allocated fits
  | release address =>
    rcases h.release_cases address with ⟨-, failed⟩ |
      ⟨front, block, back, image', blocks', -, -, -, done, -, -, sound, -⟩
    · refine ⟨blocks, ?_⟩
      simpa only [Action.after, Store.after, failed] using h
    · refine ⟨blocks', ?_⟩
      simpa only [Action.after, Store.after, done] using sound
  | intern text => exact ⟨blocks, h.intern text⟩
  | write address data => exact ⟨blocks, h.written tame (image.write_written address data)⟩
  | fill address size byte =>
    exact ⟨blocks, h.written tame (image.fill_written address size byte)⟩
  | store address value => exact ⟨blocks, h.written tame (image.store_written address value)⟩
  | writeText address text =>
    exact ⟨blocks, h.written tame (image.writeText_written address text)⟩

/-- The heap of every image that a program can reach is sound. -/
theorem Reachable.heapIs (h : Reachable config image) : ∃ blocks, image.HeapIs blocks := by
  induction h with
  | start created =>
    obtain ⟨valid, rfl⟩ := of_create created
    exact ⟨_, heapIs_blank valid⟩
  | next action earlier tame ih =>
    obtain ⟨blocks, sound⟩ := ih
    exact sound.after action tame

/-- **The heap stays sound.**  In every image that a program can reach, the check of the heap
succeeds, the blocks cover the heap without gaps, each names the one before it and the first
itself, no two neighbours are free, and the live allocations are what stands behind the tags of
the used blocks. -/
theorem reachable_heap_sound (h : Reachable config image) :
    image.checkHeap = .ok () ∧
      Tiles image.heapBottom image.blocks image.stackBottom ∧
      (∀ first ∈ image.blocks.head?, image.readWord first.address = .ok first.address) ∧
      image.blocks.IsChain (fun a b => image.readWord b.address = .ok a.address) ∧
      image.blocks.IsChain (fun a b => ¬ (a.free = true ∧ b.free = true)) ∧
      image.live.Nodup ∧
      ∀ address, address ∈ image.live ↔
        ∃ block ∈ image.blocks, block.free = false ∧ block.payload = address := by
  obtain ⟨blocks, sound⟩ := h.heapIs
  rw [sound.blocks_eq]
  have read : ∀ block ∈ blocks,
      image.readWord block.address = .ok (image.wordAt block.address) := by
    intro block mem
    obtain ⟨-, own, upper⟩ := sound.chain.bounds mem
    have stack := sound.laid.stack
    refine image.readWord_eq ?_
    simp only [tagSize] at own
    simp only [wordSize]
    omega
  refine ⟨sound.checkHeap_eq, sound.chain.tiles, ?_, ?_, sound.coalesced, ?_,
    fun _ => sound.mem_live_iff⟩
  · intro first head
    cases blocks with
    | nil => cases head
    | cons other rest =>
      obtain rfl : other = first := by simpa using head
      obtain ⟨address, tagged, -⟩ := sound.chain
      rw [read other List.mem_cons_self, tagged.link, address]
  · refine sound.chain.isChain_link.imp_of_mem_tail_imp fun a b _ mem link => ?_
    rw [read b (List.mem_of_mem_tail mem), link]
  · exact sound.live.nodup_iff.2 sound.chain.nodup_usedPayloads

/-- A heap of odd length in which the first of two allocations was released and the second written
to. -/
theorem reachable_heap_sound_after_release :
    ∃ image, Reachable ⟨8, 41, 8, .reclaim⟩ image ∧
      image.blocks = [⟨8, 16, true⟩, ⟨24, 12, false⟩, ⟨36, 13, true⟩] ∧
      image.checkHeap = .ok () := by
  have start : Reachable ⟨8, 41, 8, .reclaim⟩ (blank ⟨8, 41, 8, .reclaim⟩) := .start rfl
  have first := start.next (.allocate 5) trivial
  have second := first.next (.allocate 4) trivial
  have third := second.next (.release 16) trivial
  have fourth := third.next (.write 32 [1, 2, 3, 4])
    (.inr ⟨⟨24, 12, false⟩, by decide +kernel, by decide +kernel, by decide, by decide⟩)
  exact ⟨_, fourth, by decide +kernel, (reachable_heap_sound fourth).1⟩

end FlatC.Image

import FlatC.Proofs.Heap.Order

/-!
# The allocator leaves the data of the program alone

The allocator keeps its tags among the data of the program, and finds them by adding up lengths
that it reads from memory.  In a heap with intact tags it still never meets the data: a release
writes to tags alone, and an allocation to tags and to the free block that it takes.

* `Image.Foreign` is the bytes that are none of the allocator's business;
* `HeapIs.foreign_after` says that no call of the allocator changes them;
* `HeapIs.sameBytes_afterAll` says the same of an allocation while others come and go.
-/

namespace FlatC.Image

variable {config : Regions} {image : Image} {blocks front back : List Block} {block other : Block}
  {previous start stop size i : Nat}

/-! ## Blocks lie apart -/

/-- Of two blocks of a chain one ends before the other starts. -/
theorem Chain.eq_or_apart (h : image.Chain previous start blocks stop) (mem : block ∈ blocks)
    (mem' : other ∈ blocks) :
    block = other ∨ block.stop ≤ other.address ∨ other.stop ≤ block.address := by
  induction blocks generalizing previous start with
  | nil => cases mem
  | cons head rest ih =>
    obtain ⟨-, -, more⟩ := h
    rcases List.mem_cons.1 mem with rfl | later
    · rcases List.mem_cons.1 mem' with rfl | later'
      · exact .inl rfl
      · exact .inr (.inl (more.bounds later').1)
    · rcases List.mem_cons.1 mem' with rfl | later'
      · exact .inr (.inr (more.bounds later).1)
      · exact ih more later later'

/-- What stands behind the tag of a block belongs to no tag. -/
theorem Chain.payload_untagged (h : image.Chain previous start blocks stop) (mem : block ∈ blocks)
    (mem' : other ∈ blocks) :
    other.address + tagSize ≤ block.payload ∨ block.stop ≤ other.address := by
  rcases h.eq_or_apart mem mem' with rfl | below | above
  · exact .inl (Nat.le_refl _)
  · exact .inr below
  · have := (h.bounds mem').2.1
    simp only [Block.payload]
    exact .inl (by omega)

/-! ## What is none of the allocator's business -/

/-- A byte outside the heap, or behind the tag of a used block. -/
def Foreign (image : Image) (blocks : List Block) (i : Nat) : Prop :=
  i < image.heapBottom ∨ image.stackBottom ≤ i ∨
    ∃ block ∈ usedBlocks blocks, block.payload ≤ i ∧ i < block.stop

namespace HeapIs

/-- A foreign byte belongs to no tag. -/
theorem untagged_of_foreign (h : image.HeapIs blocks) (foreign : image.Foreign blocks i)
    (mem : block ∈ blocks) : i < block.address ∨ block.address + tagSize ≤ i := by
  obtain ⟨lower, own, upper⟩ := h.chain.bounds mem
  rcases foreign with below | above | ⟨used, among, inside, within⟩
  · exact .inl (by omega)
  · exact .inr (by omega)
  · rcases h.chain.payload_untagged (mem_usedBlocks.1 among).1 mem with before | behind
    · exact .inr (by omega)
    · exact .inl (by omega)

/-- A foreign byte lies in no free block. -/
theorem outside_of_foreign (h : image.HeapIs blocks) (foreign : image.Foreign blocks i)
    (mem : block ∈ blocks) (free : block.free = true) : i < block.address ∨ block.stop ≤ i := by
  obtain ⟨lower, own, upper⟩ := h.chain.bounds mem
  rcases foreign with below | above | ⟨used, among, inside, within⟩
  · exact .inl (by omega)
  · exact .inr (by omega)
  · obtain ⟨inHeap, taken⟩ := mem_usedBlocks.1 among
    simp only [Block.payload] at inside
    rcases h.chain.eq_or_apart inHeap mem with rfl | before | behind
    · rw [free] at taken
      cases taken
    · exact .inl (by omega)
    · exact .inr (by omega)

/-! ## Calls of the allocator -/

/-- An allocation writes to the free block that it takes, and to the tag behind it. -/
theorem allocated_getElem? (h : image.HeapIs (front ++ block :: back))
    (outside : i < block.address ∨ block.stop ≤ i)
    (untagged : ∀ other ∈ back, i < other.address ∨ other.address + tagSize ≤ i) :
    (image.allocated block size).bytes[i]? = image.bytes[i]? := by
  obtain ⟨-, above, room, -, -⟩ := h.around
  show (image.carved block size).bytes[i]? = image.bytes[i]?
  unfold carved
  split
  · rename_i longer
    have stop : (block.left size).stop = block.stop := by
      simp only [Block.splits] at longer
      simp only [Block.stop, Block.left]
      omega
    have halved : (image.halved block size).bytes[i]? = image.bytes[i]? := by
      refine SameBytes.getElem?_eq (image.sameBytes_halved ?_)
      simp only [Block.splits] at longer
      simp only [Block.stop] at outside
      simp only [Block.left]
      omega
    have linked : (image.halved block size).OnlyTags back
        ((image.halved block size).linked (block.left size).stop (block.left size).address) := by
      rw [stop]
      cases back with
      | nil =>
        have done : ¬ block.stop < (image.halved block size).stackBottom := by
          rw [(image.onlyBytes_halved block size).stackBottom]
          exact Nat.not_lt.2 (Nat.le_of_eq above.symm)
        rw [Image.linked, if_neg done]
        exact .refl _ _
      | cons next rest => exact onlyTags_linked _ fun _ => ⟨List.mem_cons_self, above.1⟩
    rw [linked i untagged, halved]
  · refine SameBytes.getElem?_eq (image.sameBytes_marked block.whole ?_)
    simp only [Block.whole, wordSize]
    omega

/-- A call of the allocator changes no foreign byte, and every used block stays unless it is
released. -/
theorem foreign_after (h : image.HeapIs blocks) {call : Action} (ours : call.ofAllocator = true) :
    ∃ blocks', (call.after image).HeapIs blocks' ∧
      (∀ i, image.Foreign blocks i → (call.after image).bytes[i]? = image.bytes[i]?) ∧
      ∀ block ∈ usedBlocks blocks, call ≠ .release block.payload → block ∈ usedBlocks blocks' := by
  cases call with
  | allocate size =>
    rcases h.allocate_cases size with ⟨fault, failed⟩ | ⟨front, block, back, rfl, -, fits, done⟩
    · have unchanged : (Action.allocate size).after image = image := by
        simp only [Action.after, Store.after, failed]
      rw [unchanged]
      exact ⟨blocks, h, fun _ _ => rfl, fun _ mem _ => mem⟩
    · have reached : (Action.allocate size).after image =
          image.allocated block (roundToWord size.toNat) := by
        simp only [Action.after, Store.after, done]
      have free : block.free = true := by
        simp only [Block.fits, Bool.and_eq_true] at fits
        exact fits.1
      rw [reached]
      refine ⟨_, h.allocated fits, fun i foreign => ?_, fun other mem _ => ?_⟩
      · refine h.allocated_getElem? (h.outside_of_foreign foreign (by simp) free) ?_
        exact fun other mem => h.untagged_of_foreign foreign (by simp [mem])
      · rw [usedBlocks_append, usedBlocks_cons_of_free free] at mem
        rw [usedBlocks_append, usedBlocks_append]
        rcases List.mem_append.1 mem with below | above
        · exact List.mem_append_left _ (List.mem_append_left _ below)
        · exact List.mem_append_right _ above
  | release address =>
    rcases h.release_cases address with ⟨-, failed⟩ |
      ⟨front, block, back, image', blocks', rfl, used, rfl, done, -, tags, sound, left⟩
    · have unchanged : (Action.release address).after image = image := by
        simp only [Action.after, Store.after, failed]
      rw [unchanged]
      exact ⟨blocks, h, fun _ _ => rfl, fun _ mem _ => mem⟩
    · have reached : (Action.release block.payload).after image = image' := by
        simp only [Action.after, Store.after, done]
      rw [reached]
      refine ⟨blocks', sound, fun i foreign => ?_, fun other mem kept => ?_⟩
      · exact tags i fun _ inHeap => h.untagged_of_foreign foreign inHeap
      · rw [left, h.usedBlocks_others used]
        refine List.mem_filter.2 ⟨mem, ?_⟩
        simpa using fun same => kept (by rw [same])
  | intern _ | write _ _ | fill _ _ _ | store _ _ | writeText _ _ => cases ours

/-- A released allocation is no longer live. -/
theorem notMem_live_after_release (h : image.HeapIs blocks) (address : Nat) :
    address ∉ ((Action.release address).after image).live := by
  rcases h.release_cases address with ⟨dead, failed⟩ |
    ⟨front, block, back, image', blocks', -, -, -, done, only, -, -, -⟩
  · simpa only [Action.after, Store.after, failed] using dead
  · have nodup : image.live.Nodup := h.live.nodup_iff.2 h.chain.nodup_usedPayloads
    simp only [Action.after, Store.after, done, only.live]
    exact nodup.not_mem_erase

/-- The block of an allocation keeps its place and its bytes while other allocations come and
go. -/
theorem sameBytes_afterAll (h : image.HeapIs blocks) (mem : block ∈ usedBlocks blocks)
    (calls : List Action) (others : ∀ call ∈ calls, call.ofAllocator = true ∧
      call ≠ .release block.payload) :
    (∃ blocks', (calls.foldl Action.after image).HeapIs blocks' ∧ block ∈ usedBlocks blocks') ∧
      image.SameBytes (calls.foldl Action.after image) block.payload block.stop := by
  induction calls generalizing image blocks with
  | nil => exact ⟨⟨blocks, h, mem⟩, SameBytes.refl _ _ _⟩
  | cons call rest ih =>
    obtain ⟨ours, other⟩ := others call List.mem_cons_self
    obtain ⟨blocks₁, sound, foreign, stays⟩ := h.foreign_after ours
    obtain ⟨later, same⟩ := ih sound (stays block mem other) fun call inRest =>
      others call (List.mem_cons_of_mem _ inRest)
    refine ⟨later, SameBytes.trans (fun i lower upper => ?_) same⟩
    exact foreign i (.inr (.inr ⟨block, mem, lower, upper⟩))

end HeapIs

/-! ## Data of the program -/

theorem Action.shape_afterAll (image : Image) (calls : List Action) :
    (calls.foldl Action.after image).shape = image.shape := by
  induction calls generalizing image with
  | nil => rfl
  | cons call rest ih => rw [List.foldl_cons, ih, call.shape_after]

/-- A live allocation is a block whose payload lies in the heap and meets neither a tag nor the
payload of another block. -/
theorem HeapIs.exists_block_of_live (h : image.HeapIs blocks) {address : Nat}
    (live : address ∈ image.live) :
    ∃ block ∈ blocks, block.payload = address ∧ image.heapBottom ≤ block.payload ∧
      block.stop ≤ image.stackBottom ∧
      ∀ other ∈ blocks,
        (other.address + tagSize ≤ block.payload ∨ block.stop ≤ other.address) ∧
        (other.payload ≠ block.payload →
          other.stop ≤ block.payload ∨ block.stop ≤ other.payload) := by
  obtain ⟨block, mem, -, rfl⟩ := h.mem_live_iff.1 live
  obtain ⟨lower, own, upper⟩ := h.chain.bounds mem
  refine ⟨block, mem, rfl, Nat.le_trans lower (Nat.le_add_right ..), upper, fun other mem' => ?_⟩
  refine ⟨h.chain.payload_untagged mem mem', fun different => ?_⟩
  rcases h.chain.eq_or_apart mem mem' with rfl | below | above
  · exact absurd rfl different
  · exact .inr (Nat.le_trans below (Nat.le_add_right ..))
  · exact .inl (Nat.le_trans above (Nat.le_add_right ..))

theorem HeapIs.mem_usedBlocks_of_live (h : image.HeapIs blocks) (mem : block ∈ blocks)
    (live : block.payload ∈ image.live) : block ∈ usedBlocks blocks := by
  obtain ⟨other, inHeap, used, same⟩ := h.mem_live_iff.1 live
  have both : other = block := h.chain.eq_of_address_eq inHeap mem (Nat.add_right_cancel same)
  exact mem_usedBlocks.2 ⟨mem, both ▸ used⟩

/-- **The allocator never damages the data of the program.**  In every heap with intact tags the
payloads of the live allocations lie in the heap, apart from each other and from all tags.  No call
of the allocator, whether it succeeds or fails, changes a byte outside the heap or a byte of an
allocation that is live before and after it.  So all that is read from an allocation stays the same
while other allocations come and go. -/
theorem allocator_spares_user_data (h : Uncorrupted config image) :
    (∀ address ∈ image.live, ∃ block ∈ image.blocks, block.payload = address ∧
      image.heapBottom ≤ block.payload ∧ block.stop ≤ image.stackBottom ∧
      ∀ other ∈ image.blocks,
        (other.address + tagSize ≤ block.payload ∨ block.stop ≤ other.address) ∧
        (other.payload ≠ block.payload →
          other.stop ≤ block.payload ∨ block.stop ≤ other.payload)) ∧
    (∀ call : Action, call.ofAllocator = true →
      (∀ i, i < image.heapBottom ∨ image.stackBottom ≤ i →
        (call.after image).bytes[i]? = image.bytes[i]?) ∧
      ∀ block ∈ image.blocks, block.payload ∈ image.live →
        block.payload ∈ (call.after image).live →
        block ∈ (call.after image).blocks ∧
        image.SameBytes (call.after image) block.payload block.stop) ∧
    ∀ block ∈ image.blocks, block.payload ∈ image.live → ∀ calls : List Action,
      (∀ call ∈ calls, call.ofAllocator = true ∧ call ≠ .release block.payload) →
      ∀ address size, block.payload ≤ address → address + size ≤ block.stop →
        (calls.foldl Action.after image).readBytes address size = image.readBytes address size ∧
        ∀ table type, StructTable.sizeOf table type = .ok size →
          (calls.foldl Action.after image).read table address type =
            image.read table address type := by
  obtain ⟨blocks, sound⟩ := h.heapIs
  rw [sound.blocks_eq]
  refine ⟨fun address live => sound.exists_block_of_live live, fun call ours => ?_, ?_⟩
  · obtain ⟨blocks', sound', foreign, stays⟩ := sound.foreign_after ours
    refine ⟨fun i outside => foreign i (by unfold Foreign; tauto), fun block mem live after => ?_⟩
    have used := sound.mem_usedBlocks_of_live mem live
    have other : call ≠ .release block.payload := by
      rintro rfl
      exact sound.notMem_live_after_release _ after
    rw [sound'.blocks_eq]
    refine ⟨(mem_usedBlocks.1 (stays block used other)).1, fun i lower upper => ?_⟩
    exact foreign i (.inr (.inr ⟨block, used, lower, upper⟩))
  · intro block mem live calls others address size lower upper
    obtain ⟨-, same⟩ :=
      sound.sameBytes_afterAll (sound.mem_usedBlocks_of_live mem live) calls others
    have total : (calls.foldl Action.after image).size = image.size :=
      congrArg Shape.size (Action.shape_afterAll image calls)
    have own := same.mono lower upper
    exact ⟨readBytes_congr total own, fun table type sized => read_congr sized total own⟩

/-- Two allocations with a gap between them: what was written to the second is read back after the
gap was filled and the first was released. -/
theorem allocator_spares_second_allocation :
    let image := (Action.write 40 [1, 2, 3, 4]).after gapped
    ([Action.allocate 4, .release 16, .allocate 9].foldl Action.after image).readBytes 40 4 =
      .ok [1, 2, 3, 4] := by
  intro image
  have tags : (Action.write 40 [1, 2, 3, 4]).SparesTags gapped := by
    have apart : ∀ block ∈ gapped.blocks,
        block.address + tagSize ≤ 40 ∨ 40 + 4 ≤ block.address := by decide +kernel
    exact fun block mem => (write_written gapped 40 [1, 2, 3, 4]).sameBytes (apart block mem)
  obtain ⟨-, -, stays⟩ := allocator_spares_user_data (uncorrupted_gapped.next _ (.inr tags))
  have same := stays ⟨32, 12, false⟩ (by decide +kernel) (by decide +kernel)
    [.allocate 4, .release 16, .allocate 9]
    (by simp [Action.ofAllocator, Block.payload, tagSize]) 40 4 (by decide) (by decide)
  rw [same.1]
  decide +kernel

end FlatC.Image

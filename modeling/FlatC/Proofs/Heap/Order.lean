import FlatC.Proofs.Heap.Uncorrupted

/-!
# The order of releases does not matter

Which tags a release writes depends on which neighbours are free at that moment, so two orders of
the same releases take different ways through the heap.  They meet in the end because the blocks of
a heap are determined by the used ones among them: where no two free blocks are neighbours, every
gap between used blocks is one free block.

* `Tiles.eq_of_usedBlocks_eq` says so of any two lists of blocks that cover the same range;
* `HeapIs.releaseAll_eq` says what releasing some allocations leaves: all the other used blocks;
* `releases_commute_and_coalesce` is what follows for all orders, and for a heap in which nothing is
  left.
-/

namespace FlatC

/-! ## Used blocks determine all blocks -/

@[simp] theorem usedBlocks_cons_of_used {block : Block} (h : block.free = false)
    (rest : List Block) : usedBlocks (block :: rest) = block :: usedBlocks rest := by
  simp [usedBlocks, h]

theorem mem_usedBlocks {blocks : List Block} {block : Block} :
    block ∈ usedBlocks blocks ↔ block ∈ blocks ∧ block.free = false := by
  simp [usedBlocks]

namespace Tiles

variable {start stop : Nat} {block : Block} {blocks : List Block}

theorem start_le_stop (h : Tiles start blocks stop) : start ≤ stop := by
  induction blocks generalizing start with
  | nil => exact Nat.le_of_eq h
  | cons head rest ih =>
    obtain ⟨rfl, -, more⟩ := h
    exact Nat.le_trans (Nat.le_add_right ..) (ih more)

theorem start_le_of_mem (h : Tiles start blocks stop) (mem : block ∈ blocks) :
    start ≤ block.address := by
  induction blocks generalizing start with
  | nil => cases mem
  | cons head rest ih =>
    obtain ⟨rfl, -, more⟩ := h
    rcases List.mem_cons.1 mem with rfl | later
    · exact Nat.le_refl _
    · exact Nat.le_trans (Nat.le_add_right ..) (ih more later)

/-- No list with a block in it covers an empty range. -/
theorem lt_stop (h : Tiles start (block :: blocks) stop) : start < stop := by
  obtain ⟨rfl, room, more⟩ := h
  have := more.start_le_stop
  simp only [Block.stop] at this
  simp only [tagSize] at room
  omega

/-- Behind the first block no other block has its address. -/
theorem notMem_tail (h : Tiles start (block :: blocks) stop) {other : Block}
    (same : other.address = start) : other ∉ blocks := by
  intro mem
  obtain ⟨rfl, room, more⟩ := h
  have := more.start_le_of_mem mem
  simp only [Block.stop] at this
  simp only [tagSize] at room
  omega

/-- A range that does not start with a free block starts at its first used block, or is empty. -/
theorem start_eq (h : Tiles start blocks stop) (first : ∀ head ∈ blocks.head?, head.free = false) :
    start = ((usedBlocks blocks).head?.map Block.address).getD stop := by
  cases blocks with
  | nil => exact h
  | cons head rest =>
    rw [usedBlocks_cons_of_used (first head rfl)]
    exact h.1.symm

/-- Two lists of blocks that cover the same range and have the same used blocks are the same, if no
two free blocks are neighbours in either of them. -/
theorem eq_of_usedBlocks_eq {others : List Block} (h : Tiles start blocks stop)
    (h' : Tiles start others stop) (apart : blocks.IsChain Image.Apart)
    (apart' : others.IsChain Image.Apart) (same : usedBlocks blocks = usedBlocks others) :
    blocks = others := by
  induction blocks generalizing start others with
  | nil =>
    cases others with
    | nil => rfl
    | cons y ys => exact absurd (h'.lt_stop) (Nat.not_lt.2 (Nat.le_of_eq h.symm))
  | cons x xs ih =>
    cases others with
    | nil => exact absurd (h.lt_stop) (Nat.not_lt.2 (Nat.le_of_eq h'.symm))
    | cons y ys =>
      obtain ⟨startX, -, moreX⟩ := id h
      obtain ⟨startY, -, moreY⟩ := id h'
      cases freeX : x.free with
      | false =>
        cases freeY : y.free with
        | false =>
          rw [usedBlocks_cons_of_used freeX, usedBlocks_cons_of_used freeY] at same
          obtain ⟨rfl, rest⟩ := List.cons.inj same
          rw [ih moreX moreY apart.tail apart'.tail rest]
        | true =>
          -- The used block would stand behind the free one that starts where it does.
          rw [usedBlocks_cons_of_used freeX, usedBlocks_cons_of_free freeY] at same
          have later : x ∈ usedBlocks ys := same ▸ List.mem_cons_self
          exact absurd (mem_usedBlocks.1 later).1 (h'.notMem_tail startX)
      | true =>
        cases freeY : y.free with
        | false =>
          rw [usedBlocks_cons_of_free freeX, usedBlocks_cons_of_used freeY] at same
          have later : y ∈ usedBlocks xs := same ▸ List.mem_cons_self
          exact absurd (mem_usedBlocks.1 later).1 (h.notMem_tail startY)
        | true =>
          rw [usedBlocks_cons_of_free freeX, usedBlocks_cons_of_free freeY] at same
          -- Both free blocks reach up to the next used one.
          have nextX : ∀ head ∈ xs.head?, head.free = false := by
            intro head first
            simpa [Image.Apart, freeX] using apart.rel_head? first
          have nextY : ∀ head ∈ ys.head?, head.free = false := by
            intro head first
            simpa [Image.Apart, freeY] using apart'.rel_head? first
          have stops : x.stop = y.stop := by
            rw [moreX.start_eq nextX, moreY.start_eq nextY, same]
          have both : x = y := by
            obtain ⟨addressX, lengthX, _⟩ := x
            obtain ⟨addressY, lengthY, _⟩ := y
            simp only [Block.stop] at stops startX startY freeX freeY
            subst startX startY freeX freeY
            rw [Nat.add_left_cancel stops]
          subst both
          rw [ih moreX moreY apart.tail apart'.tail same]

end Tiles

namespace Image

variable {config : Regions} {image image' : Image} {blocks front back : List Block} {block : Block}
  {previous start stop : Nat}

/-- Two chains of the same blocks have the same links. -/
theorem Chain.wordAt_eq {stop' : Nat} (h : image.Chain previous start blocks stop)
    (h' : image'.Chain previous start blocks stop') (mem : block ∈ blocks) :
    image.wordAt block.address = image'.wordAt block.address := by
  induction blocks generalizing previous start with
  | nil => cases mem
  | cons head rest ih =>
    obtain ⟨-, tagged, more⟩ := h
    obtain ⟨-, tagged', more'⟩ := h'
    rcases List.mem_cons.1 mem with rfl | later
    · rw [tagged.link, tagged'.link]
    · exact ih more more' later

namespace HeapIs

theorem eq_of_usedBlocks_eq {others : List Block} (h : image.HeapIs blocks)
    (h' : image'.HeapIs others) (bottom : image'.heapBottom = image.heapBottom)
    (top : image'.stackBottom = image.stackBottom) (same : usedBlocks blocks = usedBlocks others) :
    blocks = others := by
  have tiles := h'.chain.tiles
  rw [bottom, top] at tiles
  exact h.chain.tiles.eq_of_usedBlocks_eq tiles h.coalesced h'.coalesced same

theorem readWord_eq (h : image.HeapIs blocks) (mem : block ∈ blocks) :
    image.readWord block.address = .ok (image.wordAt block.address) := by
  obtain ⟨-, own, upper⟩ := h.chain.bounds mem
  have stack := h.laid.stack
  refine image.readWord_eq ?_
  simp only [tagSize] at own
  simp only [wordSize]
  omega

/-! ## Releasing several allocations -/

/-- The blocks that stay used are those at other addresses. -/
theorem usedBlocks_others (h : image.HeapIs (front ++ block :: back)) (used : block.free = false) :
    usedBlocks (front ++ back) =
      (usedBlocks (front ++ block :: back)).filter fun other => other.payload ≠ block.payload := by
  have nodup := h.chain.nodup_usedPayloads
  rw [usedPayloads_append, usedPayloads_cons, used, List.nodup_append] at nodup
  obtain ⟨-, upper, apart⟩ := nodup
  have below : ∀ other ∈ usedBlocks front, other.payload ≠ block.payload := by
    intro other mem
    exact apart _ (List.mem_map_of_mem mem) _ List.mem_cons_self
  have above : ∀ other ∈ usedBlocks back, other.payload ≠ block.payload := by
    intro other mem same
    exact (List.nodup_cons.1 upper).1 (same ▸ List.mem_map_of_mem mem)
  rw [usedBlocks_append, usedBlocks_append, List.filter_append, usedBlocks_cons_of_used used,
    List.filter_cons_of_neg (by simp), List.filter_eq_self.2 (by simpa using below),
    List.filter_eq_self.2 (by simpa using above)]

end HeapIs

/-- Frees allocations one after another. -/
def releaseAll : List Nat → Store Unit
  | [] => pure ()
  | address :: rest => do
    release address
    releaseAll rest

/-- Releasing different allocations succeeds, and all other used blocks stay. -/
theorem HeapIs.releaseAll_eq {order : List Nat} (h : image.HeapIs blocks) (distinct : order.Nodup)
    (live : ∀ address ∈ order, address ∈ image.live) :
    ∃ image' blocks', releaseAll order image = .ok () image' ∧ image'.HeapIs blocks' ∧
      image'.heapBottom = image.heapBottom ∧ image'.stackBottom = image.stackBottom ∧
      usedBlocks blocks' =
        (usedBlocks blocks).filter fun block => decide (block.payload ∉ order) := by
  induction order generalizing image blocks with
  | nil => exact ⟨image, blocks, rfl, h, rfl, rfl, by simp⟩
  | cons address rest ih =>
    obtain ⟨fresh, distinctRest⟩ := List.nodup_cons.1 distinct
    rcases h.release_cases address with ⟨dead, -⟩ |
      ⟨front, block, back, image₁, blocks₁, rfl, used, rfl, done, only, -, sound, left⟩
    · exact absurd (live address List.mem_cons_self) dead
    -- The allocations that are still to be released are live yet.
    have liveRest : ∀ other ∈ rest, other ∈ image₁.live := by
      intro other mem
      rw [only.live]
      refine (List.mem_erase_of_ne ?_).2 (live other (List.mem_cons_of_mem _ mem))
      rintro rfl
      exact fresh mem
    obtain ⟨image₂, blocks₂, more, sound₂, bottom, top, left₂⟩ := ih sound distinctRest liveRest
    refine ⟨image₂, blocks₂, (Step.bind_of_ok done).trans more, sound₂,
      bottom.trans only.heapBottom, top.trans only.stackBottom, ?_⟩
    rw [left₂, left, h.usedBlocks_others used, List.filter_filter]
    refine List.filter_congr fun other _ => ?_
    simp [Bool.and_comm]

/-- **Releases commute, and a heap without allocations is one block.**  In every heap with intact
tags, different live allocations can be released in every order: each release succeeds, and all
orders lead to the same blocks, the same links and the same live allocations.  Where no allocation
is live, the heap is one free block. -/
theorem releases_commute_and_coalesce (h : Uncorrupted config image) :
    (∀ order order' : List Nat, order.Perm order' → order.Nodup →
      (∀ address ∈ order, address ∈ image.live) →
      ∃ image₁ image₂,
        releaseAll order image = .ok () image₁ ∧ releaseAll order' image = .ok () image₂ ∧
        image₁.blocks = image₂.blocks ∧
        (∀ block ∈ image₁.blocks,
          image₁.readWord block.address = image₂.readWord block.address) ∧
        image₁.live.Perm image₂.live ∧
        ∀ address, address ∈ image₁.live ↔ address ∈ image.live ∧ address ∉ order) ∧
    (image.live = [] →
      image.blocks = [⟨image.heapBottom, image.stackBottom - image.heapBottom, true⟩]) := by
  obtain ⟨blocks, sound⟩ := h.heapIs
  refine ⟨fun order order' reordered distinct live => ?_, fun empty => ?_⟩
  · obtain ⟨image₁, blocks₁, done₁, sound₁, bottom₁, top₁, left₁⟩ :=
      sound.releaseAll_eq distinct live
    obtain ⟨image₂, blocks₂, done₂, sound₂, bottom₂, top₂, left₂⟩ :=
      sound.releaseAll_eq (reordered.nodup_iff.1 distinct) fun address mem =>
        live address (reordered.mem_iff.2 mem)
    have bottom : image₂.heapBottom = image₁.heapBottom := bottom₂.trans bottom₁.symm
    have top : image₂.stackBottom = image₁.stackBottom := top₂.trans top₁.symm
    have used : usedBlocks blocks₁ = usedBlocks blocks₂ := by
      rw [left₁, left₂]
      exact List.filter_congr fun block _ => by simp only [reordered.mem_iff]
    obtain rfl : blocks₁ = blocks₂ := sound₁.eq_of_usedBlocks_eq sound₂ bottom top used
    refine ⟨image₁, image₂, done₁, done₂, ?_, ?_, sound₁.live.trans sound₂.live.symm, ?_⟩
    · rw [sound₁.blocks_eq, sound₂.blocks_eq]
    · intro block mem
      rw [sound₁.blocks_eq] at mem
      have chain := sound₂.chain
      rw [bottom] at chain
      rw [sound₁.readWord_eq mem, sound₂.readWord_eq mem, sound₁.chain.wordAt_eq chain mem]
    · intro address
      rw [sound₁.live.mem_iff, sound.live.mem_iff, usedPayloads_eq, usedPayloads_eq, left₁]
      simp only [List.mem_map, List.mem_filter, decide_eq_true_eq]
      constructor
      · rintro ⟨block, ⟨mem, kept⟩, rfl⟩
        exact ⟨⟨block, mem, rfl⟩, kept⟩
      · rintro ⟨⟨block, mem, rfl⟩, kept⟩
        exact ⟨block, ⟨mem, kept⟩, rfl⟩
  · have room := h.room
    have nothing : usedBlocks blocks = [] := by
      have := sound.live
      rw [empty, usedPayloads_eq] at this
      exact List.map_eq_nil_iff.1 this.nil_eq.symm
    have whole : Tiles image.heapBottom
        [⟨image.heapBottom, image.stackBottom - image.heapBottom, true⟩] image.stackBottom := by
      refine ⟨rfl, ?_, ?_⟩
      · show tagSize ≤ image.stackBottom - image.heapBottom
        omega
      · show image.heapBottom + (image.stackBottom - image.heapBottom) = image.stackBottom
        omega
    rw [sound.blocks_eq]
    exact sound.chain.tiles.eq_of_usedBlocks_eq whole sound.coalesced (.singleton _) nothing

/-- In a heap with a gap between two allocations both orders leave one free block. -/
theorem releases_commute_around_a_gap :
    ∃ image₁ image₂, releaseAll [16, 40] gapped = .ok () image₁ ∧
      releaseAll [40, 16] gapped = .ok () image₂ ∧ image₁.blocks = image₂.blocks ∧
      image₁.blocks = [⟨8, 61, true⟩] := by
  obtain ⟨commute, -⟩ := releases_commute_and_coalesce uncorrupted_gapped
  obtain ⟨image₁, image₂, done, done', same, -, -, -⟩ :=
    commute [16, 40] [40, 16] (.swap ..) (by decide) (by decide +kernel)
  have left : image₁ = (releaseAll [16, 40]).after gapped := by rw [Store.after, done]
  exact ⟨image₁, image₂, done, done', same, by rw [left]; decide +kernel⟩

end Image

end FlatC

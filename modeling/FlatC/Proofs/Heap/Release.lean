import FlatC.Proofs.Heap.Allocate

/-!
# Release keeps the heap sound

Releasing an allocation turns its block into a free one and lets it grow over the free blocks on
either side.  While that goes on, the heap is a chain up to the growing block and another chain
behind it, whose first link is out of date; `Opened` is that state.

* `Opened.mergeBefore_grows` and `Opened.mergeAfter_grows` let the free block grow;
* `HeapIs.release_cases` is everything that a release can do to a sound heap; it writes to tags
  alone.
-/

namespace FlatC

/-- The block, free. -/
def Block.freed (block : Block) : Block :=
  ⟨block.address, block.length, true⟩

/-- The free block that covers two neighbours. -/
def Block.merge (first second : Block) : Block :=
  ⟨first.address, first.length + second.length, true⟩

theorem Block.freed_merge (first second : Block) :
    (first.merge second).freed = first.merge second := rfl

/-- The used ones of some blocks. -/
def usedBlocks (blocks : List Block) : List Block :=
  blocks.filter fun block => !block.free

@[simp] theorem usedBlocks_append (front back : List Block) :
    usedBlocks (front ++ back) = usedBlocks front ++ usedBlocks back :=
  List.filter_append ..

@[simp] theorem usedBlocks_cons_of_free {block : Block} (h : block.free = true)
    (rest : List Block) : usedBlocks (block :: rest) = usedBlocks rest := by
  simp [usedBlocks, h]

theorem usedPayloads_eq (blocks : List Block) :
    usedPayloads blocks = (usedBlocks blocks).map Block.payload := rfl

namespace Image

variable {image image' : Image} {front back blocks : List Block} {block before after : Block}

/-! ## A free block that is still growing -/

/-- A free block stands between a chain below it and a chain above it whose first link may be out
of date. -/
structure Opened (image : Image) (front : List Block) (block : Block) (back : List Block) :
    Prop where
  laid : image.Laid
  below : image.Chain image.heapBottom image.heapBottom (front ++ [block.freed]) block.stop
  above : ∃ old, image.Chain old block.stop back image.stackBottom

namespace Opened

theorem bounds (h : image.Opened front block back) :
    image.heapBottom ≤ block.address ∧ block.address + tagSize ≤ block.stop ∧
      block.stop ≤ image.stackBottom := by
  obtain ⟨old, above⟩ := h.above
  obtain ⟨lower, own, -⟩ := h.below.bounds (List.mem_append_right front List.mem_cons_self)
  exact ⟨lower, own, above.start_le_stop⟩

/-- Writing the tag of a free block over a block of a chain, so that it covers what follows
there. -/
theorem mark (block : Block) {low : Block} {stop : Nat} (laid : image.Laid)
    (h : image.Chain image.heapBottom image.heapBottom (front ++ low :: blocks) stop)
    (above : ∃ old, image.Chain old block.stop back image.stackBottom)
    (address : block.address = low.address) (covers : stop ≤ block.stop) :
    markBlock block.address block.length true image = .ok () (image.marked block.freed) ∧
      (image.marked block.freed).Opened front block back := by
  obtain ⟨old, above⟩ := above
  obtain ⟨lower, own, upper⟩ := h.bounds (List.mem_append_right front List.mem_cons_self)
  have top := above.start_le_stop
  have short := laid.short
  have stack := laid.stack
  have only := image.onlyBytes_marked block.freed
  have fits : block.address + block.length ≤ image.stackBottom := top
  have room : tagSize ≤ block.length := by
    have : stop ≤ block.address + block.length := covers
    omega
  have small : block.freed.length < freeFlag := show block.length < freeFlag by omega
  have inside : block.freed.address + tagSize ≤ image.size :=
    show block.address + tagSize ≤ image.size by omega
  refine ⟨image.markBlock_eq block.freed small inside, laid.of_onlyBytes only, ?_, old, ?_⟩
  · rw [only.heapBottom]
    exact h.mark address room small inside
  · rw [only.stackBottom]
    exact above.above (image.sameBytes_marked _ (.inr (Nat.add_le_add_left room _)))

/-- A free block before the growing one becomes part of it. -/
theorem mergeBefore_free (h : image.Opened (front ++ [before]) block back)
    (free : before.free = true) :
    mergeBefore block (some before) image =
        .ok (before.merge block) (image.marked (before.merge block)) ∧
      (image.marked (before.merge block)).Opened front (before.merge block) back := by
  have chain := h.below
  rw [List.append_assoc] at chain
  obtain ⟨middle, -, -, -, next, -⟩ := chain_append.1 chain
  have stop : (before.merge block).stop = block.stop := by
    have : block.address = before.stop := next
    simp only [Block.stop, Block.merge] at this ⊢
    omega
  obtain ⟨written, opened⟩ := mark (before.merge block) h.laid chain (by rw [stop]; exact h.above)
    rfl (Nat.le_of_eq stop.symm)
  rw [Block.freed_merge] at written opened
  refine ⟨?_, opened⟩
  simp only [Image.mergeBefore, if_pos free]
  exact Step.bind_of_ok written

/-- The block after the growing one is read from its tag, which its link does not matter to. -/
theorem blockAt_stop (h : image.Opened front block (after :: back)) :
    block.stop < image.stackBottom ∧ image.blockAt block.stop = .ok after := by
  obtain ⟨old, next, tagged, above⟩ := h.above
  obtain ⟨lower, own, -⟩ := h.bounds
  have upper := above.start_le_stop
  have room := tagged.lt_stop
  simp only [tagSize] at room own
  refine ⟨by omega, ?_⟩
  rw [← next]
  exact tagged.blockAt_eq h.laid (by omega) upper

/-- A free block after the growing one becomes part of it. -/
theorem mergeAfter_free (h : image.Opened front block (after :: back)) (free : after.free = true) :
    mergeAfter block image = .ok (block.merge after) (image.marked (block.merge after)) ∧
      (image.marked (block.merge after)).Opened front (block.merge after) back := by
  obtain ⟨inHeap, found⟩ := h.blockAt_stop
  obtain ⟨old, next, tagged, above⟩ := h.above
  have stop : (block.merge after).stop = after.stop := by
    simp only [Block.stop, Block.merge] at next ⊢
    omega
  have covers : block.stop ≤ (block.merge after).stop := by
    simp only [Block.stop, Block.merge]
    omega
  obtain ⟨written, opened⟩ := mark (block.merge after) h.laid h.below
    ⟨_, by rw [stop]; exact above⟩ rfl covers
  rw [Block.freed_merge] at written opened
  refine ⟨?_, opened⟩
  have asked : query (·.blockAt block.stop) image = .ok after image := by
    simp only [query, found]
  have present : (get : Store Image) image = .ok image image := rfl
  refine (Step.bind_of_ok present).trans ?_
  simp only [if_pos inHeap]
  refine (Step.bind_of_ok asked).trans ?_
  simp only [if_pos free]
  exact Step.bind_of_ok written

/-! ### Growing in both directions -/

/-- However the growing block is met from below, afterwards no free block stands before it. -/
theorem mergeBefore_grows (h : image.Opened front block back) (apart : front.IsChain Apart) :
    ∃ image' block' front', mergeBefore block front.getLast? image = .ok block' image' ∧
      image'.Opened front' block' back ∧ image.OnlyBytes image' ∧ image.OnlyTags front image' ∧
      (∃ low ∈ front ++ [block], low.address = block'.address) ∧ front' <+: front ∧
      usedBlocks front' = usedBlocks front ∧ ∀ before ∈ front'.getLast?, before.free = false := by
  rcases List.eq_nil_or_concat' front with rfl | ⟨lower, before, rfl⟩
  · exact ⟨image, block, [], rfl, h, .refl image, .refl image _, ⟨block, by simp, rfl⟩,
      List.prefix_rfl, rfl, by simp⟩
  cases free : before.free with
  | false =>
    refine ⟨image, block, lower ++ [before], ?_, h, .refl image, .refl image _,
      ⟨block, by simp, rfl⟩, List.prefix_rfl, rfl, by simpa⟩
    simp only [List.getLast?_concat, Image.mergeBefore, free]
    rfl
  | true =>
    obtain ⟨merged, opened⟩ := h.mergeBefore_free free
    refine ⟨_, before.merge block, lower, ?_, opened, image.onlyBytes_marked _, ?_,
      ⟨before, by simp, rfl⟩, List.prefix_append .., ?_, ?_⟩
    · rw [List.getLast?_concat]
      exact merged
    · refine (image.onlyTags_marked _).mono fun other mem => ?_
      obtain rfl := List.mem_singleton.1 mem
      exact ⟨before, by simp, rfl⟩
    · rw [usedBlocks_append, usedBlocks_cons_of_free free]
      exact (List.append_nil _).symm
    · intro other last
      obtain ⟨-, -, seam⟩ := List.isChain_append.1 apart
      have := seam other last before (by simp)
      simpa [Apart, free] using this

/-- However the growing block is met from above, afterwards no free block stands after it. -/
theorem mergeAfter_grows (h : image.Opened front block back) (apart : back.IsChain Apart) :
    ∃ image' block' back', mergeAfter block image = .ok block' image' ∧
      image'.Opened front block' back' ∧ image.OnlyBytes image' ∧ image.OnlyTags [block] image' ∧
      back' <:+ back ∧ usedBlocks back' = usedBlocks back ∧
      ∀ after ∈ back'.head?, after.free = false := by
  have present : (get : Store Image) image = .ok image image := rfl
  cases back with
  | nil =>
    obtain ⟨old, stop⟩ := h.above
    refine ⟨image, block, [], ?_, h, .refl image, .refl image _, List.suffix_rfl, rfl, by simp⟩
    have outside : ¬ block.stop < image.stackBottom := Nat.not_lt.2 (Nat.le_of_eq stop.symm)
    refine (Step.bind_of_ok present).trans ?_
    simp only [if_neg outside]
    rfl
  | cons after higher =>
    cases free : after.free with
    | false =>
      obtain ⟨inHeap, found⟩ := h.blockAt_stop
      refine ⟨image, block, after :: higher, ?_, h, .refl image, .refl image _, List.suffix_rfl,
        rfl, by simpa⟩
      have asked : query (·.blockAt block.stop) image = .ok after image := by
        simp only [query, found]
      refine (Step.bind_of_ok present).trans ?_
      simp only [if_pos inHeap]
      refine (Step.bind_of_ok asked).trans ?_
      simp only [free]
      rfl
    | true =>
      obtain ⟨merged, opened⟩ := h.mergeAfter_free free
      refine ⟨_, block.merge after, higher, merged, opened, image.onlyBytes_marked _, ?_,
        List.suffix_cons .., (usedBlocks_cons_of_free free _).symm, ?_⟩
      · refine (image.onlyTags_marked _).mono fun other mem => ?_
        obtain rfl := List.mem_singleton.1 mem
        exact ⟨block, List.mem_cons_self, rfl⟩
      · intro other first
        have := apart.rel_head? first
        simpa [Apart, free] using this

/-- Behind a block that has grown, only the tag of the next block is written. -/
theorem onlyTags_linked (h : image.Opened front block back) (tag : Nat) :
    image.OnlyTags back (image.linked block.stop tag) := by
  obtain ⟨old, above⟩ := h.above
  cases back with
  | nil =>
    have done : ¬ block.stop < image.stackBottom := Nat.not_lt.2 (Nat.le_of_eq above.symm)
    rw [linked, if_neg done]
    exact .refl image _
  | cons after higher =>
    obtain ⟨next, -, -⟩ := above
    exact image.onlyTags_linked fun _ => ⟨List.mem_cons_self, next⟩

/-- Linking the block behind a block that has stopped growing closes the heap again. -/
theorem close (h : image.Opened front block back)
    (apartFront : front.IsChain Apart) (apartBack : back.IsChain Apart)
    (before : ∀ other ∈ front.getLast?, other.free = false)
    (after : ∀ other ∈ back.head?, other.free = false)
    (live : image.live.Perm (usedPayloads (front ++ back))) :
    linkBack block.stop block.address image = .ok () (image.linked block.stop block.address) ∧
      (image.linked block.stop block.address).HeapIs (front ++ block.freed :: back) := by
  obtain ⟨old, above⟩ := h.above
  obtain ⟨lower, own, upper⟩ := h.bounds
  have stack := h.laid.stack
  have addressable := h.laid.addressable
  have only := image.onlyBytes_linked block.stop block.address
  have inside : block.stop < image.stackBottom → block.stop + wordSize ≤ image.size := by
    intro more
    have := above.room more
    simp only [tagSize] at this
    simp only [wordSize]
    omega
  have chain : (image.linked block.stop block.address).Chain image.heapBottom image.heapBottom
      ((front ++ [block.freed]) ++ back) image.stackBottom :=
    h.below.link above stack (show block.address < wordRange by omega)
  refine ⟨image.linkBack_eq inside, h.laid.of_onlyBytes only, ?_, ?_, ?_⟩
  · rw [only.heapBottom, only.stackBottom]
    simpa using chain
  · refine apartFront.append (apartBack.cons fun other first => ?_) fun x last y first => ?_
    · rintro ⟨-, free⟩
      rw [after other first] at free
      cases free
    · rintro ⟨free, -⟩
      rw [before x last] at free
      cases free
  · rw [only.live]
    simpa [Block.freed] using live

/-- What a release does to a block that is free already: it grows as far as it can, and the block
behind it is linked to it.  All tags that are written were there before. -/
theorem coalesce (h : image.Opened front block back) (apartFront : front.IsChain Apart)
    (apartBack : back.IsChain Apart) (live : image.live.Perm (usedPayloads (front ++ back))) :
    ∃ image' blocks',
      (mergeBefore block front.getLast? >>= fun block => mergeAfter block >>= fun block =>
        linkBack block.stop block.address) image = .ok () image' ∧
      image.OnlyBytes image' ∧ image.OnlyTags (front ++ block :: back) image' ∧
      image'.HeapIs blocks' ∧ usedBlocks blocks' = usedBlocks (front ++ back) := by
  obtain ⟨image₁, block₁, front₁, merged₁, opened₁, only₁, tags₁, low, lower, used₁, last⟩ :=
    h.mergeBefore_grows apartFront
  obtain ⟨image₂, block₂, back₂, merged₂, opened₂, only₂, tags₂, higher, used₂, first⟩ :=
    opened₁.mergeAfter_grows apartBack
  have only := only₁.trans only₂
  have live₂ : image₂.live.Perm (usedPayloads (front₁ ++ back₂)) := by
    rw [only.live, usedPayloads_eq, usedBlocks_append, used₁, used₂, ← usedBlocks_append]
    exact live
  have apart₁ : front₁.IsChain Apart := by
    obtain ⟨rest, rfl⟩ := lower
    exact apartFront.left_of_append
  have apart₂ : back₂.IsChain Apart := by
    obtain ⟨rest, rfl⟩ := higher
    exact apartBack.right_of_append
  obtain ⟨linked, sound⟩ := opened₂.close apart₁ apart₂ last first live₂
  refine ⟨_, _, ?_, only.trans (image₂.onlyBytes_linked ..), ?_, sound, ?_⟩
  · exact (Step.bind_of_ok merged₁).trans ((Step.bind_of_ok merged₂).trans linked)
  · have below : image.OnlyTags (front ++ block :: back) image₁ :=
      tags₁.mono fun other mem => ⟨other, by simp [mem], rfl⟩
    have own : image₁.OnlyTags (front ++ block :: back) image₂ := by
      obtain ⟨first, among, same⟩ := low
      refine tags₂.mono fun other mem => ⟨first, ?_, by rw [same, List.mem_singleton.1 mem]⟩
      simp only [List.mem_append, List.mem_cons] at among ⊢
      tauto
    have above : image₂.OnlyTags (front ++ block :: back)
        (image₂.linked block₂.stop block₂.address) := by
      refine (opened₂.onlyTags_linked block₂.address).mono fun other mem => ⟨other, ?_, rfl⟩
      simp [higher.subset mem]
    exact (below.trans own).trans above
  · rw [usedBlocks_append, usedBlocks_cons_of_free rfl, used₁, used₂, usedBlocks_append]

end Opened

/-! ## Release -/

namespace HeapIs

/-- The block of a live allocation and the block before it are found from their tags. -/
theorem releasePlan_eq (h : image.HeapIs (front ++ block :: back)) (used : block.free = false) :
    image.releasePlan block.payload = .ok (block, front.getLast?) := by
  have live : image.isLive block.payload = true := by
    have : block.payload ∈ image.live := h.mem_live_iff.2 ⟨block, by simp, used, rfl⟩
    simpa [isLive] using this
  obtain ⟨middle, below, rfl, tagged, above⟩ := chain_append.1 h.chain
  have lower := below.start_le_stop
  have upper := above.start_le_stop
  have room := tagged.lt_stop
  have stack := h.laid.stack
  simp only [tagSize] at room
  have found : image.blockAt (block.payload - tagSize) = .ok block := by
    rw [Block.payload, Nat.add_sub_cancel]
    exact tagged.blockAt_eq h.laid lower upper
  have linkRead : image.readWord block.address = .ok (lastTag image.heapBottom front) := by
    rw [readWord_eq image (by simp only [wordSize]; omega), tagged.link]
  unfold releasePlan
  simp only [bind, Except.bind, pure, Except.pure, live, found, linkRead, Bool.not_true,
    Bool.false_eq_true, if_false]
  rcases List.eq_nil_or_concat' front with rfl | ⟨below', before, rfl⟩
  · have first : lastTag image.heapBottom [] = block.address := below
    rw [if_pos first]
    rfl
  · obtain ⟨start, deeper, rfl, tag, stop⟩ := chain_append.1 below
    have low := deeper.start_le_stop
    have own := tag.lt_stop
    simp only [tagSize] at own
    have stop : before.stop = block.address := stop
    rw [lastTag_append_singleton, if_neg (by omega), if_neg (by omega),
      tag.blockAt_eq h.laid low (by omega)]
    simp only [stop, ne_eq, not_true, if_false, List.getLast?_concat]

/-- When the record of its allocation is gone, the tag of a used block is marked as that of a free
one. -/
theorem opened (h : image.HeapIs (front ++ block :: back)) (used : block.free = false) :
    markBlock block.address block.length true
          { image with live := image.live.erase block.payload } =
        .ok () ({ image with live := image.live.erase block.payload }.marked block.freed) ∧
      ({ image with live := image.live.erase block.payload }.marked block.freed).Opened front block
        back ∧
      (image.live.erase block.payload).Perm (usedPayloads (front ++ back)) := by
  obtain ⟨below, above, -, -, -⟩ := h.around
  have live : (image.live.erase block.payload).Perm (usedPayloads (front ++ back)) := by
    have payloads : (usedPayloads (front ++ block :: back)).Perm
        (block.payload :: usedPayloads (front ++ back)) := by
      simp [used]
    have erased := (h.live.trans payloads).erase block.payload
    rwa [List.erase_cons_head] at erased
  -- the record is kept apart from the bytes
  generalize start : ({ image with live := image.live.erase block.payload } : Image) = image₁
  have laid : image₁.Laid := by
    obtain ⟨h₁, h₂, h₃, h₄, h₅⟩ := h.laid
    rw [← start]
    exact ⟨h₁, h₂, h₃, h₄, h₅⟩
  have below₁ : image₁.Chain image₁.heapBottom image₁.heapBottom (front ++ [block]) block.stop := by
    rw [← start]
    exact below.congr fun _ _ => SameBytes.refl _ _ _
  have above₁ : image₁.Chain block.address block.stop back image₁.stackBottom := by
    rw [← start]
    exact above.congr fun _ _ => SameBytes.refl _ _ _
  obtain ⟨marked, opened⟩ := Opened.mark block laid below₁ ⟨_, above₁⟩ rfl (Nat.le_refl _)
  exact ⟨marked, opened, live⟩

/-- Everything that a release can do to a sound heap: refuse an address that is not live, or make
the block of the address free. -/
theorem release_cases (h : image.HeapIs blocks) (address : Nat) :
    (address ∉ image.live ∧ release address image = .error (.memory (.invalidFree address)) image) ∨
      ∃ front block back image' blocks', blocks = front ++ block :: back ∧ block.free = false ∧
        block.payload = address ∧ release address image = .ok () image' ∧
        { image with live := image.live.erase address }.OnlyBytes image' ∧
        image.OnlyTags blocks image' ∧ image'.HeapIs blocks' ∧
        usedBlocks blocks' = usedBlocks (front ++ back) := by
  by_cases live : address ∈ image.live
  swap
  · refine .inl ⟨live, ?_⟩
    have refused : query (·.releasePlan address) image =
        .error (.memory (.invalidFree address)) image := by
      simp [query, releasePlan, isLive, live, bind, Except.bind, throw, throwThe,
        MonadExceptOf.throw]
    exact Step.bind_of_error refused
  obtain ⟨block, mem, used, rfl⟩ := h.mem_live_iff.1 live
  obtain ⟨front, back, rfl⟩ := List.append_of_mem mem
  have plan : query (·.releasePlan block.payload) image = .ok (block, front.getLast?) image := by
    simp only [query, h.releasePlan_eq used]
  obtain ⟨apartFront, apartBack⟩ := List.isChain_split.1 h.coalesced
  obtain ⟨marked, opened, live₁⟩ := h.opened used
  have only := { image with live := image.live.erase block.payload }.onlyBytes_marked block.freed
  obtain ⟨image', blocks', grown, only', tags, sound, usedSame⟩ :=
    opened.coalesce apartFront.left_of_append apartBack.tail (by rw [only.live]; exact live₁)
  refine .inr ⟨front, block, back, image', blocks', rfl, used, rfl, ?_, only.trans only', ?_,
    sound, usedSame⟩
  · have forgotten : removeLive block.payload image =
        .ok () { image with live := image.live.erase block.payload } := rfl
    exact (Step.bind_of_ok plan).trans ((Step.bind_of_ok forgotten).trans
      ((Step.bind_of_ok marked).trans grown))
  · have marking : image.OnlyTags (front ++ block :: back)
        ({ image with live := image.live.erase block.payload }.marked block.freed) := by
      refine (onlyTags_marked _ block.freed).mono fun other mem => ?_
      exact ⟨block, by simp, by rw [List.mem_singleton.1 mem]; rfl⟩
    exact marking.trans tags

end HeapIs

end Image

end FlatC

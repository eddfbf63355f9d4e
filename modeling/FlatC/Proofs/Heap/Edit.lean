import FlatC.Heap.Release
import FlatC.Proofs.Heap.Chain

/-!
# Edits of a chain

The allocator changes tags one word at a time, and between two such steps the heap may not be a
chain at all: a block that has grown is not yet known to the one after it.  So the edits are
stated for the chain below a block and the chain above it on their own, and `Chain.link` joins
the two.

* `OnlyTags` says that two images differ in the tags of some blocks alone;
* `Chain.mark` writes the second word of a tag, which gives the last block of a chain a new
  length and a new flag;
* `Chain.extend` writes a new tag behind a chain;
* `Chain.link` corrects the link between a chain and the one behind it;
* `Chain.above` keeps the chain above an edit.
-/

namespace FlatC.Image

variable {image : Image} {previous start stop top : Nat} {block block' : Block}
  {front back blocks : List Block}

/-! ## The words that are written -/

/-- The image with the length and the flag of a block in its tag. -/
def marked (image : Image) (block : Block) : Image :=
  image.putWord (block.address + wordSize) block.mark

/-- The image with the block at `following`, if the heap does not end there, linked to the block
at `tag`. -/
def linked (image : Image) (following tag : Nat) : Image :=
  if following < image.stackBottom then image.putWord following tag else image

theorem onlyBytes_marked (image : Image) (block : Block) : image.OnlyBytes (image.marked block) :=
  image.onlyBytes_putWord ..

theorem onlyBytes_linked (image : Image) (following tag : Nat) :
    image.OnlyBytes (image.linked following tag) := by
  unfold linked
  split
  · exact image.onlyBytes_putWord ..
  · exact OnlyBytes.refl image

theorem markBlock_eq (image : Image) (block : Block) (short : block.length < freeFlag)
    (inside : block.address + tagSize ≤ image.size) :
    markBlock block.address block.length block.free image = .ok () (image.marked block) := by
  have within : block.address + 4 + wordSize ≤ image.size := inside
  rw [markBlock, writeWord_eq image _ within, Nat.mod_eq_of_lt short]
  rfl

theorem linkBack_eq (image : Image) {following tag : Nat}
    (inside : following < image.stackBottom → following + wordSize ≤ image.size) :
    linkBack following tag image = .ok () (image.linked following tag) := by
  have present : (get : Store Image) image = .ok image image := rfl
  refine (Step.bind_of_ok present).trans ?_
  unfold linked
  by_cases h : following < image.stackBottom
  · simp only [if_pos h]
    exact writeWord_eq image tag (inside h)
  · simp only [if_neg h]
    rfl

theorem sameBytes_marked (image : Image) (block : Block) {start stop : Nat}
    (h : stop ≤ block.address + wordSize ∨ block.address + tagSize ≤ start) :
    image.SameBytes (image.marked block) start stop :=
  image.sameBytes_putWord _ h

theorem sameBytes_linked (image : Image) {following tag start stop : Nat}
    (h : stop ≤ following ∨ following + wordSize ≤ start) :
    image.SameBytes (image.linked following tag) start stop := by
  unfold linked
  split
  · exact image.sameBytes_putWord _ h
  · exact SameBytes.refl _ _ _

theorem mark_lt (short : block.length < freeFlag) : block.mark < wordRange := by
  have : freeFlag + freeFlag = wordRange := rfl
  unfold Block.mark
  split <;> omega

/-! ## Bytes that are no tags -/

/-- The two images agree on every byte that belongs to the tag of none of the blocks. -/
def OnlyTags (image : Image) (blocks : List Block) (image' : Image) : Prop :=
  ∀ i, (∀ block ∈ blocks, i < block.address ∨ block.address + tagSize ≤ i) →
    image'.bytes[i]? = image.bytes[i]?

theorem OnlyTags.refl (image : Image) (blocks : List Block) : image.OnlyTags blocks image :=
  fun _ _ => rfl

theorem OnlyTags.trans {a b c : Image} (hab : a.OnlyTags blocks b) (hbc : b.OnlyTags blocks c) :
    a.OnlyTags blocks c := by
  intro i outside
  rw [hbc i outside, hab i outside]

/-- What differs in the tags of some blocks differs in the tags of any blocks with tags there. -/
theorem OnlyTags.mono {image' : Image} {blocks' : List Block} (h : image.OnlyTags blocks image')
    (known : ∀ block ∈ blocks, ∃ other ∈ blocks', other.address = block.address) :
    image.OnlyTags blocks' image' := by
  intro i outside
  refine h i fun block mem => ?_
  obtain ⟨other, inside, same⟩ := known block mem
  rw [← same]
  exact outside other inside

theorem onlyTags_marked (image : Image) (block : Block) :
    image.OnlyTags [block] (image.marked block) := by
  intro i outside
  refine SameBytes.getElem?_eq (image.sameBytes_marked block ?_)
  rcases outside block List.mem_cons_self with below | above
  · exact .inl (by simp only [wordSize]; omega)
  · exact .inr above

theorem onlyTags_linked (image : Image) {following tag : Nat}
    (known : following < image.stackBottom → block ∈ blocks ∧ block.address = following) :
    image.OnlyTags blocks (image.linked following tag) := by
  intro i outside
  unfold linked
  split
  · rename_i more
    obtain ⟨mem, rfl⟩ := known more
    refine SameBytes.getElem?_eq (image.sameBytes_putWord tag ?_)
    rcases outside block mem with below | above
    · exact .inl below
    · exact .inr (by simp only [tagSize] at above; simp only [wordSize]; omega)
  · rfl

/-! ## Edits -/

/-- A chain is kept by an edit below it. -/
theorem Chain.above {image' : Image} (h : image.Chain previous start blocks stop)
    (same : image.SameBytes image' start stop) : image'.Chain previous start blocks stop := by
  refine h.congr fun other mem => ?_
  obtain ⟨lower, own, upper⟩ := h.bounds mem
  exact same.mono lower (by omega)

/-- Writing the second word of a tag gives the block there a new length and a new flag.  What
stood behind it is no longer part of the chain. -/
theorem Chain.mark (h : image.Chain previous start (front ++ block :: back) stop)
    (address : block'.address = block.address) (room : tagSize ≤ block'.length)
    (short : block'.length < freeFlag) (inside : block'.address + tagSize ≤ image.size) :
    (image.marked block').Chain previous start (front ++ [block']) block'.stop := by
  obtain ⟨middle, below, rfl, tagged, -⟩ := chain_append.1 h
  refine chain_append.2 ⟨block'.address, ?_, rfl, ⟨room, short, ?_, ?_⟩, rfl⟩
  · rw [address]
    refine below.above (image.sameBytes_marked _ (.inl ?_))
    rw [address]
    exact Nat.le_add_right ..
  · rw [wordAt_congr (image.sameBytes_marked _ (.inl (Nat.le_refl _))), address, tagged.link]
  · exact image.wordAt_putWord inside (mark_lt short)

/-- Writing both words of a tag behind a chain adds a block to it. -/
theorem Chain.extend (h : image.Chain previous start front block.address)
    (room : tagSize ≤ block.length) (short : block.length < freeFlag)
    (inside : block.address + tagSize ≤ image.size)
    (addressable : lastTag previous front < wordRange) :
    ((image.putWord block.address (lastTag previous front)).marked block).Chain previous start
      (front ++ [block]) block.stop := by
  have within : block.address + wordSize ≤ image.size := by
    simp only [tagSize] at inside
    simp only [wordSize]
    omega
  refine chain_append.2 ⟨block.address, ?_, rfl, ⟨room, short, ?_, ?_⟩, rfl⟩
  · have linked : image.SameBytes (image.putWord block.address (lastTag previous front)) start
        block.address := image.sameBytes_putWord _ (.inl (Nat.le_refl _))
    exact h.above (linked.trans (sameBytes_marked _ _ (.inl (Nat.le_add_right ..))))
  · rw [wordAt_congr (sameBytes_marked _ _ (.inl (Nat.le_refl _))),
      image.wordAt_putWord within addressable]
  · exact wordAt_putWord _ (by rw [(image.onlyBytes_putWord ..).size]; exact inside) (mark_lt short)

/-- Correcting the link between two chains joins them. -/
theorem Chain.link {old : Nat} (below : image.Chain previous start (front ++ [block]) block.stop)
    (above : image.Chain old block.stop back image.stackBottom)
    (inside : image.stackBottom ≤ image.size) (addressable : block.address < wordRange) :
    (image.linked block.stop block.address).Chain previous start ((front ++ [block]) ++ back)
      image.stackBottom := by
  refine chain_append.2 ⟨block.stop, below.above (sameBytes_linked _ (.inl (Nat.le_refl _))), ?_⟩
  rw [lastTag_append_singleton]
  refine above.relink (fun more => ?_) (sameBytes_linked _ (.inr (Nat.le_refl _)))
  have fits : block.stop + wordSize ≤ image.size := by
    have := above.room more
    simp only [tagSize] at this
    simp only [wordSize]
    omega
  rw [linked, if_pos more]
  exact image.wordAt_putWord fits addressable

end FlatC.Image

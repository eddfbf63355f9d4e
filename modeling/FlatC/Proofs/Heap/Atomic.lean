import FlatC.Proofs.Heap.Edit
import FlatC.Proofs.Heap.Overrun

/-!
# What a failed release leaves behind

A release reads the tag of its block and the tag of the block before it, and only then writes, so
nothing has happened yet if one of them is broken.  But it reads a third tag, the one behind the
block, when the allocation is already forgotten and the block already marked as free.  If that tag
is broken, the release fails and what it has written stays.

* `Image.BrokenAt` says that a release cannot get past the tag at an address;
* `Image.freeWithBefore_ok` says that the first part of a release never fails after its plan, and
  `Image.mergeAfter_linkBack_cases` when the second part does;
* `Image.failed_release_is_atomic_up_to_the_tag_behind` puts the two together for every image, and
  `Image.release_forgets_what_it_does_not_free` has a release that fails half way.
-/

namespace FlatC.Image

open Step

variable {image image' : Image} {address tag : Nat} {block : Block} {before : Option Block}
  {fault : Fault}

/-! ## Tags that have been read can be written -/

/-- A tag that describes a block lies in memory. -/
theorem inside_of_blockAt (found : image.blockAt tag = .ok block) :
    tag + tagSize ≤ image.size := by
  unfold blockAt at found
  obtain ⟨-, found⟩ := ok_of_guarded found
  obtain ⟨second, fits, found⟩ := bind_eq_ok.mp found
  obtain ⟨-, rfl⟩ := checkedWord_eq_ok.mp fits
  obtain ⟨word, read, -⟩ := bind_eq_ok.mp found
  by_cases inside : tag + 4 + wordSize ≤ image.size
  · exact inside
  · simp only [readWord, checkBounds, if_neg inside] at read
    cases read

/-- A tag that describes no block is corrupted, or ends behind all memory, or has no address for its
second word. -/
theorem fault_of_blockAt (failed : image.blockAt tag = .error fault) :
    fault = .memory (.heapCorrupted tag) ∨ fault = .memory (.outOfBounds (tag + 4) wordSize) ∨
      fault = .overflow .add := by
  unfold blockAt at failed
  by_cases outside : tag < image.heapBottom ∨ image.stackBottom ≤ tag
  · rw [if_pos outside] at failed
    cases failed
    exact .inl rfl
  rw [if_neg outside] at failed
  by_cases fits : tag + 4 < wordRange
  swap
  · rw [checkedWord_of_le (Nat.le_of_not_lt fits)] at failed
    cases failed
    exact .inr (.inr rfl)
  rw [checkedWord_of_lt fits] at failed
  by_cases inside : tag + 4 + wordSize ≤ image.size
  · simp only [bind, Except.bind, readWord_eq image inside] at failed
    split at failed
    · cases failed
    · cases failed
      exact .inl rfl
  · simp only [bind, Except.bind, readWord, checkBounds, if_neg inside] at failed
    cases failed
    exact .inr (.inl rfl)

theorem markBlock_ok (length : Nat) (free : Bool) (inside : tag + tagSize ≤ image.size) :
    ∃ image', markBlock tag length free image = .ok () image' ∧ image.OnlyBytes image' := by
  have within : tag + 4 + wordSize ≤ image.size := inside
  exact ⟨_, writeWord_eq image _ within, image.onlyBytes_putWord ..⟩

/-- A link that ends behind all memory is not written. -/
theorem linkBack_outside (tag : Nat) {following : Nat} (inHeap : following < image.stackBottom)
    (outside : image.size < following + wordSize) :
    linkBack following tag image = .error (.memory (.outOfBounds following wordSize)) image := by
  have written : linkBack following tag image = writeWord following tag image := by
    show (if following < image.stackBottom then writeWord following tag else pure ()) image = _
    rw [if_pos inHeap]
  rw [written]
  simp only [writeWord, checkBounds, if_neg (Nat.not_le.mpr outside)]

/-! ## The first part of a release -/

theorem mem_live_of_releasePlan (planned : image.releasePlan address = .ok (block, before)) :
    address ∈ image.live := by
  unfold releasePlan at planned
  obtain ⟨live, -⟩ := ok_of_guarded planned
  simpa [isLive] using live

theorem mergeBefore_ok (own : block.address + tagSize ≤ image.size)
    (inside : ∀ other, before = some other → other.address + tagSize ≤ image.size) :
    ∃ merged image', mergeBefore block before image = .ok merged image' ∧
      image.OnlyBytes image' ∧ merged.address + tagSize ≤ image.size := by
  cases before with
  | none => exact ⟨block, image, rfl, .refl image, own⟩
  | some other =>
    cases free : other.free with
    | false =>
      refine ⟨block, image, ?_, .refl image, own⟩
      simp only [mergeBefore, free]
      rfl
    | true =>
      have room := inside other rfl
      obtain ⟨image', marked, only⟩ := markBlock_ok (other.length + block.length) true room
      refine ⟨⟨other.address, other.length + block.length, true⟩, image', ?_, only, room⟩
      simp only [mergeBefore, if_pos free]
      exact bind_of_ok marked

/-- After a plan the block is freed, together with a free block before it.  Nothing changes from the
end of the block on. -/
theorem freeWithBefore_ok (planned : image.releasePlan address = .ok (block, before)) :
    ∃ merged freed, freeWithBefore address block before image = .ok merged freed ∧
      freed.live = image.live.erase address ∧ merged.stop = block.stop ∧
      merged.address + tagSize ≤ freed.size ∧
      Spares image.stackBottom image.heapBottom block.stop image freed := by
  obtain ⟨tagged, neighbour⟩ := blockAt_of_releasePlan planned
  obtain ⟨-, above, length, -⟩ := of_blockAt tagged
  have lower := precedes_of_releasePlan planned
  have forgotten : removeLive address image =
      .ok () { image with live := image.live.erase address } := rfl
  have own : block.address + tagSize ≤
      ({ image with live := image.live.erase address } : Image).size := inside_of_blockAt tagged
  obtain ⟨image₁, marked, only⟩ := markBlock_ok block.length true own
  have total : image₁.size = image.size := only.size
  have room : ∀ other, before = some other → other.address + tagSize ≤ image₁.size := by
    intro other present
    obtain ⟨described, -⟩ := neighbour other present
    rw [total]
    exact inside_of_blockAt described
  obtain ⟨merged, freed, joined, only', inside⟩ := mergeBefore_ok (total ▸ own) room
  have run : freeWithBefore address block before image = .ok merged freed :=
    ((bind_of_ok forgotten).trans (bind_of_ok marked)).trans joined
  have spares : Moves (Spares image.stackBottom image.heapBottom block.stop)
      (freeWithBefore address block before) := spares_freeWithBefore address above length lower
  have spared := spares image
  rw [run] at spared
  obtain ⟨-, -, stop⟩ := stop_of_freeWithBefore address above length lower image merged freed run
  refine ⟨merged, freed, run, ?_, stop, ?_, spared⟩
  · rw [only'.live, only.live]
  · rwa [only'.size]

/-! ## The second part of a release -/

/-- A release cannot get past the tag at an address of the heap: it describes no block, or a free
block that ends so close to the end of all memory that the link behind it does not fit. -/
def BrokenAt (image : Image) (tag : Nat) (fault : Fault) : Prop :=
  tag < image.stackBottom ∧
    (image.blockAt tag = .error fault ∨
      ∃ after, image.blockAt tag = .ok after ∧ after.free = true ∧
        after.stop < image.stackBottom ∧ image.size < after.stop + wordSize ∧
        fault = .memory (.outOfBounds after.stop wordSize))

theorem BrokenAt.unique {fault' : Fault} (h : image.BrokenAt tag fault)
    (h' : image.BrokenAt tag fault') : fault = fault' := by
  obtain ⟨-, failed | ⟨after, found, -, -, -, rfl⟩⟩ := h
  · obtain ⟨-, failed' | ⟨after', found', -⟩⟩ := h'
    · rw [failed] at failed'
      exact Except.error.inj failed'
    · rw [failed] at found'
      cases found'
  · obtain ⟨-, failed' | ⟨after', found', -, -, -, rfl⟩⟩ := h'
    · rw [found] at failed'
      cases failed'
    · rw [found] at found'
      cases found'
      rfl

/-- Where nothing behind an address changes, a tag there stays broken or intact. -/
theorem Spares.brokenAt_iff {start stop : Nat}
    (spares : Spares image.stackBottom start stop image image') :
    image'.BrokenAt stop fault ↔ image.BrokenAt stop fault := by
  obtain ⟨ends, -, size, -⟩ := spares rfl
  unfold BrokenAt
  rw [ends, size, spares.blockAt_eq]

/-- Merging with the block after and linking the one behind that fails at a broken tag, and nowhere
else. -/
theorem mergeAfter_linkBack_cases (inside : block.address + tagSize ≤ image.size) :
    ((∃ image', (mergeAfter block >>= fun merged => linkBack merged.stop merged.address) image =
        .ok () image') ∧ ∀ fault, ¬ image.BrokenAt block.stop fault) ∨
      ∃ fault image', (mergeAfter block >>= fun merged => linkBack merged.stop merged.address)
          image = .error fault image' ∧ image.BrokenAt block.stop fault ∧
        image'.live = image.live := by
  rcases mergeAfter_cases block image with
    ⟨inHeap, fault, broken, failed⟩ | ⟨kept, found⟩ | ⟨inHeap, after, found, free, merged⟩
  · exact .inr ⟨fault, image, bind_of_error failed, ⟨inHeap, .inl broken⟩, rfl⟩
  · left
    constructor
    · rw [bind_of_ok kept]
      refine ⟨_, image.linkBack_eq fun inHeap => ?_⟩
      obtain ⟨after, described, -⟩ := found inHeap
      have room := inside_of_blockAt described
      simp only [tagSize] at room
      simp only [wordSize]
      omega
    · rintro fault ⟨inHeap, broken | ⟨after, described, free, -⟩⟩
      · obtain ⟨after, described, -⟩ := found inHeap
        rw [broken] at described
        cases described
      · obtain ⟨after', described', used⟩ := found inHeap
        rw [described] at described'
        cases described'
        rw [free] at used
        cases used
  · obtain ⟨image₁, marked, only⟩ :=
      markBlock_ok (block.length + after.length) true inside
    have run := merged.trans (bind_of_ok marked)
    obtain ⟨address, -, -, -⟩ := of_blockAt found
    -- the merged block ends where the block after it ended
    have stop : Block.stop ⟨block.address, block.length + after.length, true⟩ = after.stop := by
      simp only [Block.stop] at address ⊢
      omega
    rw [bind_of_ok run, stop]
    by_cases fits : after.stop < image.stackBottom → after.stop + wordSize ≤ image.size
    · left
      constructor
      · refine ⟨_, image₁.linkBack_eq ?_⟩
        rwa [only.stackBottom, only.size]
      · rintro fault ⟨-, broken | ⟨after', described, -, before, outside, -⟩⟩
        · rw [found] at broken
          cases broken
        · rw [found] at described
          cases described
          have := fits before
          omega
    · obtain ⟨before, outside⟩ : after.stop < image.stackBottom ∧
          image.size < after.stop + wordSize := by
        simpa using fits
      have failed : linkBack after.stop block.address image₁ =
          .error (.memory (.outOfBounds after.stop wordSize)) image₁ := by
        apply linkBack_outside
        · rwa [only.stackBottom]
        · rwa [only.size]
      refine .inr ⟨_, image₁, failed, ⟨inHeap, .inr ⟨after, found, free, before, outside, rfl⟩⟩, ?_⟩
      exact only.live

/-! ## Releases -/

/-- Everything that a release can do to any image: fail with its plan and change nothing, succeed,
or fail at a broken tag behind the block, when the allocation is no longer recorded. -/
theorem release_outcomes (image : Image) (address : Nat) :
    (∃ fault, image.releasePlan address = .error fault ∧
      release address image = .error fault image) ∨
    ∃ block before, image.releasePlan address = .ok (block, before) ∧
      (((∃ image', release address image = .ok () image') ∧
          ∀ fault, ¬ image.BrokenAt block.stop fault) ∨
        ∃ fault image', release address image = .error fault image' ∧
          image.BrokenAt block.stop fault ∧ image'.live = image.live.erase address) := by
  rw [release_eq]
  cases planned : image.releasePlan address with
  | error fault => exact .inl ⟨fault, rfl, query_bind_of_error planned⟩
  | ok plan =>
    obtain ⟨block, before⟩ := plan
    refine .inr ⟨block, before, rfl, ?_⟩
    obtain ⟨merged, freed, run, live, stop, inside, spares⟩ := freeWithBefore_ok planned
    rw [query_bind_of_ok planned, bind_of_ok run]
    have closing := mergeAfter_linkBack_cases inside
    rw [stop] at closing
    simp only [spares.brokenAt_iff] at closing
    rwa [live] at closing

theorem release_of_brokenAt (planned : image.releasePlan address = .ok (block, before))
    (broken : image.BrokenAt block.stop fault) :
    ∃ image', release address image = .error fault image' ∧
      image'.live = image.live.erase address := by
  rcases image.release_outcomes address with ⟨fault', refused, -⟩ |
    ⟨block', before', planned', ⟨-, intact⟩ | ⟨fault', image', failed, broken', live⟩⟩
  · rw [planned] at refused
    cases refused
  · rw [planned] at planned'
    cases planned'
    exact absurd broken (intact fault)
  · rw [planned] at planned'
    cases planned'
    rw [broken.unique broken']
    exact ⟨image', failed, live⟩

/-- **A failed release changes nothing, unless it fails at the tag behind its block.**  Neither the
contents of the heap nor the record of live allocations matter.  A release that fails leaves the
image as it was, or its plan was made and the tag behind the block is broken; in that case, and
always in that case, the allocation is gone from the record though it has not been released.  A
release that is refused for its address never changes anything. -/
theorem failed_release_is_atomic_up_to_the_tag_behind (image : Image) (address : Nat) :
    (∀ fault image', release address image = .error fault image' →
      image' = image ∨
        (address ∈ image.live ∧ image'.live = image.live.erase address ∧
          ∃ block before, image.releasePlan address = .ok (block, before) ∧
            image.BrokenAt block.stop fault)) ∧
    (∀ block before fault, image.releasePlan address = .ok (block, before) →
      image.BrokenAt block.stop fault →
      ∃ image', release address image = .error fault image' ∧ image' ≠ image) ∧
    ∀ other image', release address image = .error (.memory (.invalidFree other)) image' →
      image' = image := by
  refine ⟨?_, ?_, ?_⟩
  · intro fault image' failed
    rcases image.release_outcomes address with ⟨fault', -, refused⟩ |
      ⟨block, before, planned, ⟨⟨image₁, done⟩, -⟩ | ⟨fault', image₁, failed', broken, live⟩⟩
    · rw [refused] at failed
      cases failed
      exact .inl rfl
    · rw [done] at failed
      cases failed
    · rw [failed'] at failed
      cases failed
      exact .inr ⟨mem_live_of_releasePlan planned, live, block, before, planned, broken⟩
  · intro block before fault planned broken
    obtain ⟨image', failed, live⟩ := release_of_brokenAt planned broken
    refine ⟨image', failed, ?_⟩
    rintro rfl
    have shorter := List.length_erase_of_mem (mem_live_of_releasePlan planned)
    have positive := List.length_pos_of_mem (mem_live_of_releasePlan planned)
    rw [← live] at shorter
    omega
  · intro other image' failed
    rcases image.release_outcomes address with ⟨fault', -, refused⟩ |
      ⟨block, before, -, ⟨⟨image₁, done⟩, -⟩ | ⟨fault', image₁, failed', broken, -⟩⟩
    · rw [refused] at failed
      cases failed
      rfl
    · rw [done] at failed
      cases failed
    · rw [failed'] at failed
      cases failed
      obtain ⟨-, corrupted | ⟨after, -, -, -, -, same⟩⟩ := broken
      · rcases fault_of_blockAt corrupted with same | same | same
        · cases same
        · cases same
        · cases same
      · cases same

/-- Two allocations, of which the program has overwritten the tag of the second: no block is two
bytes long. -/
def brokenSecond : Image :=
  ((allocate 4).after ((allocate 4).after (blank ⟨16, 64, 16, .reclaim⟩))).put 32 [2, 0, 0, 0]

/-- Releasing the first allocation fails at the tag of the second.  The allocation is no longer
live, and its tag has changed. -/
theorem release_forgets_what_it_does_not_free :
    brokenSecond.isLive 24 = true ∧
      ∃ image', release 24 brokenSecond = .error (.memory (.heapCorrupted 28)) image' ∧
        image'.isLive 24 = false ∧ brokenSecond.bytes[23]? = some 0 ∧
        image'.bytes[23]? = some 128 := by
  have outcome : (match release 24 brokenSecond with
      | .ok _ _ => false
      | .error fault image' => decide (fault = .memory (.heapCorrupted 28) ∧
          image'.isLive 24 = false ∧ image'.bytes[23]? = some 128)) = true := by
    decide +kernel
  refine ⟨by decide +kernel, ?_⟩
  cases released : release 24 brokenSecond with
  | ok _ _ => simp [released] at outcome
  | error fault image' =>
    rw [released] at outcome
    obtain ⟨rfl, forgotten, rewritten⟩ := of_decide_eq_true outcome
    exact ⟨image', rfl, forgotten, by decide +kernel, rewritten⟩

end FlatC.Image

import FlatC.Image.Create
import FlatC.Proofs.Heap.Confined

/-!
# How far a corrupted heap lets the allocator write

A program may overwrite the tags of the heap.  The allocator then works with blocks of any length,
as long as they end in the heap.  All tags that it writes lie in such blocks.  What does not is the
link of the block behind one: if a block ends before the heap does, but by less than a word, its
upper bytes fall into the stack.

* `Image.Spares` says that nothing outside a range of addresses changes;
* `Image.Reach` is how far a call may write, `Image.spares_allocate` and `Image.spares_release` say
  that it writes no further;
* `Image.allocator_leaves_heap_only_by_a_link` says which bytes outside the heap can change, and
  `Image.forged_tag_overwrites_stack` that some do.
-/

namespace FlatC.Image

open Step

variable {α β : Type} {image image' : Image} {top start stop : Nat}

/-! ## Outside a range of addresses -/

/-- If the heap of the first image ends at `top`, that of the second does too, and the images agree
on all bytes outside the range. -/
def Spares (top start stop : Nat) (image image' : Image) : Prop :=
  image.stackBottom = top → image'.stackBottom = top ∧ image'.heapBottom = image.heapBottom ∧
    image'.size = image.size ∧
    ∀ i, i < start ∨ stop ≤ i → image'.bytes[i]? = image.bytes[i]?

theorem Spares.refl (top start stop : Nat) (image : Image) : Spares top start stop image image :=
  fun ends => ⟨ends, rfl, rfl, fun _ _ => rfl⟩

theorem Spares.trans {a b c : Image} (first : Spares top start stop a b)
    (second : Spares top start stop b c) : Spares top start stop a c := by
  intro ends
  obtain ⟨ends, bottom, size, bytes⟩ := first ends
  obtain ⟨ends, bottom', size', bytes'⟩ := second ends
  exact ⟨ends, bottom'.trans bottom, size'.trans size,
    fun i outside => (bytes' i outside).trans (bytes i outside)⟩

theorem Spares.mono {start' stop' : Nat} (h : Spares top start' stop' image image')
    (lower : start ≤ start') (upper : stop' ≤ stop) : Spares top start stop image image' := by
  intro ends
  obtain ⟨ends, bottom, size, bytes⟩ := h ends
  exact ⟨ends, bottom, size, fun i outside => bytes i (by omega)⟩

instance : Std.Refl (Spares top start stop) := ⟨.refl top start stop⟩

instance : Trans (Spares top start stop) (Spares top start stop) (Spares top start stop) := ⟨.trans⟩

/-! ## Writes of the allocator -/

theorem spares_put (image : Image) {address : Nat} (data : List UInt8) (lower : start ≤ address)
    (upper : address + data.length ≤ stop) :
    Spares top start stop image (image.put address data) := by
  intro ends
  refine ⟨ends, rfl, image.size_put address data, fun i outside => ?_⟩
  have same : image.SameBytes (image.put address data) i (i + 1) :=
    image.sameBytes_put (by omega)
  exact same.getElem?_eq

theorem spares_writeWord {address : Nat} (word : Nat) (lower : start ≤ address)
    (upper : address + wordSize ≤ stop) :
    Moves (Spares top start stop) (writeWord address word) := by
  intro image
  unfold writeWord
  cases image.checkBounds address wordSize with
  | error fault => exact .refl _ _ _ _
  | ok _ => exact image.spares_put (Word.toBytes wordSize word) lower (by simpa using upper)

theorem spares_markBlock {tag : Nat} (length : Nat) (free : Bool) (lower : start ≤ tag)
    (upper : tag + tagSize ≤ stop) :
    Moves (Spares top start stop) (markBlock tag length free) :=
  spares_writeWord _ (Nat.le_add_right_of_le lower) upper

/-- A link needs the room of a word, unless the heap ends where it would go. -/
theorem spares_linkBack {following : Nat} (tag : Nat) (lower : start ≤ following)
    (upper : following < top → following + wordSize ≤ stop) :
    Moves (Spares top start stop) (linkBack following tag) := by
  intro image ends
  by_cases inHeap : following < image.stackBottom
  · have written : linkBack following tag image = writeWord following tag image := by
      show (if following < image.stackBottom then writeWord following tag else pure ()) image = _
      rw [if_pos inHeap]
    rw [written]
    exact spares_writeWord tag lower (upper (ends ▸ inHeap)) image ends
  · have skipped : linkBack following tag image = .ok () image := by
      show (if following < image.stackBottom then writeWord following tag else pure ()) image = _
      rw [if_neg inHeap]
      rfl
    rw [skipped]
    exact Spares.refl _ _ _ _ ends

theorem spares_carve {block : Block} (size : Nat) (lower : start ≤ block.address)
    (tagged : tagSize ≤ block.length) (inside : block.stop ≤ stop)
    (upper : block.stop < top → block.stop + wordSize ≤ stop) :
    Moves (Spares top start stop) (carve block size) := by
  have ends : block.stop = block.address + block.length := rfl
  have eight : tagSize = 8 := rfl
  have four : wordSize = 4 := rfl
  simp only [carve]
  split
  · -- the rest ends where the block ended
    have rest : block.address + (size + tagSize) + (block.length - (size + tagSize)) =
        block.stop := by omega
    refine moves_bind (spares_markBlock _ _ lower (by omega)) fun _ => ?_
    refine moves_bind (spares_writeWord _ (by omega) (by omega)) fun _ => ?_
    refine moves_bind (spares_markBlock _ _ (by omega) (by omega)) fun _ => ?_
    rw [rest]
    exact spares_linkBack _ (by omega) upper
  · exact spares_markBlock _ _ lower (by omega)

/-! ## Blocks that the allocator finds -/

/-- Every block of a walk is described by its tag. -/
theorem blockAt_of_mem_walkFrom {block : Block} (left tag : Nat)
    (mem : block ∈ (image.walkFrom left tag).blocks) : image.blockAt block.address = .ok block := by
  induction left generalizing tag with
  | zero => cases mem
  | succ left ih =>
    unfold walkFrom at mem
    split at mem
    · cases mem
    · cases found : image.blockAt tag with
      | error fault =>
        rw [found] at mem
        cases mem
      | ok first =>
        rw [found] at mem
        rcases List.mem_cons.mp mem with rfl | later
        · rw [(of_blockAt found).1, found]
        · exact ih _ later

theorem blockAt_of_firstFit {size : Nat} {block : Block}
    (found : image.firstFit size = .ok block) : image.blockAt block.address = .ok block := by
  simp only [firstFit] at found
  split at found
  next first fits =>
    cases found
    exact blockAt_of_mem_walkFrom _ _ (List.mem_of_find?_eq_some fits)
  next => split at found <;> cases found

/-- What a tag describes depends on its second word and on the bounds of the heap. -/
theorem blockAt_congr {tag : Nat} (size : image'.size = image.size)
    (bottom : image'.heapBottom = image.heapBottom) (ends : image'.stackBottom = image.stackBottom)
    (same : image.SameBytes image' (tag + 4) (tag + tagSize)) :
    image'.blockAt tag = image.blockAt tag := by
  have bytes : image'.bytesAt (tag + 4) wordSize = image.bytesAt (tag + 4) wordSize :=
    bytesAt_congr same
  have word : image'.readWord (tag + 4) = image.readWord (tag + 4) := by
    simp only [readWord, checkBounds, size, bytes]
  unfold blockAt
  rw [bottom, ends]
  by_cases fits : tag + 4 < wordRange
  · rw [checkedWord_of_lt fits]
    simp only [bind, Except.bind, word]
  · rw [checkedWord_of_le (Nat.le_of_not_lt fits)]
    rfl

/-- The blocks of a plan are described by their tags, and the one before ends where the other
starts. -/
theorem blockAt_of_releasePlan {address : Nat} {block : Block} {before : Option Block}
    (planned : image.releasePlan address = .ok (block, before)) :
    image.blockAt block.address = .ok block ∧
      ∀ other ∈ before, image.blockAt other.address = .ok other ∧ other.stop = block.address := by
  unfold releasePlan at planned
  obtain ⟨-, planned⟩ := ok_of_guarded planned
  obtain ⟨found, tagged, planned⟩ := bind_eq_ok.mp planned
  have described : image.blockAt found.address = .ok found := by rw [(of_blockAt tagged).1, tagged]
  obtain ⟨link, -, planned⟩ := bind_eq_ok.mp planned
  by_cases first : link = found.address
  · rw [if_pos first] at planned
    cases planned
    exact ⟨described, nofun⟩
  · rw [if_neg first] at planned
    obtain ⟨-, planned⟩ := ok_of_guarded planned
    obtain ⟨below, tagged', planned⟩ := bind_eq_ok.mp planned
    obtain ⟨adjacent, planned⟩ := ok_of_guarded planned
    cases planned
    refine ⟨described, fun other mem => ?_⟩
    cases mem
    exact ⟨by rw [(of_blockAt tagged').1, tagged'], Decidable.of_not_not adjacent⟩

/-! ## Calls -/

/-- How far a call may write that looks at a tag: up to the end of the heap, or for the length of a
word behind the block that the tag describes, if that ends before the heap does. -/
def Reach (image : Image) (tag limit : Nat) : Prop :=
  limit = image.stackBottom ∨
    ∃ block, image.blockAt tag = .ok block ∧ block.stop < image.stackBottom ∧
      limit = block.stop + wordSize

/-- Where nothing behind an address changes, a tag there tells as much as before. -/
theorem Spares.blockAt_eq (spares : Spares image.stackBottom start stop image image') :
    image'.blockAt stop = image.blockAt stop := by
  obtain ⟨ends, bottom, size, bytes⟩ := spares rfl
  exact blockAt_congr size bottom ends fun i lower _ => bytes i (by omega)

theorem Spares.reach {limit : Nat} (spares : Spares image.stackBottom start stop image image')
    (h : image'.Reach stop limit) : image.Reach stop limit := by
  obtain ⟨ends, -, -, -⟩ := spares rfl
  unfold Reach at h ⊢
  rwa [ends, spares.blockAt_eq] at h

/-- A limit that leaves room for the link behind a block. -/
theorem exists_reach {tag : Nat} {block : Block} (found : image.blockAt tag = .ok block) :
    ∃ limit, image.Reach tag limit ∧ block.stop ≤ limit ∧
      (block.stop < image.stackBottom → block.stop + wordSize ≤ limit) := by
  obtain ⟨-, -, -, inHeap⟩ := of_blockAt found
  by_cases before : block.stop < image.stackBottom
  · exact ⟨_, .inr ⟨block, found, before, rfl⟩, Nat.le_add_right .., fun _ => Nat.le_refl _⟩
  · exact ⟨_, .inl rfl, inHeap, fun h => absurd h before⟩

theorem query_bind_of_ok {question : Image → Except Fault α} {f : α → Store β} {a : α}
    (found : question image = .ok a) : (query question >>= f) image = f a image :=
  bind_of_ok (by simp only [query, found])

theorem query_bind_of_error {question : Image → Except Fault α} {f : α → Store β} {fault : Fault}
    (failed : question image = .error fault) :
    (query question >>= f) image = .error fault image :=
  bind_of_error (by simp only [query, failed])

/-- What an allocation writes: tags in the block that it found, and the link behind that. -/
theorem spares_allocate (image : Image) (size : Int) :
    ∃ tag limit, image.Reach tag limit ∧
      Spares image.stackBottom image.heapBottom limit image (left (allocate size image)) := by
  have nothing : ∃ tag limit, image.Reach tag limit ∧
      Spares image.stackBottom image.heapBottom limit image image :=
    ⟨image.heapBottom, _, .inl rfl, .refl _ _ _ _⟩
  unfold allocate
  split
  · exact nothing
  dsimp only
  split
  · exact nothing
  cases found : image.firstFit (roundToWord size.toNat) with
  | error fault =>
    rw [query_bind_of_error found]
    exact nothing
  | ok block =>
    have tagged := blockAt_of_firstFit found
    obtain ⟨-, lower, length, -⟩ := of_blockAt tagged
    obtain ⟨limit, reach, inside, link⟩ := exists_reach tagged
    rw [query_bind_of_ok found]
    refine ⟨block.address, limit, reach, ?_⟩
    have carved := spares_carve (roundToWord size.toNat) lower length inside link
    refine moves_bind carved (fun _ => ?_) image
    refine moves_bind (moves_modify fun image ends => ?_) fun _ => moves_pure _
    exact ⟨ends, rfl, rfl, fun _ _ => rfl⟩

/-- A block before another, if there is one, lies above an address and ends where the other
starts. -/
def Precedes (start : Nat) (before : Option Block) (block : Block) : Prop :=
  ∀ other ∈ before, start ≤ other.address ∧ tagSize ≤ other.length ∧ other.stop = block.address

theorem precedes_of_releasePlan {address : Nat} {block : Block} {before : Option Block}
    (planned : image.releasePlan address = .ok (block, before)) :
    Precedes image.heapBottom before block := by
  intro other mem
  obtain ⟨described, adjacent⟩ := (blockAt_of_releasePlan planned).2 other mem
  obtain ⟨-, low, long, -⟩ := of_blockAt described
  exact ⟨low, long, adjacent⟩

/-- Freeing a block, and the block before it with it, writes no further than the block reaches. -/
theorem spares_mergeBefore {block : Block} {before : Option Block}
    (inside : block.address ≤ stop) (lower : Precedes start before block) :
    Moves (Spares top start stop) (mergeBefore block before) := by
  cases before with
  | none => exact moves_pure _
  | some other =>
    obtain ⟨low, tagged, adjacent⟩ := lower other rfl
    have ends : other.stop = other.address + other.length := rfl
    simp only [mergeBefore]
    split
    · exact moves_bind (spares_markBlock _ _ low (by omega)) fun _ => moves_pure _
    · exact moves_pure _

/-- What merging with the block before yields ends where the block ended. -/
theorem stop_of_mergeBefore {block : Block} {before : Option Block}
    (above : start ≤ block.address) (tagged : tagSize ≤ block.length)
    (lower : Precedes start before block) :
    Yields (fun merged => start ≤ merged.address ∧ merged.address + tagSize ≤ block.stop ∧
      merged.stop = block.stop) (mergeBefore block before) := by
  have ends : block.stop = block.address + block.length := rfl
  have unmerged : start ≤ block.address ∧ block.address + tagSize ≤ block.stop ∧
      block.stop = block.stop := ⟨above, by omega, rfl⟩
  cases before with
  | none => exact yields_pure unmerged
  | some other =>
    obtain ⟨low, length, adjacent⟩ := lower other rfl
    simp only [mergeBefore]
    split
    · have ends' : other.stop = other.address + other.length := rfl
      refine yields_bind fun _ => yields_pure ⟨low, ?_, ?_⟩
      · show other.address + tagSize ≤ block.stop
        omega
      · show other.address + (other.length + block.length) = block.stop
        omega
    · exact yields_pure unmerged

/-- The first part of a release: the block is freed, and merged with the block before it. -/
def freeWithBefore (address : Nat) (block : Block) (before : Option Block) : Store Block := do
  removeLive address
  markBlock block.address block.length true
  mergeBefore block before

theorem release_eq (address : Nat) : release address =
    query (·.releasePlan address) >>= fun plan =>
      freeWithBefore address plan.1 plan.2 >>= fun merged =>
        mergeAfter merged >>= fun merged => linkBack merged.stop merged.address := by
  simp only [release, freeWithBefore, bind_assoc]

theorem spares_freeWithBefore (address : Nat) {block : Block} {before : Option Block}
    (above : start ≤ block.address) (length : tagSize ≤ block.length)
    (lower : Precedes start before block) :
    Moves (Spares top start block.stop) (freeWithBefore address block before) := by
  refine moves_bind (moves_modify fun image ends => ⟨ends, rfl, rfl, fun _ _ => rfl⟩) fun _ => ?_
  refine moves_bind (spares_markBlock _ _ above (Nat.add_le_add_left length _)) fun _ => ?_
  exact spares_mergeBefore (Nat.le_add_right ..) lower

theorem stop_of_freeWithBefore (address : Nat) {block : Block} {before : Option Block}
    (above : start ≤ block.address) (length : tagSize ≤ block.length)
    (lower : Precedes start before block) :
    Yields (fun merged => start ≤ merged.address ∧ merged.address + tagSize ≤ block.stop ∧
      merged.stop = block.stop) (freeWithBefore address block before) :=
  yields_bind fun _ => yields_bind fun _ => stop_of_mergeBefore above length lower

/-- What merging with the block after does: it stops at a tag that describes no block, leaves the
block as it is before a used block or the end of the heap, or marks the tag of the block once
more. -/
theorem mergeAfter_cases (block : Block) (image : Image) :
    (block.stop < image.stackBottom ∧ ∃ fault, image.blockAt block.stop = .error fault ∧
      mergeAfter block image = .error fault image) ∨
    (mergeAfter block image = .ok block image ∧
      (block.stop < image.stackBottom →
        ∃ after, image.blockAt block.stop = .ok after ∧ after.free = false)) ∨
    (block.stop < image.stackBottom ∧ ∃ after, image.blockAt block.stop = .ok after ∧
      after.free = true ∧ mergeAfter block image =
        (markBlock block.address (block.length + after.length) true >>= fun _ =>
          pure ⟨block.address, block.length + after.length, true⟩) image) := by
  have asked : mergeAfter block image =
      (if block.stop < image.stackBottom then
        query (·.blockAt block.stop) >>= fun after =>
          if after.free then
            markBlock block.address (block.length + after.length) true >>= fun _ =>
              pure ⟨block.address, block.length + after.length, true⟩
          else pure block
      else pure block) image := rfl
  rw [asked]
  by_cases inHeap : block.stop < image.stackBottom
  · rw [if_pos inHeap]
    cases found : image.blockAt block.stop with
    | error fault => exact .inl ⟨inHeap, fault, rfl, query_bind_of_error found⟩
    | ok after =>
      rw [query_bind_of_ok found]
      cases free : after.free with
      | true => exact .inr (.inr ⟨inHeap, after, rfl, free, rfl⟩)
      | false => exact .inr (.inl ⟨rfl, fun _ => ⟨after, rfl, free⟩⟩)
  · rw [if_neg inHeap]
    exact .inr (.inl ⟨rfl, fun h => absurd h inHeap⟩)

/-- Merging with the block after, and linking the one behind that.  The link may leave the heap only
behind a block that was merged. -/
theorem spares_mergeAfter {block : Block} (lower : start ≤ block.address)
    (tagged : block.address + tagSize ≤ block.stop) (inHeap : block.stop ≤ image.stackBottom) :
    ∃ limit, image.Reach block.stop limit ∧ block.stop ≤ limit ∧
      Spares image.stackBottom start limit image (left
        ((mergeAfter block >>= fun merged => linkBack merged.stop merged.address) image)) := by
  rcases mergeAfter_cases block image with
    ⟨-, fault, -, failed⟩ | ⟨kept, found⟩ | ⟨-, after, found, -, merged⟩
  · rw [bind_of_error failed]
    exact ⟨_, .inl rfl, inHeap, .refl _ _ _ _⟩
  · rw [bind_of_ok kept]
    refine ⟨_, .inl rfl, inHeap, spares_linkBack _ (by omega) (fun inside => ?_) image⟩
    obtain ⟨after, described, -⟩ := found inside
    obtain ⟨address, -, length, inHeap'⟩ := of_blockAt described
    have ends : after.stop = after.address + after.length := rfl
    have room : wordSize ≤ tagSize := by decide
    omega
  · obtain ⟨address, -, length, -⟩ := of_blockAt found
    obtain ⟨limit, reach, inside, link⟩ := exists_reach found
    have ends : after.stop = after.address + after.length := rfl
    have total : block.address + (block.length + after.length) = after.stop := by
      have : block.stop = block.address + block.length := rfl
      omega
    refine ⟨limit, reach, by omega, ?_⟩
    rw [bind_congr_at merged]
    refine moves_bind_of_yields (P := fun merged => merged.stop = after.stop)
      (moves_bind (spares_markBlock _ _ lower (by omega)) fun _ => moves_pure _)
      (yields_bind fun _ => yields_pure total) (fun merged same => ?_) image
    rw [same]
    exact spares_linkBack _ (by omega) link

/-- What a release writes: tags in the block and in its neighbours, and the link behind those. -/
theorem spares_release (image : Image) (address : Nat) :
    ∃ tag limit, image.Reach tag limit ∧
      Spares image.stackBottom image.heapBottom limit image (left (release address image)) := by
  rw [release_eq]
  cases planned : image.releasePlan address with
  | error fault =>
    rw [query_bind_of_error planned]
    exact ⟨image.heapBottom, _, .inl rfl, .refl _ _ _ _⟩
  | ok plan =>
    obtain ⟨block, before⟩ := plan
    rw [query_bind_of_ok planned]
    obtain ⟨tagged, -⟩ := blockAt_of_releasePlan planned
    obtain ⟨-, above, length, inHeap⟩ := of_blockAt tagged
    have lower := precedes_of_releasePlan planned
    have freed : Spares image.stackBottom image.heapBottom block.stop image _ :=
      spares_freeWithBefore address above length lower image
    cases ended : freeWithBefore address block before image with
    | error fault image₁ =>
      rw [bind_of_error ended]
      rw [ended] at freed
      exact ⟨block.address, _, .inl rfl, freed.mono (Nat.le_refl _) inHeap⟩
    | ok merged image₁ =>
      rw [bind_of_ok ended]
      rw [ended] at freed
      obtain ⟨low, room, stop⟩ :=
        stop_of_freeWithBefore address above length lower image merged image₁ ended
      obtain ⟨ends, -, -, -⟩ := freed rfl
      obtain ⟨limit, reach, beyond, closed⟩ :=
        spares_mergeAfter low (stop ▸ room) (by rw [ends, stop]; exact inHeap)
      rw [stop] at reach beyond
      rw [ends] at closed
      -- nothing behind the block has changed so far, so the tag there is that of the first image
      exact ⟨block.stop, limit, freed.reach reach,
        (freed.mono (Nat.le_refl _) beyond).trans closed⟩

/-! ## Bytes outside the heap -/

/-- A tag describes a block that ends before the heap does, and by so little that the link of a
block behind it covers the byte `i` of the stack. -/
def LinkCovers (image : Image) (i : Nat) : Prop :=
  ∃ tag block, image.blockAt tag = .ok block ∧ block.stop < image.stackBottom ∧
    image.stackBottom ≤ i ∧ i < block.stop + wordSize

/-- A byte outside the heap that has changed is covered by a link. -/
theorem linkCovers_of_changed {tag limit i : Nat} (reach : image.Reach tag limit)
    (spares : Spares image.stackBottom image.heapBottom limit image image')
    (outside : i < image.heapBottom ∨ image.stackBottom ≤ i)
    (changed : image'.bytes[i]? ≠ image.bytes[i]?) : image.LinkCovers i := by
  obtain ⟨-, -, -, same⟩ := spares rfl
  have inRange : ¬ (i < image.heapBottom ∨ limit ≤ i) := fun spared => changed (same i spared)
  rcases reach with ends | ⟨block, found, before, ends⟩
  · omega
  · exact ⟨tag, block, found, before, by omega, by omega⟩

/-- **Of all bytes outside the heap, the allocator can change only the first few of the stack, and
only by the link behind a block that ends right before them.**  Neither the contents of the heap nor
the record of live allocations matter.  In particular nothing below the heap changes, nor anything
from the fourth byte of the stack on, nor anything at all if no tag describes such a block. -/
theorem allocator_leaves_heap_only_by_a_link (image : Image) (i : Nat)
    (outside : i < image.heapBottom ∨ image.stackBottom ≤ i) :
    (∀ size : Int, ((allocate size).after image).bytes[i]? ≠ image.bytes[i]? →
      image.LinkCovers i) ∧
    ∀ address : Nat, ((release address).after image).bytes[i]? ≠ image.bytes[i]? →
      image.LinkCovers i := by
  constructor
  · intro size changed
    obtain ⟨tag, limit, reach, spares⟩ := image.spares_allocate size
    rw [Store.after_eq_left] at changed
    exact linkCovers_of_changed reach spares outside changed
  · intro address changed
    obtain ⟨tag, limit, reach, spares⟩ := image.spares_release address
    rw [Store.after_eq_left] at changed
    exact linkCovers_of_changed reach spares outside changed

/-- A new image with three bytes of data at the bottom of its stack and a forged tag: the only block
of the heap ends one byte early. -/
def cutShort : Image :=
  ((blank ⟨16, 64, 16, .reclaim⟩).put 80 [170, 170, 170]).put 20 [63, 0, 0, 128]

/-- The first byte of the stack behind a forged tag does change, and the link covers it. -/
theorem link_covers_first_byte_of_stack :
    cutShort.stackBottom ≤ 80 ∧ cutShort.LinkCovers 80 :=
  have inStack : cutShort.stackBottom ≤ 80 := by decide +kernel
  have changed : ((allocate 4).after cutShort).bytes[80]? ≠ cutShort.bytes[80]? := by
    decide +kernel
  ⟨inStack, (allocator_leaves_heap_only_by_a_link cutShort 80 (.inr inStack)).1 4 changed⟩

/-- Nothing is allocated, and an allocation overwrites data of the stack. -/
theorem forged_tag_overwrites_stack :
    cutShort.live = [] ∧ cutShort.stackBottom = 80 ∧
      cutShort.bytes[80]? = some 170 ∧ ((allocate 4).after cutShort).bytes[80]? = some 0 := by
  decide +kernel

end FlatC.Image

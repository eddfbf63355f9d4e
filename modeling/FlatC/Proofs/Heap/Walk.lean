import FlatC.Proofs.Heap.Atomic
import FlatC.Proofs.Heap.Reachable
import FlatC.Proofs.Image.Reported
import Mathlib.Algebra.GroupWithZero.Nat
import Mathlib.Algebra.Order.BigOperators.Group.List
import Mathlib.Algebra.Order.Group.Nat

/-!
# Walks over a heap of any bytes

The tags of a heap lie in memory that a program may write to, so a walk over the heap follows
lengths that anybody may have made up.  What keeps it going forward and inside the heap is that a
tag describes no block shorter than itself, and none that ends behind the heap.  Nothing in this
file asks for an intact heap.

The search for a free block, the list of the blocks and the check of the heap each walk over the
heap in a loop of their own.  Here they are instances of one loop that reads tag after tag and has
nothing to bound it; the walks that are bounded by the length of the heap are shown to give the same
results.

* `Sweep` is a loop over the blocks of a heap and `Sweep.Ends` its run;
* `Sweep.yields_iff` says that each loop over a heap ends, and with what;
* `Image.tiles_blocks` says where the blocks of a heap lie;
* `Image.checkHeap_eq_ok` says what the check of a heap finds out;
* `Image.Stranded` is said of a tag that stops the machine, and `Image.walk_stops` where that is;
* `Image.heap_walks_end_in_bounds` puts them together.
-/

namespace FlatC

/-! ## Loops over blocks -/

/-- A loop over the blocks of a heap, which carries something along: what it makes of the end of the
heap, of a tag that describes no block, and of a block, after which it ends or goes on. -/
structure Sweep (σ α : Type) where
  atEnd : σ → (tag : Nat) → α
  atFault : σ → Fault → α
  visit : σ → Block → α ⊕ σ

namespace Sweep

variable {σ α : Type} {sweep : Sweep σ α} {image : Image}

/-- The run of a loop from a tag on: the blocks that it visits, and the result. -/
inductive Ends (sweep : Sweep σ α) (image : Image) : (visited : Nat) → σ → (tag : Nat) → α → Prop
  where
  | atEnd {seen : σ} {tag : Nat} :
      image.stackBottom ≤ tag → Ends sweep image 0 seen tag (sweep.atEnd seen tag)
  | atFault {seen : σ} {tag : Nat} {fault : Fault} : tag < image.stackBottom →
      image.blockAt tag = .error fault → Ends sweep image 0 seen tag (sweep.atFault seen fault)
  | stop {seen : σ} {tag : Nat} {block : Block} {result : α} : tag < image.stackBottom →
      image.blockAt tag = .ok block → sweep.visit seen block = .inl result →
      Ends sweep image 1 seen tag result
  | pass {visited : Nat} {seen seen' : σ} {tag : Nat} {block : Block} {result : α} :
      tag < image.stackBottom → image.blockAt tag = .ok block →
      sweep.visit seen block = .inr seen' →
      Ends sweep image visited seen' block.stop result →
      Ends sweep image (visited + 1) seen tag result

/-- A loop has no choice. -/
theorem Ends.unique {visited visited' tag : Nat} {seen : σ} {result result' : α}
    (first : sweep.Ends image visited seen tag result)
    (second : sweep.Ends image visited' seen tag result') :
    visited' = visited ∧ result' = result := by
  induction first generalizing visited' with
  | atEnd done =>
    cases second with
    | atEnd _ => exact ⟨rfl, rfl⟩
    | atFault more _ | stop more _ _ | pass more _ _ _ => exact absurd done (Nat.not_le.mpr more)
  | atFault more broken =>
    cases second with
    | atEnd done => exact absurd done (Nat.not_le.mpr more)
    | atFault _ broken' =>
      cases broken.symm.trans broken'
      exact ⟨rfl, rfl⟩
    | stop _ found _ | pass _ found _ _ => cases broken.symm.trans found
  | stop more found stopped =>
    cases second with
    | atEnd done => exact absurd done (Nat.not_le.mpr more)
    | atFault _ broken => cases found.symm.trans broken
    | stop _ found' stopped' =>
      cases found.symm.trans found'
      cases stopped.symm.trans stopped'
      exact ⟨rfl, rfl⟩
    | pass _ found' passed _ =>
      cases found.symm.trans found'
      cases stopped.symm.trans passed
  | pass more found passed _ ih =>
    cases second with
    | atEnd done => exact absurd done (Nat.not_le.mpr more)
    | atFault _ broken => cases found.symm.trans broken
    | stop _ found' stopped =>
      cases found.symm.trans found'
      cases passed.symm.trans stopped
    | pass _ found' passed' rest =>
      cases found.symm.trans found'
      cases passed.symm.trans passed'
      obtain ⟨count, same⟩ := ih rest
      exact ⟨congrArg (· + 1) count, same⟩

/-- What the loop makes of blocks that follow one another from `tag` on, and of the fault behind
them or the end of the heap. -/
def runOver (sweep : Sweep σ α) (fault : Option Fault) : σ → (tag : Nat) → List Block → α
  | seen, tag, [] =>
    match fault with
    | some fault => sweep.atFault seen fault
    | none => sweep.atEnd seen tag
  | seen, _, block :: rest =>
    match sweep.visit seen block with
    | .inl result => result
    | .inr seen' => sweep.runOver fault seen' block.stop rest

/-- A loop ends after at most one block for every eight bytes, and what it does is done over the
blocks of the walk. -/
theorem ends_runOver (sweep : Sweep σ α) (image : Image) {left tag : Nat}
    (enough : image.stackBottom - tag ≤ left) (seen : σ) :
    ∃ visited, tagSize * visited ≤ image.stackBottom - tag ∧
      sweep.Ends image visited seen tag (sweep.runOver (image.walkFrom left tag).fault seen tag
        (image.walkFrom left tag).blocks) := by
  induction left generalizing tag seen with
  | zero => exact ⟨0, Nat.zero_le _, .atEnd (by omega)⟩
  | succ left ih =>
    by_cases done : image.stackBottom ≤ tag
    · rw [Image.walkFrom, if_pos done]
      exact ⟨0, Nat.zero_le _, .atEnd done⟩
    · have more : tag < image.stackBottom := Nat.not_le.mp done
      rw [Image.walkFrom, if_neg done]
      cases found : image.blockAt tag with
      | error fault => exact ⟨0, Nat.zero_le _, .atFault more found⟩
      | ok block =>
        -- the block is at least as long as its tag, so less of the heap is left behind it
        obtain ⟨address, -, length, inside⟩ := Image.of_blockAt found
        have stop : block.stop = tag + block.length := by rw [Block.stop, address]
        simp only [tagSize] at length ⊢
        cases visited : sweep.visit seen block with
        | inl result =>
          refine ⟨1, by omega, ?_⟩
          simp only [runOver, visited]
          exact .stop more found visited
        | inr seen' =>
          have less : image.stackBottom - block.stop ≤ left := by omega
          obtain ⟨count, bound, rest⟩ := ih less seen'
          simp only [tagSize] at bound
          refine ⟨count + 1, by omega, ?_⟩
          simp only [runOver, visited]
          exact .pass more found visited rest

/-- The loop over the whole heap ends with a result, after at most one block for every eight
bytes. -/
def Yields (sweep : Sweep σ α) (image : Image) (seen : σ) (result : α) : Prop :=
  ∃ visited, tagSize * visited ≤ image.stackBottom - image.heapBottom ∧
    sweep.Ends image visited seen image.heapBottom result

/-- Every loop over a heap ends, and with one result. -/
theorem yields_iff {seen : σ} {result : α} : sweep.Yields image seen result ↔
    result = sweep.runOver image.walk.fault seen image.heapBottom image.blocks := by
  obtain ⟨visited, bound, ends⟩ := sweep.ends_runOver image (Nat.le_refl _) seen
  constructor
  · rintro ⟨_, -, ends'⟩
    exact (ends.unique ends').2
  · rintro rfl
    exact ⟨visited, bound, ends⟩

end Sweep

namespace Image

variable {image : Image} {tag left size : Nat}

/-! ## Three loops -/

/-- The search for the first free block with room for `size` bytes. -/
def searching (size : Nat) : Sweep Unit (Except Fault Block) where
  atEnd _ _ := .error (.memory (.outOfMemory size))
  atFault _ fault := .error fault
  visit _ block := if block.fits size then .inl (.ok block) else .inr ()

/-- The list of the blocks, up to a tag that describes none.  Only a tag that stops the machine is
not the end of a list. -/
def listing : Sweep (List Block) (Except Fault (List Block)) where
  atEnd seen _ := .ok seen
  atFault seen fault :=
    match fault with
    | .overflow operation => .error (.overflow operation)
    | _ => .ok seen
  visit seen block := .inr (seen ++ [block])

/-- The check of the blocks, which carries the address that the next one must name, and of the place
where they end. -/
def checking (image : Image) : Sweep Nat (Except Fault Unit) where
  atEnd _ tag :=
    if tag ≠ image.stackBottom then .error (.memory (.heapCorrupted tag)) else .ok ()
  atFault _ fault := .error fault
  visit previous block :=
    match image.readWord block.address with
    | .error fault => .inl (.error fault)
    | .ok link =>
      if link ≠ previous then .inl (.error (.memory (.heapCorrupted block.address)))
      else if block.free = false ∧ image.isLive block.payload = false then
        .inl (.error (.memory (.heapCorrupted block.address)))
      else .inr block.address

theorem runOver_listing (fault : Option Fault) (seen : List Block) (tag : Nat)
    (blocks : List Block) :
    listing.runOver fault seen tag blocks =
      match fault with
      | some (.overflow operation) => .error (.overflow operation)
      | _ => .ok (seen ++ blocks) := by
  induction blocks generalizing seen tag with
  | nil =>
    rw [List.append_nil]
    rcases fault with - | fault
    · rfl
    · cases fault <;> rfl
  | cons block rest ih =>
    have passed : listing.visit seen block = .inr (seen ++ [block]) := rfl
    simp only [Sweep.runOver, passed, ih, List.append_assoc, List.singleton_append]

theorem runOver_searching (fault : Option Fault) (tag : Nat) (blocks : List Block) :
    (searching size).runOver fault () tag blocks =
      match blocks.find? (·.fits size) with
      | some block => .ok block
      | none =>
        match fault with
        | some fault => .error fault
        | none => .error (.memory (.outOfMemory size)) := by
  induction blocks generalizing tag with
  | nil => cases fault <;> rfl
  | cons block rest ih =>
    cases fits : block.fits size with
    | true =>
      have stopped : (searching size).visit () block = .inl (.ok block) := by
        simp only [searching, fits, if_true]
      simp only [Sweep.runOver, stopped, List.find?_cons, fits]
    | false =>
      have passed : (searching size).visit () block = .inr () := by
        simp only [searching, fits, Bool.false_eq_true, if_false]
      simp only [Sweep.runOver, passed, List.find?_cons, fits, ih]

/-- Where a walk without fault ends there is nothing left to check. -/
theorem runOver_checking {fault : Option Fault} {previous stop : Nat} {blocks : List Block}
    (tiles : Tiles tag blocks stop) (ends : fault = none → stop = image.stackBottom) :
    image.checking.runOver fault previous tag blocks = (do
      image.checkBlocks previous blocks
      match fault with
      | some fault => throw fault
      | none => return ()) := by
  induction blocks generalizing previous tag with
  | nil =>
    obtain rfl : tag = stop := tiles
    cases fault with
    | some fault => rfl
    | none =>
      simp only [Sweep.runOver, checking, ends rfl, ne_eq, not_true_eq_false, if_false]
      rfl
  | cons block rest ih =>
    obtain ⟨rfl, -, more⟩ := tiles
    rw [Sweep.runOver, checkBlocks]
    cases read : image.readWord block.address with
    | error fault => simp only [checking, read, bind, Except.bind]
    | ok link =>
      by_cases linked : link = previous
      · by_cases dead : block.free = false ∧ image.isLive block.payload = false
        · simp [checking, read, linked, dead, bind, Except.bind, throw, throwThe,
            MonadExceptOf.throw]
        · have passed : image.checking.visit previous block = .inr block.address := by
            simp only [checking, read, linked, dead, ne_eq, not_true_eq_false, if_false]
          simp only [passed, ih more]
          simp [linked, dead, bind, Except.bind]
      · simp [checking, read, linked, bind, Except.bind, throw, throwThe, MonadExceptOf.throw]

end Image

/-! ## Where the blocks lie -/

/-- The length of blocks that follow one another. -/
theorem Tiles.sum_length {start stop : Nat} {blocks : List Block} (h : Tiles start blocks stop) :
    start + (blocks.map Block.length).sum = stop := by
  induction blocks generalizing start with
  | nil => exact h
  | cons block rest ih =>
    obtain ⟨rfl, -, more⟩ := h
    have later : block.stop + (rest.map Block.length).sum = stop := ih more
    rw [List.map_cons, List.sum_cons, ← later, Block.stop, Nat.add_assoc]

namespace Image

variable {image : Image} {tag left : Nat}

/-- The blocks of a walk follow one another up to the end of the heap, or up to a tag in the heap
that describes no block. -/
theorem tiles_walkFrom (enough : image.stackBottom - tag ≤ left)
    (inside : tag ≤ image.stackBottom) :
    ∃ stop, Tiles tag (image.walkFrom left tag).blocks stop ∧ stop ≤ image.stackBottom ∧
      match (image.walkFrom left tag).fault with
      | none => stop = image.stackBottom
      | some fault => stop < image.stackBottom ∧ image.blockAt stop = .error fault := by
  induction left generalizing tag with
  | zero => exact ⟨tag, rfl, inside, show tag = image.stackBottom by omega⟩
  | succ left ih =>
    by_cases done : image.stackBottom ≤ tag
    · rw [walkFrom, if_pos done]
      exact ⟨tag, rfl, inside, Nat.le_antisymm inside done⟩
    · rw [walkFrom, if_neg done]
      cases found : image.blockAt tag with
      | error fault => exact ⟨tag, rfl, inside, Nat.not_le.mp done, found⟩
      | ok block =>
        obtain ⟨address, -, length, upper⟩ := of_blockAt found
        have start : block.stop = tag + block.length := by rw [Block.stop, address]
        have room : 8 ≤ block.length := length
        have less : image.stackBottom - block.stop ≤ left := by omega
        obtain ⟨stop, tiles, lower, ending⟩ := ih less upper
        exact ⟨stop, ⟨address, length, tiles⟩, lower, ending⟩

/-- The blocks of a heap follow one another from its bottom on.  They cover it, or end before a tag
that describes no block. -/
theorem tiles_blocks (ordered : image.heapBottom ≤ image.stackBottom) :
    ∃ stop, Tiles image.heapBottom image.blocks stop ∧ stop ≤ image.stackBottom ∧
      match image.walk.fault with
      | none => stop = image.stackBottom
      | some fault => stop < image.stackBottom ∧ image.blockAt stop = .error fault :=
  tiles_walkFrom (Nat.le_refl _) ordered

/-- A walk meets no fault if its blocks cover the heap. -/
theorem fault_walk_eq_none (ordered : image.heapBottom ≤ image.stackBottom) :
    image.walk.fault = none ↔ Tiles image.heapBottom image.blocks image.stackBottom := by
  obtain ⟨stop, tiles, -, ending⟩ := tiles_blocks ordered
  cases fault : image.walk.fault with
  | none =>
    rw [fault] at ending
    subst ending
    exact ⟨fun _ => tiles, fun _ => rfl⟩
  | some fault' =>
    rw [fault] at ending
    refine ⟨nofun, fun covers => ?_⟩
    have short := tiles.sum_length
    have whole := covers.sum_length
    omega

theorem freeBytes_eq (image : Image) :
    image.freeBytes = ((image.blocks.filter (·.free)).map Block.length).sum := by
  rw [freeBytes, List.sum_eq_foldl, List.foldl_map]

/-- The free blocks are no longer than all blocks. -/
theorem freeBytes_le (image : Image) :
    image.freeBytes ≤ (image.blocks.map Block.length).sum := by
  rw [freeBytes_eq]
  exact (List.filter_sublist.map Block.length).sum_le_sum fun _ _ => Nat.zero_le _

/-! ## What the check finds out -/

/-- The checks that the next block passes. -/
theorem checkBlocks_cons {previous : Nat} {block : Block} {rest : List Block} :
    image.checkBlocks previous (block :: rest) = .ok () ↔
      image.readWord block.address = .ok previous ∧
      (block.free = false → block.payload ∈ image.live) ∧
      image.checkBlocks block.address rest = .ok () := by
  rw [checkBlocks]
  cases read : image.readWord block.address with
  | error fault => simp [bind, Except.bind]
  | ok link =>
    by_cases linked : link = previous
    · by_cases dead : block.free = false ∧ image.isLive block.payload = false
      · have unknown : block.payload ∉ image.live := by simpa [isLive] using dead.2
        simp [dead.1, dead, unknown, bind, Except.bind, throw, throwThe, MonadExceptOf.throw]
      · have known : block.free = false → block.payload ∈ image.live := by
          intro used
          by_contra unknown
          exact dead ⟨used, by simpa [isLive] using unknown⟩
        simpa [linked, dead, bind, Except.bind] using fun _ => known
    · simp [linked, bind, Except.bind, throw, throwThe, MonadExceptOf.throw]

/-- The check of some blocks passes if each of them names the one before it and the used ones are
live. -/
theorem checkBlocks_eq_ok {previous : Nat} {blocks : List Block} :
    image.checkBlocks previous blocks = .ok () ↔
      (∀ first ∈ blocks.head?, image.readWord first.address = .ok previous) ∧
      blocks.IsChain (fun a b => image.readWord b.address = .ok a.address) ∧
      ∀ block ∈ blocks, block.free = false → block.payload ∈ image.live := by
  induction blocks generalizing previous with
  | nil => simp [checkBlocks]
  | cons block rest ih =>
    rw [checkBlocks_cons, ih, List.isChain_cons, List.forall_mem_cons]
    simp only [List.head?_cons, Option.mem_some_iff, forall_eq']
    tauto

/-- The check of a heap passes if its blocks cover it, each of them names the one before it and the
first one itself, and the used ones are live. -/
theorem checkHeap_eq_ok (ordered : image.heapBottom ≤ image.stackBottom) :
    image.checkHeap = .ok () ↔
      Tiles image.heapBottom image.blocks image.stackBottom ∧
      (∀ first ∈ image.blocks.head?, image.readWord first.address = .ok first.address) ∧
      image.blocks.IsChain (fun a b => image.readWord b.address = .ok a.address) ∧
      ∀ block ∈ image.blocks, block.free = false → block.payload ∈ image.live := by
  -- the check expects the address of the bottom in the first link, and the first block is there
  have first : ∀ first ∈ image.blocks.head?, first.address = image.heapBottom := by
    obtain ⟨stop, tiles, -⟩ := tiles_blocks ordered
    intro first head
    cases listed : image.blocks with
    | nil => simp [listed] at head
    | cons block rest =>
      obtain rfl : block = first := by simpa [listed] using head
      rw [listed] at tiles
      exact tiles.1
  have passed : image.checkHeap = .ok () ↔
      image.checkBlocks image.heapBottom image.blocks = .ok () ∧ image.walk.fault = none := by
    simp only [checkHeap, blocks, bind, Except.bind]
    cases image.checkBlocks image.heapBottom image.walk.blocks with
    | error fault => simp
    | ok _ =>
      cases image.walk.fault <;>
        simp [pure, Except.pure, throw, throwThe, MonadExceptOf.throw]
  rw [passed, checkBlocks_eq_ok, fault_walk_eq_none ordered]
  constructor
  · rintro ⟨⟨link, chain, live⟩, tiles⟩
    exact ⟨tiles, fun block head => first block head ▸ link block head, chain, live⟩
  · rintro ⟨tiles, link, chain, live⟩
    exact ⟨⟨fun block head => first block head ▸ link block head, chain, live⟩, tiles⟩

/-! ## Tags that stop the machine -/

/-- The address of a tag in the heap is so large that its second word has none. -/
def Stranded (image : Image) (tag : Nat) : Prop :=
  tag < image.stackBottom ∧ wordRange ≤ tag + 4

/-- Looking at a tag stops the machine only if the tag is stranded. -/
theorem blockAt_eq_overflow {operation : OverflowFault} (lower : image.heapBottom ≤ tag) :
    image.blockAt tag = .error (.overflow operation) ↔ operation = .add ∧ image.Stranded tag := by
  unfold Stranded
  by_cases fits : tag < image.stackBottom → tag + 4 < wordRange
  · refine iff_of_false (fun stopped => ?_) (by omega)
    exact (reported_blockAt_of_fits fits).fault stopped operation rfl
  · obtain ⟨inHeap, large⟩ : tag < image.stackBottom ∧ wordRange ≤ tag + 4 := by omega
    have inside : ¬ (tag < image.heapBottom ∨ image.stackBottom ≤ tag) := by omega
    rw [blockAt, if_neg inside, checkedWord_of_le large]
    simp only [bind, Except.bind, Except.error.injEq, Fault.overflow.injEq, inHeap, large, and_self,
      and_true, eq_comm]

theorem reported_checkBlocks (previous : Nat) (blocks : List Block) :
    Reported (image.checkBlocks previous blocks) := by
  induction blocks generalizing previous with
  | nil => trivial
  | cons block rest ih =>
    refine (image.reported_readWord block.address).andThen fun link => ?_
    split
    · exact Fault.isReported_memory _
    · exact ih block.address

/-- The blocks of a heap end where the heap does or at a tag that describes none, and the machine
stops there if the tag is stranded. -/
theorem walk_stops (ordered : image.heapBottom ≤ image.stackBottom) :
    ∃ stop, Tiles image.heapBottom image.blocks stop ∧ stop ≤ image.stackBottom ∧
      (stop = image.stackBottom ∨ ∃ fault, image.blockAt stop = .error fault) ∧
      ∀ operation, image.walk.fault = some (.overflow operation) ↔
        operation = .add ∧ image.Stranded stop := by
  obtain ⟨stop, tiles, inside, ending⟩ := tiles_blocks ordered
  have lower : image.heapBottom ≤ stop := by
    have := tiles.sum_length
    omega
  cases fault : image.walk.fault with
  | none =>
    rw [fault] at ending
    refine ⟨stop, tiles, inside, .inl ending, fun operation => iff_of_false nofun ?_⟩
    rintro ⟨-, more, -⟩
    omega
  | some fault' =>
    rw [fault] at ending
    refine ⟨stop, tiles, inside, .inr ⟨fault', ending.2⟩, fun operation => ?_⟩
    rw [← blockAt_eq_overflow lower, ending.2, Option.some.injEq, Except.error.injEq]

theorem listBlocks_eq (image : Image) :
    (∀ operation, image.walk.fault = some (.overflow operation) →
      image.listBlocks = .error (.overflow operation)) ∧
    ((∀ operation, image.walk.fault ≠ some (.overflow operation)) →
      image.listBlocks = .ok image.blocks) := by
  unfold listBlocks
  refine ⟨fun operation stopped => by rw [stopped], fun passed => ?_⟩
  split
  · next operation stopped => exact absurd stopped (passed operation)
  · rfl

theorem firstFit_eq_overflow {size : Nat} {operation : OverflowFault} :
    image.firstFit size = .error (.overflow operation) ↔
      image.walk.fault = some (.overflow operation) ∧
        ∀ block ∈ image.blocks, block.fits size = false := by
  simp only [firstFit, blocks]
  cases found : image.walk.blocks.find? (·.fits size) with
  | some block =>
    refine iff_of_false (by simp) ?_
    rintro ⟨-, unfit⟩
    have fits := List.find?_some found
    rw [unfit block (List.mem_of_find?_eq_some found)] at fits
    cases fits
  | none =>
    have unfit : ∀ block ∈ image.walk.blocks, block.fits size = false := by
      simpa using List.find?_eq_none.mp found
    rw [and_iff_left unfit]
    cases image.walk.fault <;> simp

theorem checkHeap_eq_overflow {operation : OverflowFault} :
    image.checkHeap = .error (.overflow operation) ↔
      image.walk.fault = some (.overflow operation) ∧
        image.checkBlocks image.heapBottom image.blocks = .ok () := by
  simp only [checkHeap, blocks, bind, Except.bind]
  cases checked : image.checkBlocks image.heapBottom image.walk.blocks with
  | error fault =>
    refine iff_of_false (fun stopped => ?_) (by rintro ⟨-, ⟨⟩⟩)
    rw [Except.error.inj stopped] at checked
    exact (image.reported_checkBlocks _ _).fault checked operation rfl
  | ok _ =>
    rw [and_iff_left rfl]
    cases image.walk.fault <;> simp [throw, throwThe, MonadExceptOf.throw, pure, Except.pure]

/-! ## Together -/

theorem searching_yields {size : Nat} {result : Except Fault Block} :
    (searching size).Yields image () result ↔ result = image.firstFit size := by
  rw [Sweep.yields_iff, runOver_searching]
  exact Iff.rfl

theorem listing_yields {result : Except Fault (List Block)} :
    listing.Yields image [] result ↔ result = image.listBlocks := by
  rw [Sweep.yields_iff, runOver_listing, List.nil_append]
  exact Iff.rfl

theorem checking_yields (ordered : image.heapBottom ≤ image.stackBottom)
    {result : Except Fault Unit} :
    image.checking.Yields image image.heapBottom result ↔ result = image.checkHeap := by
  obtain ⟨stop, tiles, -, ending⟩ := tiles_blocks ordered
  have reaches : image.walk.fault = none → stop = image.stackBottom := by
    intro whole
    simpa only [whole] using ending
  rw [Sweep.yields_iff, runOver_checking tiles reaches]
  exact Iff.rfl

/-- The length of the blocks of a heap is no more than that of the heap. -/
theorem sum_length_blocks_le (ordered : image.heapBottom ≤ image.stackBottom) :
    (image.blocks.map Block.length).sum ≤ image.stackBottom - image.heapBottom := by
  obtain ⟨stop, tiles, inside, -⟩ := tiles_blocks ordered
  have total := tiles.sum_length
  omega

/-- **Walks over a heap end and stay inside.**  Whatever the bytes of an image are, the loops that
search for a free block, list the blocks and check the heap end after at most one block for every
eight bytes, with the results of the bounded walks.  The blocks follow one another from the bottom
of the heap on, each as its tag describes it, and end in the heap: behind them the heap is over or
a tag describes no block.  They are not longer than the heap, so the length of the free ones is a
word.  The check passes if they cover the heap, each names the one before it, the first itself, and
the used ones are live.

The list of the blocks and the length of the free ones are given to the program, unless the blocks
end at a stranded tag.  Such a tag stops the machine, and so it does in the search if no block before
it fits, and in the check if the blocks before it pass.  There is none if the heap ends a word before
the address space does. -/
theorem heap_walks_end_in_bounds (image : Image) (laid : image.Laid) :
    (∀ size result, (searching size).Yields image () result ↔ result = image.firstFit size) ∧
      (∀ result, listing.Yields image [] result ↔ result = image.listBlocks) ∧
      (∀ result, image.checking.Yields image image.heapBottom result ↔
        result = image.checkHeap) ∧
      (∃ stop, Tiles image.heapBottom image.blocks stop ∧ stop ≤ image.stackBottom ∧
        (stop = image.stackBottom ∨ ∃ fault, image.blockAt stop = .error fault) ∧
        (image.Stranded stop → image.listBlocks = .error (.overflow .add) ∧
          image.countFree = .error (.overflow .add)) ∧
        (¬ image.Stranded stop → image.listBlocks = .ok image.blocks ∧
          image.countFree = .ok image.freeBytes) ∧
        (∀ size operation, image.firstFit size = .error (.overflow operation) ↔
          operation = .add ∧ image.Stranded stop ∧
            ∀ block ∈ image.blocks, block.fits size = false) ∧
        (∀ operation, image.checkHeap = .error (.overflow operation) ↔
          operation = .add ∧ image.Stranded stop ∧
            image.checkBlocks image.heapBottom image.blocks = .ok ()) ∧
        (image.stackBottom + wordSize ≤ wordRange → ¬ image.Stranded stop)) ∧
      (∀ block ∈ image.blocks, image.blockAt block.address = .ok block) ∧
      (image.blocks.map Block.length).sum ≤ image.stackBottom - image.heapBottom ∧
      image.freeBytes ≤ image.stackBottom - image.heapBottom ∧ image.freeBytes < wordRange ∧
      (image.checkHeap = .ok () ↔
        Tiles image.heapBottom image.blocks image.stackBottom ∧
        (∀ first ∈ image.blocks.head?, image.readWord first.address = .ok first.address) ∧
        image.blocks.IsChain (fun a b => image.readWord b.address = .ok a.address) ∧
        ∀ block ∈ image.blocks, block.free = false → block.payload ∈ image.live) := by
  have ordered : image.heapBottom ≤ image.stackBottom := laid.heap
  have addressable : image.stackBottom < wordRange := Nat.lt_of_le_of_lt laid.stack laid.addressable
  have total : (image.blocks.map Block.length).sum ≤ image.stackBottom - image.heapBottom :=
    sum_length_blocks_le ordered
  have free : image.freeBytes ≤ image.stackBottom - image.heapBottom :=
    Nat.le_trans image.freeBytes_le total
  refine ⟨fun _ _ => searching_yields, fun _ => listing_yields, fun _ => checking_yields ordered,
    ?_, fun _ mem => blockAt_of_mem_walkFrom _ _ mem, total, free, by omega,
    checkHeap_eq_ok ordered⟩
  obtain ⟨stop, tiles, inside, ending, stops⟩ := walk_stops ordered
  obtain ⟨aborted, listed⟩ := image.listBlocks_eq
  refine ⟨stop, tiles, inside, ending, fun stranded => ?_, fun passed => ?_, ?_, ?_, ?_⟩
  · have stopped := aborted .add ((stops .add).mpr ⟨rfl, stranded⟩)
    exact ⟨stopped, by rw [countFree, stopped]; rfl⟩
  · have whole := listed fun operation stopped => passed ((stops operation).mp stopped).2
    exact ⟨whole, by rw [countFree, whole]; rfl⟩
  · intro size operation
    rw [firstFit_eq_overflow, stops, and_assoc]
  · intro operation
    rw [checkHeap_eq_overflow, stops, and_assoc]
  · rintro short ⟨more, large⟩
    simp only [wordSize] at short
    omega

/-- A new image whose first block was made three bytes shorter than the heap, so that the next tag
lies astride of the end of the heap. -/
def astride : Image :=
  (blank ⟨16, 64, 2, .reclaim⟩).put 20 [61, 0, 0, 128]

/-- The walk stops at a tag astride of the end of the heap, and the check finds it. -/
theorem walks_stop_astride_of_the_end :
    astride.blocks = [⟨16, 61, true⟩] ∧ astride.stackBottom = 80 ∧ astride.freeBytes < wordRange ∧
      astride.listBlocks = .ok astride.blocks ∧ astride.checkHeap ≠ .ok () := by
  have listed : astride.blocks = [⟨16, 61, true⟩] := by decide +kernel
  have laid : astride.Laid := (heapIs_blank rfl).laid.of_onlyBytes (onlyBytes_put ..)
  obtain ⟨-, -, -, ⟨stop, -, -, -, -, passes, -, -, clear⟩, -, -, -, free, sound⟩ :=
    heap_walks_end_in_bounds astride laid
  refine ⟨listed, by decide +kernel, free, (passes (clear (by decide +kernel))).1, fun passed => ?_⟩
  rw [listed] at sound
  obtain ⟨covers, -⟩ := sound.mp passed
  exact absurd covers.sum_length (by decide +kernel)

/-- The regions of a memory that ends with the address space, and whose heap ends with it. -/
def lastWord : Regions := ⟨4294967279, 16, 0, .reclaim⟩

/-- A new image with such regions, whose first block was made three bytes shorter than the heap. -/
def atTheEdge : Image :=
  (blank lastWord).put 4294967283 [13, 0, 0, 128]

/-- The tag astride of the end of the heap has no address for its second word.  The search, the list
and the check all stop the machine there. -/
theorem walks_stop_the_machine_at_the_edge :
    create lastWord = .ok (blank lastWord) ∧ atTheEdge.Laid ∧
      atTheEdge.blocks = [⟨4294967279, 13, true⟩] ∧
      atTheEdge.firstFit 8 = .error (.overflow .add) ∧
      atTheEdge.listBlocks = .error (.overflow .add) ∧
      atTheEdge.countFree = .error (.overflow .add) ∧
      atTheEdge.checkHeap = .error (.overflow .add) := by
  have fresh : (blank lastWord).HeapIs [onlyBlock lastWord] := heapIs_blank rfl
  have only : (blank lastWord).OnlyBytes atTheEdge := onlyBytes_put ..
  have size : (blank lastWord).size = 4294967295 := by
    rw [blank, size_put, size_put]
    rfl
  have readable {address : Nat} (inside : address + 4 ≤ 4294967295) :
      atTheEdge.readWord address = .ok (atTheEdge.wordAt address) := by
    refine readWord_eq _ ?_
    rwa [only.size, size]
  have length : atTheEdge.readWord 4294967283 = .ok 2147483661 := by
    have put : atTheEdge.bytesAt 4294967283 4 = [13, 0, 0, 128] :=
      (blank lastWord).bytesAt_put (by rw [size]; decide)
    rw [readable (by decide), wordAt, wordSize, put]
    rfl
  have link : atTheEdge.readWord 4294967279 = .ok 4294967279 := by
    have same : (blank lastWord).SameBytes atTheEdge 4294967279 4294967283 :=
      sameBytes_put _ (.inl (Nat.le_refl _))
    obtain ⟨-, tagged, -⟩ := fresh.chain
    rw [readable (by decide), wordAt_congr same]
    exact congrArg Except.ok tagged.link
  have bottom : atTheEdge.heapBottom = 4294967279 := rfl
  have top : atTheEdge.stackBottom = 4294967295 := rfl
  have first : atTheEdge.blockAt 4294967279 = .ok ⟨4294967279, 13, true⟩ :=
    blockAt_of_readWord ⟨Nat.le_of_eq bottom, by rw [top]; decide⟩ (by decide) length
      ⟨by decide, by rw [top]; decide⟩
  have second : atTheEdge.blockAt 4294967292 = .error (.overflow .add) :=
    (blockAt_eq_overflow (by rw [bottom]; decide)).mpr ⟨rfl, by rw [top]; decide, by decide⟩
  have walked : atTheEdge.walk = ⟨[⟨4294967279, 13, true⟩], some (.overflow .add)⟩ := by
    have stop : Block.stop ⟨4294967279, 13, true⟩ = 4294967292 := rfl
    have steps : 4294967295 - 4294967279 = 14 + 1 + 1 := rfl
    rw [walk, bottom, top, steps, walkFrom, top, if_neg (by decide), first]
    dsimp only
    rw [stop, walkFrom, top, if_neg (by decide), second]
  have listed : atTheEdge.blocks = [⟨4294967279, 13, true⟩] := by rw [blocks, walked]
  have stopped : atTheEdge.walk.fault = some (.overflow .add) := by rw [walked]
  have linked : atTheEdge.checkBlocks atTheEdge.heapBottom [⟨4294967279, 13, true⟩] = .ok () :=
    checkBlocks_cons.mpr ⟨by rw [bottom]; exact link, by simp, rfl⟩
  have noList := atTheEdge.listBlocks_eq.1 .add stopped
  refine ⟨rfl, fresh.laid.of_onlyBytes only, listed, ?_, noList, ?_, ?_⟩
  · refine firstFit_eq_overflow.mpr ⟨stopped, ?_⟩
    rw [listed]
    decide
  · rw [countFree, noList]
    rfl
  · refine checkHeap_eq_overflow.mpr ⟨stopped, ?_⟩
    rw [listed]
    exact linked

end Image

end FlatC

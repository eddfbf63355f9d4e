import FlatC.Heap.Release
import FlatC.Proofs.Image.Bytes
import FlatC.Proofs.Refine

/-!
# The allocator stays in the heap

The allocator is not bound by the rules for programs: it writes its tags without asking where they
lie.  What keeps it in the heap is that it reads a tag before it writes one, and that a tag below
the heap describes no block.  So nothing below the heap changes even if a program has overwritten
all tags.

* `Image.SameBelow` says that two images agree below an address, and on all that concerns text
  literals;
* `Image.confined_allocate` and `Image.confined_release` are about an image with any heap.
-/

namespace FlatC.Image

open Step

variable {α : Type} {image : Image} {bottom : Nat}

/-! ## Below an address -/

/-- The images agree below an address, and on the text literals and their region. -/
structure SameBelow (bottom : Nat) (image image' : Image) : Prop where
  size : image'.size = image.size
  heapBottom : image'.heapBottom = image.heapBottom
  readOnlyTop : image'.readOnlyTop = image.readOnlyTop
  literals : image'.literals = image.literals
  bytes : image.SameBytes image' 0 bottom

theorem SameBelow.refl (bottom : Nat) (image : Image) : SameBelow bottom image image :=
  ⟨rfl, rfl, rfl, rfl, .refl _ _ _⟩

theorem SameBelow.trans {a b c : Image} (first : SameBelow bottom a b)
    (second : SameBelow bottom b c) : SameBelow bottom a c :=
  ⟨second.size.trans first.size, second.heapBottom.trans first.heapBottom,
    second.readOnlyTop.trans first.readOnlyTop, second.literals.trans first.literals,
    first.bytes.trans second.bytes⟩

instance : Std.Refl (SameBelow bottom) := ⟨.refl bottom⟩

instance : Trans (SameBelow bottom) (SameBelow bottom) (SameBelow bottom) := ⟨.trans⟩

theorem OnlyBytes.sameBelow {image' : Image} (only : image.OnlyBytes image')
    (same : image.SameBytes image' 0 bottom) : SameBelow bottom image image' :=
  ⟨only.size, only.heapBottom, only.readOnlyTop, only.literals, same⟩

theorem sameBelow_put {address : Nat} (data : List UInt8) (above : bottom ≤ address) :
    SameBelow bottom image (image.put address data) :=
  (image.onlyBytes_put address data).sameBelow (image.sameBytes_put (.inl above))

theorem Written.sameBelow {image' : Image} {address size : Nat}
    (h : Written image address size image') : SameBelow image.heapBottom image image' := by
  cases h with
  | unchanged => exact .refl _ _
  | changed only outside above inside => exact only.sameBelow (outside (.inl above))

/-! ## Steps of the allocator -/

/-- The step changes nothing below the address. -/
abbrev StaysAbove (bottom : Nat) (step : Store α) : Prop :=
  Moves (SameBelow bottom) step

theorem staysAbove_query (question : Image → Except Fault α) :
    StaysAbove bottom (query question) := by
  intro image
  unfold query
  cases question image <;> exact .refl _ _

theorem staysAbove_writeWord {address : Nat} (word : Nat) (above : bottom ≤ address) :
    StaysAbove bottom (writeWord address word) := by
  intro image
  unfold writeWord
  cases image.checkBounds address wordSize with
  | ok _ => exact sameBelow_put _ above
  | error fault => exact .refl _ _

theorem staysAbove_markBlock {tag : Nat} (length : Nat) (free : Bool) (above : bottom ≤ tag) :
    StaysAbove bottom (markBlock tag length free) :=
  staysAbove_writeWord _ (Nat.le_add_right_of_le above)

theorem staysAbove_linkBack {following : Nat} (tag : Nat) (above : bottom ≤ following) :
    StaysAbove bottom (linkBack following tag) := by
  refine moves_bind moves_get fun image => ?_
  split
  · exact staysAbove_writeWord tag above
  · exact moves_pure _

theorem staysAbove_carve {block : Block} (size : Nat) (above : bottom ≤ block.address) :
    StaysAbove bottom (carve block size) := by
  simp only [carve]
  split
  · refine moves_bind (staysAbove_markBlock _ _ above) fun _ => ?_
    refine moves_bind (staysAbove_writeWord _ (by omega)) fun _ => ?_
    refine moves_bind (staysAbove_markBlock _ _ (by omega)) fun _ => ?_
    exact staysAbove_linkBack _ (by omega)
  · exact staysAbove_markBlock _ _ above

/-! ## Blocks that the allocator finds -/

/-- Every block of a walk lies in the heap, as far as the walk gets. -/
theorem heapBottom_le_of_mem_walkFrom {block : Block} (left tag : Nat)
    (mem : block ∈ (image.walkFrom left tag).blocks) : image.heapBottom ≤ block.address := by
  induction left generalizing tag with
  | zero => cases mem
  | succ left ih =>
    unfold walkFrom at mem
    split at mem
    · cases mem
    · cases found : image.blockAt tag with
      | error fault =>
        rw [found] at mem
        cases mem
      | ok first =>
        rw [found] at mem
        obtain ⟨start, lower, -, -⟩ := of_blockAt found
        rcases List.mem_cons.mp mem with rfl | later
        · rwa [start]
        · exact ih _ later

theorem heapBottom_le_of_firstFit {size : Nat} {block : Block}
    (found : image.firstFit size = .ok block) : image.heapBottom ≤ block.address := by
  simp only [firstFit] at found
  split at found
  next first fits =>
    cases found
    exact heapBottom_le_of_mem_walkFrom _ _ (List.mem_of_find?_eq_some fits)
  next => split at found <;> cases found

/-- Both blocks of a plan were read from tags in the heap. -/
theorem heapBottom_le_of_releasePlan {address : Nat} {block : Block} {before : Option Block}
    (planned : image.releasePlan address = .ok (block, before)) :
    image.heapBottom ≤ block.address ∧ ∀ other ∈ before, image.heapBottom ≤ other.address := by
  unfold releasePlan at planned
  obtain ⟨-, planned⟩ := ok_of_guarded planned
  obtain ⟨found, tagged, planned⟩ := bind_eq_ok.mp planned
  obtain ⟨start, lower, -, -⟩ := of_blockAt tagged
  obtain ⟨link, -, planned⟩ := bind_eq_ok.mp planned
  by_cases first : link = found.address
  · rw [if_pos first] at planned
    cases planned
    exact ⟨start ▸ lower, nofun⟩
  · rw [if_neg first] at planned
    obtain ⟨-, planned⟩ := ok_of_guarded planned
    obtain ⟨below, tagged', planned⟩ := bind_eq_ok.mp planned
    obtain ⟨start', lower', -, -⟩ := of_blockAt tagged'
    obtain ⟨-, planned⟩ := ok_of_guarded planned
    cases planned
    refine ⟨start ▸ lower, fun other mem => ?_⟩
    cases mem
    rwa [start']

/-! ## Calls -/

/-- What follows a question may go by its answer. -/
theorem sameBelow_query_bind {β : Type} {question : Image → Except Fault α} {f : α → Store β}
    (next : ∀ a, question image = .ok a → StaysAbove bottom (f a)) :
    SameBelow bottom image (left ((query question >>= f) image)) := by
  cases found : question image with
  | ok a =>
    have asked : query question image = .ok a image := by simp only [query, found]
    rw [bind_of_ok asked]
    exact next a found image
  | error fault =>
    have asked : query question image = .error fault image := by simp only [query, found]
    rw [bind_of_error asked]
    exact .refl _ _

/-- The steps that change nothing below the heap of the image they start from. -/
abbrev Confined (step : Store α) : Prop :=
  Moves (fun image image' => SameBelow image.heapBottom image image') step

instance : Std.Refl fun image image' => SameBelow image.heapBottom image image' :=
  ⟨fun image => .refl image.heapBottom image⟩

/-- An allocation changes nothing below the heap. -/
theorem confined_allocate (size : Int) : Confined (allocate size) := by
  unfold allocate
  refine moves_unless _ (moves_unless _ ?_)
  intro image
  refine sameBelow_query_bind fun block found => ?_
  refine moves_bind (staysAbove_carve _ (heapBottom_le_of_firstFit found)) fun _ => ?_
  refine moves_bind (moves_modify fun image => ?_) fun _ => moves_pure _
  exact ⟨rfl, rfl, rfl, rfl, .refl _ _ _⟩

/-- Merging writes the tag of the lower one of two blocks, and yields it. -/
theorem staysAbove_mergeBefore {block : Block} {before : Option Block}
    (lower : ∀ other ∈ before, bottom ≤ other.address) :
    StaysAbove bottom (mergeBefore block before) := by
  cases before with
  | none => exact moves_pure _
  | some other =>
    simp only [mergeBefore]
    split
    · exact moves_bind (staysAbove_markBlock _ _ (lower other rfl)) fun _ => moves_pure _
    · exact moves_pure _

theorem yields_mergeBefore {block : Block} {before : Option Block}
    (above : bottom ≤ block.address) (lower : ∀ other ∈ before, bottom ≤ other.address) :
    Yields (fun merged => bottom ≤ merged.address) (mergeBefore block before) := by
  cases before with
  | none => exact yields_pure above
  | some other =>
    simp only [mergeBefore]
    split
    · exact yields_bind fun _ => yields_pure (lower other rfl)
    · exact yields_pure above

theorem staysAbove_mergeAfter {block : Block} (above : bottom ≤ block.address) :
    StaysAbove bottom (mergeAfter block) := by
  refine moves_bind moves_get fun image => ?_
  split
  · refine moves_bind (staysAbove_query _) fun after => ?_
    split
    · exact moves_bind (staysAbove_markBlock _ _ above) fun _ => moves_pure _
    · exact moves_pure _
  · exact moves_pure _

theorem yields_mergeAfter {block : Block} (above : bottom ≤ block.address) :
    Yields (fun merged => bottom ≤ merged.address) (mergeAfter block) := by
  refine yields_bind fun image => ?_
  split
  · refine yields_bind fun after => ?_
    split
    · exact yields_bind fun _ => yields_pure above
    · exact yields_pure above
  · exact yields_pure above

/-- A release changes nothing below the heap. -/
theorem confined_release (address : Nat) : Confined (release address) := by
  intro image
  refine sameBelow_query_bind fun (block, before) planned => ?_
  obtain ⟨above, lower⟩ := heapBottom_le_of_releasePlan planned
  refine moves_bind (moves_modify fun image => ⟨rfl, rfl, rfl, rfl, .refl _ _ _⟩) fun _ => ?_
  refine moves_bind (staysAbove_markBlock _ _ above) fun _ => ?_
  refine moves_bind_of_yields (staysAbove_mergeBefore lower) (yields_mergeBefore above lower)
    fun merged above' => ?_
  refine moves_bind_of_yields (staysAbove_mergeAfter above') (yields_mergeAfter above')
    fun merged' above'' => ?_
  exact staysAbove_linkBack _ (Nat.le_add_right_of_le above'')

end FlatC.Image

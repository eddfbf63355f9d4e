import FlatC.Proofs.CType.Layout
import FlatC.Proofs.Heap.Reachable
import FlatC.Proofs.Image.Fill
import FlatC.Proofs.Scope.Apart
import FlatC.Proofs.Value.ResultType

/-!
# Slots of new variables

A declaration plans a slot, fills it with zeros, reads it back and only then binds the name.  In
memory that was laid out as it must be, what is planned can also be filled and read, whatever the
type, so a declaration does all of this or nothing.  The plan itself is computed in 32 bits.  One of
its sums does not always fit them, and then there is neither a slot nor a failure: the run is
aborted.

* `Machine.Fresh` says what a declaration does that succeeds, and
  `Machine.declarations_are_all_or_nothing` that there is nothing between this and no change;
* `Machine.Aborts` is the case in which a slot cannot be computed and `Machine.Settled` says how all
  others end; `Machine.slots_overflow_in_one_sum` says that there is no third one;
* `Machine.greatest_struct_behind_char_is_not_settled` has such a case.
-/

namespace FlatC

/-! ## Where a slot starts -/

namespace Frame

variable {frame : Frame} {elementSize : Nat}

/-- Where the next word starts is a number of 32 bits, if memory leaves a word of the address space
free. -/
theorem nextWord_lt (inside : frame.scope.top ≤ 4294967292) :
    (frame.scope.top + (wordSize - 1)) / wordSize * wordSize < wordRange := by
  simp only [wordSize, wordRange]
  omega

/-- Only a cursor inside a word and elements of nearly the size of the address space give a sum
that is no number of 32 bits. -/
theorem of_sum_overflows (small : elementSize < wordRange)
    (overflows : wordRange ≤ frame.scope.top % wordSize + elementSize) :
    4294967293 ≤ elementSize ∧ frame.scope.top % wordSize ≠ 0 := by
  simp only [wordSize, wordRange] at small overflows ⊢
  omega

theorem slotAddress_of_overflow
    (overflows : wordRange ≤ frame.scope.top % wordSize + elementSize) :
    frame.slotAddress elementSize = .error (.overflow .add) := by
  rw [slotAddress, checkedWord_of_le overflows]
  rfl

/-- Otherwise the slot goes to the cursor or to the next word. -/
theorem slotAddress_of_fits (fits : frame.scope.top % wordSize + elementSize < wordRange) :
    frame.slotAddress elementSize =
      if wordSize < frame.scope.top % wordSize + elementSize then
        checkedWord .multiply ((frame.scope.top + (wordSize - 1)) / wordSize * wordSize)
      else .ok frame.scope.top := by
  rw [slotAddress, checkedWord_of_lt fits]
  rfl

/-- There is a place for it if the next word starts inside the address space. -/
theorem exists_slotAddress (inside : frame.scope.top ≤ 4294967292)
    (fits : frame.scope.top % wordSize + elementSize < wordRange) :
    ∃ address, frame.slotAddress elementSize = .ok address := by
  rw [slotAddress_of_fits fits]
  by_cases crosses : wordSize < frame.scope.top % wordSize + elementSize
  · rw [if_pos crosses, checkedWord_of_lt (nextWord_lt inside)]
    exact ⟨_, rfl⟩
  · rw [if_neg crosses]
    exact ⟨_, rfl⟩

end Frame

namespace Machine

variable {table : StructTable} {regions : Regions} {image : Image} {slots : List Slot}
  {machine : Machine} {name : String} {type : CType} {address size elementSize : Nat}

/-! ## Declarations that succeed -/

/-- The stack starts behind the addresses that are never handed out and behind the read-only region,
and memory ends inside the address space. -/
theorem Reached.memory_bounds (created : Image.create regions = .ok image)
    (reached : Reached table image.shape slots machine) :
    0 < machine.image.stackBottom ∧ machine.image.heapBottom ≤ machine.image.stackBottom ∧
      machine.image.size = image.size ∧ image.size < wordRange := by
  obtain ⟨valid, blank⟩ := Image.of_create created
  obtain ⟨guard, -, -, space⟩ := Image.layoutFault?_eq_none valid
  have shape := Image.shape_blank regions
  rw [← blank] at shape
  have laid := reached.shape_eq.trans shape
  have heap : machine.image.heapBottom = regions.readOnlySize := congrArg Shape.heapBottom laid
  have stack : machine.image.stackBottom = regions.readOnlySize + regions.heapSize :=
    congrArg Shape.stackBottom laid
  have total : image.size = regions.readOnlySize + regions.heapSize + regions.stackSize :=
    congrArg Shape.size shape
  have same : machine.image.size = image.size := congrArg Shape.size reached.shape_eq
  have low : 4 ≤ regions.readOnlySize := guard
  refine ⟨by omega, by omega, same, ?_⟩
  rwa [total]

/-- So does the part of the stack that is left. -/
theorem Reached.stack_bounds (created : Image.create regions = .ok image)
    (reached : Reached table image.shape slots machine) :
    0 < machine.frame.scope.top ∧ machine.image.heapBottom ≤ machine.frame.scope.top ∧
      machine.frame.scope.top ≤ machine.image.size ∧ machine.image.size = image.size ∧
      image.size < wordRange := by
  obtain ⟨positive, behind, same, space⟩ := reached.memory_bounds created
  have stacked := reached.wellStacked
  obtain ⟨above, grown, -⟩ := stacked.stacked.within machine.frame List.mem_cons_self
  exact ⟨by omega, by omega, stacked.inside, same, space⟩

/-- A variable lies on the stack, and the stack ends inside memory. -/
theorem Reached.variable_bounds (created : Image.create regions = .ok image)
    (reached : Reached table image.shape slots machine) {v : Variable} (mem : v ∈ machine.vars) :
    0 < v.address ∧ v.address + v.size table ≤ machine.image.size := by
  obtain ⟨positive, -, -, -⟩ := reached.memory_bounds created
  have tidy := reached.wellStacked.tidyStack
  obtain ⟨frame, among, own⟩ := List.mem_flatMap.mp mem
  obtain ⟨bottom, -, top⟩ := tidy.within frame among
  obtain ⟨-, start, stop⟩ := tidy.placed frame among v own
  exact ⟨by omega, Nat.le_trans stop top⟩

/-- What has become of a machine in which a name was given a slot of its own. -/
structure Fresh (table : StructTable) (name : String) (type : CType) (machine machine' : Machine)
    (value : Value) (address size elementSize : Nat) : Prop where
  unbound : machine.frame.local? name = none
  sized : table.sizeOf type = .ok size
  elements : table.elementSize type = .ok elementSize
  /-- The slot starts less than a word behind the old cursor. -/
  next : machine.frame.scope.top ≤ address ∧ address < machine.frame.scope.top + wordSize
  /-- The cursor has moved behind the slot, and that is in memory. -/
  cursor : machine'.frame.scope.top = address + size ∧
    machine'.frame.scope.top ≤ machine'.image.size
  /-- The first element does not cross into the next word. -/
  uncrossed : elementSize ≤ wordSize → address % wordSize + elementSize ≤ wordSize
  aligned : type = .int ∨ type = .float ∨ (∃ target, type = .pointer target) →
    address % wordSize = 0
  zeros : machine'.image.bytesAt address size = List.replicate size 0
  resolves : machine'.frame.find? name = some ⟨type, .slot address⟩
  /-- The name is the last one of its scope, and the bindings before it are the old ones. -/
  last : machine'.frame.scope.bindings =
    machine.frame.scope.bindings ++ [(name, ⟨type, .slot address⟩)]
  others : ∀ other, other ≠ name → machine'.frame.find? other = machine.frame.find? other
  /-- Nothing else about the frames has changed. -/
  frames : machine'.frame.scope.base = machine.frame.scope.base ∧
    machine'.frame.scope.depth = machine.frame.scope.depth ∧
    machine'.frame.outer = machine.frame.outer ∧ machine'.openers = machine.openers
  console : machine'.console = machine.console
  /-- Nothing else about memory has changed. -/
  outside : ∀ i, i < address ∨ address + size ≤ i →
    machine'.image.bytes[i]? = machine.image.bytes[i]?
  image : machine.image.OnlyBytes machine'.image
  /-- The result is what the name now stands for. -/
  found : machine'.valueOf table name = .ok value
  lvalue : value.type = type ∧ value.address = some address

/-- A fresh name hides no other one. -/
theorem Fresh.local?_other {machine' : Machine} {value : Value}
    (fresh : Fresh table name type machine machine' value address size elementSize) {other : String}
    (different : other ≠ name) : machine'.frame.local? other = machine.frame.local? other := by
  have new := Bindings.find?_eq_none.mp fresh.unbound
  rw [Frame.local?, fresh.last, ← Bindings.bind_of_new new]
  exact Bindings.find?_bind_other new _ different

/-- A name that was bound to a slot stands for what is read from it. -/
theorem valueOf_of_find? {value : Value}
    (found : machine.frame.find? name = some ⟨type, .slot address⟩)
    (reading : machine.image.read table address type = .ok value) :
    machine.valueOf table name = .ok value := by
  simp only [valueOf, resolve, Frame.find, found, bind, Except.bind, reading]
  rfl

/-- A word that does not cross into the next one starts one. -/
theorem aligned_of_uncrossed (elements : table.elementSize type = .ok elementSize)
    (uncrossed : elementSize ≤ wordSize → address % wordSize + elementSize ≤ wordSize)
    (word : type = .int ∨ type = .float ∨ ∃ target, type = .pointer target) :
    address % wordSize = 0 := by
  have whole : elementSize = wordSize := by
    rcases word with rfl | rfl | ⟨target, rfl⟩ <;> exact (Except.ok.inj elements).symm
  have := uncrossed (Nat.le_of_eq whole)
  omega

/-- A slot of zeros that was planned for a variable is fresh. -/
theorem fresh_withSlot {value : Value} (new : machine.frame.scope.bindings.binds name = false)
    (sized : table.sizeOf type = .ok size) (elements : table.elementSize type = .ok elementSize)
    (placed : machine.frame.slotAddress elementSize = .ok address)
    (fits : address + size ≤ machine.image.size)
    (reading : (machine.image.zeroed address size).read table address type = .ok value)
    (lvalue : value.address = some address) :
    Fresh table name type machine
      (machine.withSlot (machine.image.zeroed address size) name type address size)
      value address size elementSize := by
  obtain ⟨above, near, uncrossed⟩ := Frame.slotAddress_ok placed
  have resolves : (machine.frame.bindSlot name type address size).find? name =
      some ⟨type, .slot address⟩ := by
    have here := machine.frame.scope.bindings.find?_bind_self name ⟨type, .slot address⟩
    simp only [Frame.find?, Frame.scopes, Frame.bindSlot, List.findSome?_cons, here]
  exact
    { unbound := Bindings.find?_eq_none.mpr new
      sized := sized
      elements := elements
      next := ⟨above, near⟩
      cursor := ⟨rfl, fits.trans_eq (machine.image.size_zeroed address size).symm⟩
      uncrossed := uncrossed
      aligned := aligned_of_uncrossed elements uncrossed
      zeros := Image.bytesAt_zeroed fits
      resolves := resolves
      last := Bindings.bind_of_new new _
      others := by
        intro other different
        have elsewhere := Bindings.find?_bind_other new ⟨type, .slot address⟩ different
        show (machine.frame.bindSlot name type address size).find? other = _
        simp only [Frame.find?, Frame.scopes, Frame.bindSlot, List.findSome?_cons, elsewhere]
      frames := ⟨rfl, rfl, rfl, rfl⟩
      console := rfl
      outside := fun _ => Image.getElem?_zeroed_of_outside
      image := machine.image.onlyBytes_filled ..
      found := valueOf_of_find? resolves reading
      lvalue := ⟨Image.type_read reading, lvalue⟩ }

/-- What is planned can be filled and read, so a declaration with a plan succeeds. -/
theorem Reached.declareVariable_of_plan (created : Image.create regions = .ok image)
    (reached : Reached table image.shape slots machine)
    (plan : machine.planVariable table name type = .ok (address, size)) :
    ∃ value machine' elementSize, declareVariable table name type machine = .ok value machine' ∧
      Fresh table name type machine machine' value address size elementSize := by
  obtain ⟨new, complete, place⟩ := planVariable_eq_ok.mp plan
  obtain ⟨sized, ⟨elementSize, elements, placed⟩, fits⟩ := placeSlot_eq_ok.mp place
  obtain ⟨positive, writable, -, -, -⟩ := reached.stack_bounds created
  have above := (Frame.slotAddress_ok placed).1
  have nonzero : address ≠ 0 := by omega
  have filled := Image.fill_zero
    (Image.checkWritable_iff.mpr ⟨nonzero, Nat.le_trans writable above, fits⟩)
  have inside : address + size ≤ (machine.image.zeroed address size).size := by
    rwa [Image.size_zeroed]
  obtain ⟨value, reading, lvalue⟩ := Image.exists_read sized complete nonzero inside
  exact ⟨value, _, elementSize, declareVariable_of_planned plan filled reading,
    fresh_withSlot new sized elements placed fits reading lvalue⟩

/-- A slot for a variable can be placed: its name is new, there are variables of its type, and it
lies inside memory. -/
def Placeable (table : StructTable) (name : String) (type : CType) (machine : Machine) : Prop :=
  machine.frame.local? name = none ∧ isIncomplete type = false ∧
    ∃ address size elementSize, table.sizeOf type = .ok size ∧
      table.elementSize type = .ok elementSize ∧
      machine.frame.slotAddress elementSize = .ok address ∧ address + size ≤ machine.image.size

theorem placeable_iff : machine.Placeable table name type ↔
    ∃ address size, machine.planVariable table name type = .ok (address, size) := by
  have new : machine.frame.local? name = none ↔ _ := Bindings.find?_eq_none
  simp only [Placeable, new, planVariable_eq_ok, placeSlot_eq_ok]
  constructor
  · rintro ⟨unbound, complete, address, size, elementSize, sized, elements, placed, fits⟩
    exact ⟨address, size, unbound, complete, sized, ⟨elementSize, elements, placed⟩, fits⟩
  · rintro ⟨address, size, unbound, complete, sized, ⟨elementSize, elements, placed⟩, fits⟩
    exact ⟨unbound, complete, address, size, elementSize, sized, elements, placed, fits⟩

/-- **A declaration claims a fresh slot of zeros, or it changes nothing.**  In every state that
frames and declarations lead to, whatever the memory holds, for every name and type.  If the
declaration succeeds, then the name was new in its scope; it now comes last there and stands for a
slot of zeros right behind the old cursor, which the result is read from; and all that is outside of
the slot is as it was.  If it fails, then nothing at all has changed.  And it succeeds whenever the
slot can be placed. -/
theorem declarations_are_all_or_nothing (created : Image.create regions = .ok image)
    (reached : Reached table image.shape slots machine) (name : String) (type : CType) :
    (∀ value machine', declareVariable table name type machine = .ok value machine' →
      ∃ address size elementSize,
        Fresh table name type machine machine' value address size elementSize) ∧
    (∀ fault machine', declareVariable table name type machine = .error fault machine' →
      machine' = machine) ∧
    ((∃ value machine', declareVariable table name type machine = .ok value machine') ↔
      machine.Placeable table name type) := by
  rw [placeable_iff]
  cases plan : machine.planVariable table name type with
  | error fault =>
    have failed := declareVariable_of_unplanned plan
    refine ⟨?_, ?_, ?_⟩
    · intro value machine' run
      rw [failed] at run
      cases run
    · intro fault' machine' run
      rw [failed] at run
      cases run
      rfl
    · simp [failed]
  | ok slot =>
    obtain ⟨address, size⟩ := slot
    obtain ⟨value, machine', elementSize, succeeded, fresh⟩ :=
      reached.declareVariable_of_plan created plan
    refine ⟨?_, ?_, ?_⟩
    · intro value' machine'' run
      rw [succeeded] at run
      cases run
      exact ⟨address, size, elementSize, fresh⟩
    · intro fault machine'' run
      rw [succeeded] at run
      cases run
    · simp [succeeded]

/-- However a declaration ends, the state that it leaves is reached. -/
theorem Reached.declaration {shape : Shape} (reached : Reached table shape slots machine)
    (name : String) (type : CType) :
    ∃ slots', Reached table shape slots' (Step.left (declareVariable table name type machine)) := by
  rcases machine.declareVariable_cases table name type with
    ⟨fault, machine', run, kept⟩ | ⟨value, image, address, size, plan, -, run⟩
  · rw [run]
    exact ⟨slots, reached.of_setting kept⟩
  · have ending := reached.declared plan run
    rw [run]
    exact ⟨_, ending⟩

/-- Memory with a stack of eight words. -/
def eightWords : Regions :=
  ⟨4, 16, 32, .reclaim⟩

/-- A machine with a `char` at the bottom of its stack, so that its cursor is not aligned. -/
def behindChar (table : StructTable) : Machine :=
  Step.left (declareVariable table "c" .char (start (.blank eightWords) (.start [])))

theorem top_behindChar (table : StructTable) : (behindChar table).frame.scope.top = 21 := by
  rfl

theorem reached_behindChar (table : StructTable) :
    ∃ slots, Reached table (Image.blank eightWords).shape slots (behindChar table) :=
  (Reached.start _ rfl (by decide +kernel)).declaration "c" .char

/-- An `int` there goes to the next word, and a second variable of the name is not declared. -/
theorem int_behind_char_is_fresh :
    Image.create eightWords = .ok (.blank eightWords) ∧
      (∃ slots, Reached .empty (Image.blank eightWords).shape slots (behindChar .empty)) ∧
      (∃ value machine', declareVariable .empty "n" .int (behindChar .empty) = .ok value machine' ∧
        Fresh .empty "n" .int (behindChar .empty) machine' value 24 4 4) ∧
      ∃ fault, declareVariable .empty "c" .int (behindChar .empty) =
        .error fault (behindChar .empty) := by
  have created : Image.create eightWords = .ok (.blank eightWords) := rfl
  obtain ⟨slots, reached⟩ := reached_behindChar .empty
  have top := top_behindChar .empty
  have taken : ((behindChar .empty).frame.local? "c").isSome = true := by decide +kernel
  have free : ((behindChar .empty).frame.local? "n").isNone = true := by decide +kernel
  refine ⟨created, ⟨slots, reached⟩, ?_, ?_⟩
  · obtain ⟨fresh, -, succeeds⟩ := declarations_are_all_or_nothing created reached "n" .int
    obtain ⟨value, machine', run⟩ := succeeds.mpr ⟨Option.isNone_iff_eq_none.mp free, rfl,
      24, 4, 4, rfl, rfl, by rw [Frame.slotAddress, top]; rfl, by decide +kernel⟩
    obtain ⟨address, size, elementSize, slot⟩ := fresh value machine' run
    obtain rfl : 4 = size := Except.ok.inj slot.sized
    obtain rfl : 4 = elementSize := Except.ok.inj slot.elements
    have next := slot.next
    have aligned := slot.aligned (.inl rfl)
    simp only [top, wordSize] at next aligned
    obtain rfl : address = 24 := by omega
    exact ⟨value, machine', run, slot⟩
  · obtain ⟨fresh, unchanged, -⟩ := declarations_are_all_or_nothing created reached "c" .int
    cases run : declareVariable .empty "c" .int (behindChar .empty) with
    | ok value machine' =>
      obtain ⟨_, _, _, slot⟩ := fresh value machine' run
      rw [slot.unbound] at taken
      cases taken
    | error fault machine' =>
      rw [unchanged fault machine' run]
      exact ⟨fault, rfl⟩

/-! ## Slots that cannot be computed -/

/-- Nothing is wrong with the name and the type, but where the first element of the slot would end in
its word is no number of 32 bits. -/
def Aborts (name : String) (type : CType) (elementSize : Nat) (machine : Machine) : Prop :=
  machine.frame.local? name = none ∧ isIncomplete type = false ∧
    wordRange ≤ machine.frame.scope.top % wordSize + elementSize

/-- A declaration ends with a slot that lies inside the address space, or with one of three failures
and without a change. -/
inductive Settled (table : StructTable) (name : String) (type : CType) (machine : Machine) :
    EStateM.Result Fault Machine Value → Prop where
  | slot {value : Value} {machine' : Machine} {address size elementSize : Nat} :
      Fresh table name type machine machine' value address size elementSize →
      address + size < wordRange → Settled table name type machine (.ok value machine')
  | redefined : Settled table name type machine (.error (.type (.redefinition name)) machine)
  | incomplete : Settled table name type machine (.error (.type (.incompleteType type)) machine)
  | overflows (requested available : Nat) : Settled table name type machine
      (.error (.memory (.stackOverflow requested available)) machine)

theorem Aborts.declareVariable_eq (h : machine.Aborts name type elementSize)
    (sized : table.sizeOf type = .ok size) (elements : table.elementSize type = .ok elementSize) :
    declareVariable table name type machine = .error (.overflow .add) machine := by
  obtain ⟨new, complete, overflows⟩ := h
  have plan : machine.planVariable table name type = .error (.overflow .add) := by
    rw [planVariable_of_new (Bindings.find?_eq_none.mp new) complete,
      placeSlot_of_elements sized elements, Frame.slotAddress_of_overflow overflows]
    rfl
  exact declareVariable_of_unplanned plan

/-- A declaration that gets past the sum claims its slot or finds no room for it. -/
theorem Reached.settled_of_fits (created : Image.create regions = .ok image)
    (short : image.size ≤ 4294967292) (reached : Reached table image.shape slots machine)
    (new : machine.frame.scope.bindings.binds name = false) (complete : isIncomplete type = false)
    (sized : table.sizeOf type = .ok size) (elements : table.elementSize type = .ok elementSize)
    (fits : machine.frame.scope.top % wordSize + elementSize < wordRange) :
    Settled table name type machine (declareVariable table name type machine) := by
  obtain ⟨-, -, inside, total, space⟩ := reached.stack_bounds created
  obtain ⟨address, placed⟩ := Frame.exists_slotAddress (by omega) fits
  by_cases room : address + size ≤ machine.image.size
  · have place := placeSlot_eq_ok.mpr ⟨sized, ⟨elementSize, elements, placed⟩, room⟩
    have plan := planVariable_eq_ok.mpr ⟨new, complete, place⟩
    obtain ⟨value, machine', _, run, fresh⟩ := reached.declareVariable_of_plan created plan
    rw [run]
    apply Settled.slot fresh
    omega
  · have full : machine.planVariable table name type =
        .error (.memory (.stackOverflow size (machine.image.size - address))) := by
      rw [planVariable_of_new new complete, placeSlot_of_elements sized elements, placed]
      exact if_neg room
    rw [declareVariable_of_unplanned full]
    exact .overflows _ _

/-- One that does not get to the sum has failed. -/
theorem Reached.settled (created : Image.create regions = .ok image)
    (short : image.size ≤ 4294967292) (reached : Reached table image.shape slots machine)
    (sized : table.sizeOf type = .ok size) (elements : table.elementSize type = .ok elementSize)
    (kept : ¬ machine.Aborts name type elementSize) :
    Settled table name type machine (declareVariable table name type machine) := by
  cases bound : machine.frame.scope.bindings.binds name with
  | true =>
    rw [declareVariable_of_unplanned (planVariable_of_bound bound)]
    exact .redefined
  | false =>
    cases incomplete : isIncomplete type with
    | true =>
      rw [declareVariable_of_unplanned (planVariable_of_incomplete bound incomplete)]
      exact .incomplete
    | false =>
      refine reached.settled_of_fits created short bound incomplete sized elements ?_
      by_contra overflows
      exact kept ⟨Bindings.find?_eq_none.mpr bound, incomplete, Nat.le_of_not_lt overflows⟩

/-- **Of all that is computed to place a slot, only one sum does not always fit 32 bits.**  Whatever
structs are defined, in every state that frames and declarations lead to, if memory leaves a word of
the address space free: take any name and any type that has a size.  The start of the next word
fits, and so does the end of a slot that is claimed.  The sum of the place of the cursor in its word
and the size of an element does not fit if the cursor is inside a word and an element has at least
`2 ^ 32 - 3` bytes, which some structs have.  Such a declaration is aborted if it gets to the sum,
and every other one yields a slot or one of three failures. -/
theorem slots_overflow_in_one_sum (steps : List StructStep)
    (created : Image.create regions = .ok image) (short : image.size ≤ 4294967292)
    (reached : Reached (StructTable.empty.afterAll steps) image.shape slots machine)
    (sized : (StructTable.empty.afterAll steps).sizeOf type = .ok size)
    (elements : (StructTable.empty.afterAll steps).elementSize type = .ok elementSize)
    (name : String) :
    let table := StructTable.empty.afterAll steps
    let top := machine.frame.scope.top
    (top + (wordSize - 1)) / wordSize * wordSize < wordRange ∧
      (machine.Aborts name type elementSize → 4294967293 ≤ elementSize ∧ top % wordSize ≠ 0) ∧
      (machine.Aborts name type elementSize →
        declareVariable table name type machine = .error (.overflow .add) machine) ∧
      (¬ machine.Aborts name type elementSize →
        Settled table name type machine (declareVariable table name type machine)) := by
  intro table top
  obtain ⟨-, -, inside, total, -⟩ := reached.stack_bounds created
  have sound : table.Sound := StructTable.sound_empty.afterAll steps
  refine ⟨Frame.nextWord_lt (by omega), ?_, ?_, ?_⟩
  · rintro ⟨-, -, overflows⟩
    exact Frame.of_sum_overflows (sound.elementSize_lt elements) overflows
  · intro aborts
    exact aborts.declareVariable_eq sized elements
  · exact reached.settled created short sized elements

/-- The greatest struct: one array of bytes. -/
def greatest : StructStep :=
  .declareDefined "Greatest" [("bytes", .array .char [4294967295])]

theorem aborts_behindChar (table : StructTable) :
    (behindChar table).Aborts "g" (.struct ⟨0, "Greatest"⟩) 4294967295 := by
  refine ⟨rfl, rfl, ?_⟩
  rw [top_behindChar]
  decide

/-- At an aligned cursor there is no room for it, and behind a `char` it is aborted. -/
theorem greatest_struct_aborts_behind_char_only :
    let table := StructTable.empty.afterAll [greatest]
    let type : CType := .struct ⟨0, "Greatest"⟩
    let aligned := start (.blank eightWords) (.start [])
    (∃ slots, Reached table (Image.blank eightWords).shape slots (behindChar table)) ∧
      table.sizeOf type = .ok 4294967295 ∧ table.elementSize type = .ok 4294967295 ∧
      Settled table "g" type aligned (declareVariable table "g" type aligned) ∧
      declareVariable table "g" type (behindChar table) =
        .error (.overflow .add) (behindChar table) := by
  intro table type aligned
  have created : Image.create eightWords = .ok (.blank eightWords) := rfl
  have short : (Image.blank eightWords).size ≤ 4294967292 := by decide +kernel
  have sized : table.sizeOf type = .ok 4294967295 := rfl
  have first : Reached table (Image.blank eightWords).shape [] aligned :=
    .start _ rfl (by decide +kernel)
  obtain ⟨slots, behind⟩ := reached_behindChar table
  obtain ⟨-, -, -, settled⟩ :=
    slots_overflow_in_one_sum [greatest] created short first sized sized "g"
  obtain ⟨-, -, aborted, -⟩ :=
    slots_overflow_in_one_sum [greatest] created short behind sized sized "g"
  refine ⟨⟨slots, behind⟩, sized, sized, settled ?_, aborted (aborts_behindChar table)⟩
  rintro ⟨-, -, overflows⟩
  exact absurd overflows (by decide +kernel)

/-- So a declaration of a type that has a size may yield neither a slot nor a failure. -/
theorem greatest_struct_behind_char_is_not_settled :
    let table := StructTable.empty.afterAll [greatest]
    let type : CType := .struct ⟨0, "Greatest"⟩
    (∃ slots, Reached table (Image.blank eightWords).shape slots (behindChar table)) ∧
      table.sizeOf type = .ok 4294967295 ∧ table.elementSize type = .ok 4294967295 ∧
      wordRange ≤ (behindChar table).frame.scope.top % wordSize + 4294967295 ∧
      ¬ Settled table "g" type (behindChar table)
        (declareVariable table "g" type (behindChar table)) := by
  intro table type
  have sized : table.sizeOf type = .ok 4294967295 := rfl
  have aborts := aborts_behindChar table
  refine ⟨reached_behindChar table, sized, sized, aborts.2.2, ?_⟩
  rw [aborts.declareVariable_eq sized sized]
  rintro ⟨⟩

end Machine

end FlatC

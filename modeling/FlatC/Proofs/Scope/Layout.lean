import FlatC.Proofs.Refine
import FlatC.Proofs.Scope.Declare
import Mathlib.Data.List.Chain

/-!
# Where variables lie

The frames of a machine lie on the stack one above the other: each starts where the one that
opened it had come to.  The variables of a frame lie in its part of the stack, in the order of
their declaration.  So no two variables of open frames have a byte in common.

* `Frame.vars` and `Machine.vars` are the variables of one frame and of all open ones;
* `Frame.Filled` says how the variables of a frame lie, and `Stacked` how frames do;
* `Stacked.apart` says that all variables are apart;
* `Machine.planVariable_eq_ok` says when there is a slot for a new variable.
-/

namespace FlatC

/-- A name with a slot. -/
structure Variable where
  name : String
  type : CType
  address : Nat

namespace Variable

/-- The size of the type of a variable. -/
def size (table : StructTable) (v : Variable) : Nat :=
  match table.sizeOf v.type with
  | .ok size => size
  | .error _ => 0

/-- The slot of a variable. -/
def slot (table : StructTable) (v : Variable) : Slot :=
  ⟨v.address, v.size table⟩

theorem size_eq {table : StructTable} {v : Variable} {size : Nat}
    (h : table.sizeOf v.type = .ok size) : v.size table = size := by
  rw [Variable.size, h]

end Variable

/-! ## Variables of frames -/

namespace Bindings

/-- The variable of a binding. -/
def toVar? (entry : String × Binding) : Option Variable :=
  match entry.2.meaning with
  | .slot address => some ⟨entry.1, entry.2.type, address⟩
  | .function _ => none

/-- The variables among bindings, in the order of their declaration. -/
def vars (bindings : Bindings) : List Variable :=
  bindings.filterMap toVar?

theorem vars_bind_slot {bindings : Bindings} {name : String}
    (new : bindings.binds name = false) (type : CType) (address : Nat) :
    (bindings.bind name ⟨type, .slot address⟩).vars =
      bindings.vars ++ [⟨name, type, address⟩] := by
  simp [bind, new, vars, toVar?]

/-- A change that leaves each binding alone or makes it a function adds no variable. -/
theorem vars_map {change : String × Binding → String × Binding}
    (h : ∀ entry, toVar? (change entry) = none ∨ change entry = entry) (bindings : Bindings) :
    (vars (bindings.map change)).Sublist bindings.vars := by
  unfold vars
  induction bindings with
  | nil => exact List.Sublist.slnil
  | cons entry rest ih =>
    rw [List.map_cons, List.filterMap_cons, List.filterMap_cons]
    rcases h entry with gone | same
    · rw [gone]
      cases toVar? entry with
      | none => exact ih
      | some v => exact ih.cons v
    · rw [same]
      cases toVar? entry with
      | none => exact ih
      | some v => exact ih.cons_cons v

/-- Binding a function adds no variable. -/
theorem vars_bindFunction (bindings : Bindings) (name : String) (callee : Callee) :
    (bindings.bindFunction name callee).vars.Sublist bindings.vars := by
  unfold bindFunction bind
  split
  · refine vars_map (fun entry => ?_) bindings
    by_cases same : entry.1 == name
    · exact Or.inl (by rw [if_pos same]; rfl)
    · exact Or.inr (if_neg same)
  · simp [vars, toVar?]

theorem vars_declareFunction {bindings bindings' : Bindings} {name : String} {callee : Callee}
    (ok : bindings.declareFunction name callee = .ok bindings') :
    bindings'.vars.Sublist bindings.vars := by
  unfold declareFunction at ok
  split at ok
  · cases ok
    exact bindings.vars_bindFunction name callee
  · cases ok
  · split at ok
    · cases ok
    · split at ok
      · cases ok
        exact List.Sublist.refl _
      · split at ok
        · cases ok
        · cases ok
          exact bindings.vars_bindFunction name callee

end Bindings

/-- The variables declared in the scope of a frame. -/
def Frame.vars (frame : Frame) : List Variable :=
  frame.scope.bindings.vars

/-- The open frames of a machine, the innermost first. -/
def Machine.frames (machine : Machine) : List Frame :=
  machine.frame :: machine.openers

/-- The variables of all open frames. -/
def Machine.vars (machine : Machine) : List Variable :=
  machine.frames.flatMap Frame.vars

/-! ## Frames on the stack -/

/-- The variables of the frame lie in its part of the stack, one behind the other. -/
structure Frame.Filled (table : StructTable) (frame : Frame) : Prop where
  base_le_top : frame.scope.base ≤ frame.scope.top
  sized : ∀ v ∈ frame.vars, table.sizeOf v.type = .ok (v.size table)
  placed : ∀ v ∈ frame.vars, frame.scope.base ≤ v.address ∧ (v.slot table).stop ≤ frame.scope.top
  ordered : frame.vars.Pairwise fun v w => (v.slot table).stop ≤ w.address

/-- The frames lie on the stack one above the other, the first on top of the others and the last
from `bottom` on.  A frame sees nothing but scopes of frames below it. -/
inductive Stacked (table : StructTable) (bottom : Nat) : List Frame → Prop where
  | root {frame : Frame} : frame.scope.base = bottom → frame.outer = [] → frame.Filled table →
      Stacked table bottom [frame]
  | opened {frame opener : Frame} {rest : List Frame} :
      frame.scope.base = opener.scope.top →
      frame.outer ⊆ (opener :: rest).map Frame.scope → frame.Filled table →
      Stacked table bottom (opener :: rest) → Stacked table bottom (frame :: opener :: rest)

namespace Stacked

variable {table : StructTable} {bottom : Nat} {frame : Frame} {rest : List Frame}

theorem filled (h : Stacked table bottom (frame :: rest)) : frame.Filled table := by
  cases h with
  | root _ _ filled => exact filled
  | opened _ _ filled _ => exact filled

theorem filled_of_mem (h : Stacked table bottom (frame :: rest)) : ∀ other ∈ frame :: rest,
    other.Filled table := by
  induction rest generalizing frame with
  | nil =>
    intro other mem
    rw [List.mem_singleton.mp mem]
    exact h.filled
  | cons opener rest ih =>
    intro other mem
    rcases List.mem_cons.mp mem with rfl | lower
    · exact h.filled
    · cases h with
      | opened _ _ _ below => exact ih below other lower

/-- A frame sees the scopes of the open frames only. -/
theorem scopes_subset (h : Stacked table bottom (frame :: rest)) :
    frame.scopes ⊆ (frame :: rest).map Frame.scope := by
  cases h with
  | root _ outer _ =>
    rw [Frame.scopes, outer]
    exact List.Subset.refl _
  | opened _ outer _ _ => exact List.cons_subset_cons _ outer

/-- Every frame lies between the bottom of the stack and the cursor of the top frame. -/
theorem within (h : Stacked table bottom (frame :: rest)) : ∀ other ∈ frame :: rest,
    bottom ≤ other.scope.base ∧ other.scope.base ≤ other.scope.top ∧
      other.scope.top ≤ frame.scope.top := by
  induction rest generalizing frame with
  | nil =>
    intro other mem
    cases h with
    | root start _ filled =>
      rw [List.mem_singleton.mp mem]
      exact ⟨Nat.le_of_eq start.symm, filled.base_le_top, Nat.le_refl _⟩
  | cons opener rest ih =>
    cases h with
    | opened start _ filled below =>
      have ofOpener := ih below opener List.mem_cons_self
      have grown := filled.base_le_top
      intro other mem
      rcases List.mem_cons.mp mem with rfl | lower
      · omega
      · have := ih below other lower
        omega

/-- The top frame may be replaced by one that starts at the same place and sees the same. -/
theorem replace {frame' : Frame} (h : Stacked table bottom (frame :: rest))
    (base : frame'.scope.base = frame.scope.base) (outer : frame'.outer = frame.outer)
    (filled : frame'.Filled table) : Stacked table bottom (frame' :: rest) := by
  cases h with
  | root start alone _ => exact .root (base.trans start) (outer.trans alone) filled
  | opened start sees _ below => exact .opened (base.trans start) (outer ▸ sees) filled below

theorem linked {frames : List Frame} (h : Stacked table bottom frames) :
    frames.IsChain fun frame opener => frame.scope.base = opener.scope.top := by
  induction h with
  | root _ _ _ => exact List.IsChain.singleton _
  | opened start _ _ _ ih => exact ih.cons_cons start

/-- No two variables of the frames have a byte in common. -/
theorem apart (h : Stacked table bottom (frame :: rest)) :
    ((frame :: rest).flatMap Frame.vars).Pairwise fun v w =>
      (v.slot table).Apart (w.slot table) := by
  induction rest generalizing frame with
  | nil =>
    rw [List.flatMap_singleton]
    exact h.filled.ordered.imp Or.inl
  | cons opener rest ih =>
    have own := h.filled
    cases h with
    | opened start _ _ below =>
      rw [List.flatMap_cons, List.pairwise_append]
      refine ⟨own.ordered.imp Or.inl, ih below, fun v mine w others => Or.inr ?_⟩
      -- what belongs to a frame below ends before this frame starts
      obtain ⟨other, mem, among⟩ := List.mem_flatMap.mp others
      have otherFilled : other.Filled table := below.filled_of_mem other mem
      have belowTop := (below.within other mem).2.2
      have ends := (otherFilled.placed w among).2
      have starts := (own.placed v mine).1
      show (w.slot table).stop ≤ v.address
      omega

end Stacked

/-! ## Changes of the top frame -/

namespace Frame

variable {table : StructTable} {frame : Frame}

theorem filled_inside (scopes : List Scope) (cursor depth : Nat) :
    (inside scopes cursor depth).Filled table :=
  ⟨Nat.le_refl _, nofun, nofun, List.Pairwise.nil⟩

theorem Filled.withTop (h : frame.Filled table) {top : Nat} (le : frame.scope.top ≤ top) :
    (frame.withTop top).Filled table :=
  ⟨Nat.le_trans h.base_le_top le, h.sized,
    fun v mem => ⟨(h.placed v mem).1, Nat.le_trans (h.placed v mem).2 le⟩, h.ordered⟩

/-- A new slot behind the cursor keeps the order of the variables. -/
theorem Filled.bindSlot (h : frame.Filled table) {name : String} {type : CType}
    {address size : Nat} (new : frame.scope.bindings.binds name = false)
    (sized : table.sizeOf type = .ok size) (above : frame.scope.top ≤ address) :
    (frame.bindSlot name type address size).Filled table := by
  have vars : (frame.bindSlot name type address size).vars =
      frame.vars ++ [⟨name, type, address⟩] :=
    Bindings.vars_bind_slot new type address
  have slot : Variable.slot table ⟨name, type, address⟩ = ⟨address, size⟩ := by
    rw [Variable.slot, Variable.size_eq sized]
  have := h.base_le_top
  refine ⟨?_, fun v mem => ?_, fun v mem => ?_, ?_⟩
  · show frame.scope.base ≤ address + size
    omega
  · rw [vars, List.mem_append, List.mem_singleton] at mem
    rcases mem with old | rfl
    · exact h.sized v old
    · rw [Variable.size_eq sized]
      exact sized
  · show frame.scope.base ≤ v.address ∧ (v.slot table).stop ≤ address + size
    rw [vars, List.mem_append, List.mem_singleton] at mem
    rcases mem with old | rfl
    · have := h.placed v old
      omega
    · rw [slot]
      exact ⟨Nat.le_trans h.base_le_top above, Nat.le_refl _⟩
  · rw [vars, List.pairwise_append]
    refine ⟨h.ordered, List.pairwise_singleton .., fun v old w last => ?_⟩
    rw [List.mem_singleton.mp last]
    exact Nat.le_trans (h.placed v old).2 above

/-- Fewer variables lie as they did. -/
theorem Filled.fewer (h : frame.Filled table) {bindings : Bindings}
    (fewer : bindings.vars.Sublist frame.vars) :
    Filled table { frame with scope := { frame.scope with bindings } } :=
  ⟨h.base_le_top, fun v mem => h.sized v (fewer.subset mem),
    fun v mem => h.placed v (fewer.subset mem), h.ordered.sublist fewer⟩

/-- A slot starts at the cursor or at the next word, and there if its first element would not fit
into the word of the cursor. -/
theorem slotAddress_ok {elementSize address : Nat}
    (h : frame.slotAddress elementSize = .ok address) :
    frame.scope.top ≤ address ∧ address < frame.scope.top + wordSize ∧
      (elementSize ≤ wordSize → address % wordSize + elementSize ≤ wordSize) := by
  unfold slotAddress at h
  obtain ⟨stop, checked, h⟩ := bind_eq_ok.mp h
  obtain ⟨-, rfl⟩ := checkedWord_eq_ok.mp checked
  by_cases crosses : wordSize < frame.scope.top % wordSize + elementSize
  · rw [if_pos crosses] at h
    obtain ⟨-, rfl⟩ := checkedWord_eq_ok.mp h
    simp only [wordSize]
    omega
  · rw [if_neg crosses] at h
    cases h
    simp only [wordSize] at crosses ⊢
    omega

end Frame

/-! ## Planned slots -/

namespace Machine

section Plan

variable {table : StructTable} {name : String} {type : CType} {machine : Machine}
  {address size elementSize : Nat}

/-- A slot for a type of known size goes where its elements may, if there is room for it. -/
theorem placeSlot_of_sized (sized : table.sizeOf type = .ok size) :
    machine.placeSlot table type = (do
      let elementSize ← table.elementSize type
      let address ← machine.frame.slotAddress elementSize
      if address + size ≤ machine.image.size then return (address, size)
      else throw (.memory (.stackOverflow size (machine.image.size - address)))) := by
  simp only [placeSlot, sized]
  rfl

theorem placeSlot_of_elements (sized : table.sizeOf type = .ok size)
    (elements : table.elementSize type = .ok elementSize) :
    machine.placeSlot table type = machine.frame.slotAddress elementSize >>= fun address =>
      if address + size ≤ machine.image.size then .ok (address, size)
      else .error (.memory (.stackOverflow size (machine.image.size - address))) := by
  rw [placeSlot_of_sized sized, elements]
  rfl

/-- A slot can be placed if its type has a size, its first element a place, and both fit what is
left of memory. -/
theorem placeSlot_eq_ok :
    machine.placeSlot table type = .ok (address, size) ↔
      table.sizeOf type = .ok size ∧
      (∃ elementSize, table.elementSize type = .ok elementSize ∧
        machine.frame.slotAddress elementSize = .ok address) ∧
      address + size ≤ machine.image.size := by
  constructor
  · intro h
    cases sized : table.sizeOf type with
    | error fault =>
      simp only [placeSlot, sized, bind, Except.bind] at h
      split at h
      · cases h
      · cases h
    | ok bytes =>
      rw [placeSlot_of_sized sized] at h
      obtain ⟨elementSize, element, h⟩ := bind_eq_ok.mp h
      obtain ⟨place, placed, h⟩ := bind_eq_ok.mp h
      by_cases fits : place + bytes ≤ machine.image.size
      · rw [if_pos fits] at h
        cases h
        exact ⟨rfl, ⟨elementSize, element, placed⟩, fits⟩
      · rw [if_neg fits] at h
        cases h
  · rintro ⟨sized, ⟨elementSize, elements, placed⟩, fits⟩
    rw [placeSlot_of_elements sized elements, placed]
    exact if_pos fits

theorem planVariable_of_bound (bound : machine.frame.scope.bindings.binds name = true) :
    machine.planVariable table name type = .error (.type (.redefinition name)) := by
  simp only [planVariable, bound]
  rfl

theorem planVariable_of_incomplete (new : machine.frame.scope.bindings.binds name = false)
    (incomplete : isIncomplete type = true) :
    machine.planVariable table name type = .error (.type (.incompleteType type)) := by
  simp only [planVariable, new, incomplete]
  rfl

theorem planVariable_of_new (new : machine.frame.scope.bindings.binds name = false)
    (complete : isIncomplete type = false) :
    machine.planVariable table name type = machine.placeSlot table type := by
  simp only [planVariable, new, complete]
  rfl

/-- A slot is planned for a new name and a type of which there are variables, if it can be
placed. -/
theorem planVariable_eq_ok {slot : Nat × Nat} :
    machine.planVariable table name type = .ok slot ↔
      machine.frame.scope.bindings.binds name = false ∧ isIncomplete type = false ∧
      machine.placeSlot table type = .ok slot := by
  cases bound : machine.frame.scope.bindings.binds name with
  | true => simp [planVariable_of_bound bound]
  | false =>
    cases incomplete : isIncomplete type with
    | true => simp [planVariable_of_incomplete bound incomplete]
    | false => simp [planVariable_of_new bound incomplete]

/-- The slot that is planned for a variable has the size of its type, and lies between the cursor
and the end of memory. -/
theorem planVariable_ok (h : machine.planVariable table name type = .ok (address, size)) :
    machine.frame.scope.bindings.binds name = false ∧ table.sizeOf type = .ok size ∧
      machine.frame.scope.top ≤ address ∧ address + size ≤ machine.image.size := by
  obtain ⟨new, -, place⟩ := planVariable_eq_ok.mp h
  obtain ⟨sized, ⟨elementSize, -, placed⟩, fits⟩ := placeSlot_eq_ok.mp place
  exact ⟨new, sized, (Frame.slotAddress_ok placed).1, fits⟩

end Plan

/-! ## Machines -/

/-- The frames of the machine lie on its stack one above the other, and the stack holds them. -/
structure WellStacked (table : StructTable) (machine : Machine) : Prop where
  stacked : Stacked table machine.image.stackBottom machine.frames
  inside : machine.frame.scope.top ≤ machine.image.size

variable {table : StructTable} {machine machine' : Machine}

theorem wellStacked_start {image : Image} (console : Console)
    (h : image.stackBottom ≤ image.size) : (start image console).WellStacked table :=
  ⟨.root rfl rfl ⟨Nat.le_refl _, nofun, nofun, List.Pairwise.nil⟩, h⟩

namespace WellStacked

theorem congr (h : machine.WellStacked table)
    (shape : machine'.image.shape = machine.image.shape) (frame : machine'.frame = machine.frame)
    (openers : machine'.openers = machine.openers) : machine'.WellStacked table := by
  have size : machine'.image.size = machine.image.size := congrArg Shape.size shape
  have bottom : machine'.image.stackBottom = machine.image.stackBottom :=
    congrArg Shape.stackBottom shape
  refine ⟨?_, ?_⟩
  · rw [frames, frame, openers, bottom]
    exact h.stacked
  · rw [frame, size]
    exact h.inside

/-- A frame may be opened with scopes of frames that are open. -/
theorem enter (h : machine.WellStacked table) {opening : Frame → Frame} {scopes : List Scope}
    {depth : Nat}
    (opens : opening machine.frame = .inside scopes machine.frame.scope.top depth)
    (sees : scopes ⊆ machine.frame.scopes) : (machine.enter opening).WellStacked table := by
  refine ⟨?_, ?_⟩
  · show Stacked table _ (opening machine.frame :: machine.frame :: machine.openers)
    rw [opens]
    refine .opened rfl (fun scope mem => ?_) (Frame.filled_inside scopes _ depth) h.stacked
    exact h.stacked.scopes_subset (sees mem)
  · show (opening machine.frame).scope.top ≤ machine.image.size
    rw [opens]
    exact h.inside

theorem enterBlock (h : machine.WellStacked table) :
    (machine.enter Frame.block).WellStacked table :=
  h.enter rfl (List.Subset.refl _)

theorem enterActivation (h : machine.WellStacked table) :
    (machine.enter Frame.activation).WellStacked table :=
  h.enter rfl (List.dropWhile_subset _)

/-- The opener of a closed frame goes on somewhere from its cursor on, inside the closed frame. -/
theorem close (h : machine.WellStacked table) : machine.close.WellStacked table := by
  obtain ⟨image, frame, openers, console⟩ := machine
  cases openers with
  | nil => exact h
  | cons opener openers =>
    cases h.stacked with
    | opened start _ filled below =>
      have cursor : opener.scope.top ≤ frame.cursorAfter image.policy ∧
          frame.cursorAfter image.policy ≤ frame.scope.top := by
        have := filled.base_le_top
        unfold Frame.cursorAfter
        cases image.policy with
        | reclaim => exact ⟨Nat.le_of_eq start.symm, this⟩
        | growOnly => exact ⟨start ▸ this, Nat.le_refl _⟩
      refine ⟨?_, Nat.le_trans cursor.2 h.inside⟩
      exact below.replace rfl rfl (below.filled.withTop cursor.1)

/-- A variable gets a slot behind the cursor. -/
theorem withSlot (h : machine.WellStacked table) {name : String} {type : CType}
    {address size : Nat} (plan : machine.planVariable table name type = .ok (address, size))
    {image : Image} (shape : image.shape = machine.image.shape) :
    (machine.withSlot image name type address size).WellStacked table := by
  obtain ⟨new, sized, above, fits⟩ := planVariable_ok plan
  have bottom : image.stackBottom = machine.image.stackBottom := congrArg Shape.stackBottom shape
  have total : image.size = machine.image.size := congrArg Shape.size shape
  refine ⟨?_, ?_⟩
  · show Stacked table image.stackBottom _
    rw [bottom]
    exact h.stacked.replace rfl rfl (h.stacked.filled.bindSlot new sized above)
  · show address + size ≤ image.size
    rw [total]
    exact fits

theorem declareFunction (h : machine.WellStacked table) (name : String) (callee : Callee) :
    (Step.left (Machine.declareFunction name callee machine)).WellStacked table := by
  rcases machine.declareFunction_cases name callee with ⟨fault, run⟩ | ⟨bindings, ok, run⟩
  · rw [run]
    exact h
  · rw [run]
    have fewer := h.stacked.filled.fewer (Bindings.vars_declareFunction ok)
    exact ⟨h.stacked.replace rfl rfl fewer, h.inside⟩

end WellStacked

end Machine

end FlatC

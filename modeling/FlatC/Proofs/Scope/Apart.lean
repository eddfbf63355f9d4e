import FlatC.Proofs.Image.Bytes
import FlatC.Proofs.Scope.Layout
import FlatC.Proofs.Value.ResultType

/-!
# No two live variables overlap

Whatever a run does with frames and declarations, the variables of its open frames lie apart, so
what is stored in one of them cannot be seen in another.  If the stack only grows, then even the
slots of variables that are gone are never used again.

* `Machine.Reached` are the states that frames and declarations lead to, with all slots that were
  claimed on the way;
* `Machine.TidyStack` is what holds in each of them, by `Machine.Reached.wellStacked` and
  `Machine.WellStacked.tidyStack`;
* `Machine.Reached.ordered` is what holds of the claimed slots if the stack only grows.
-/

namespace FlatC

/-! ## What an assignment changes -/

namespace Image

/-- A stored value takes up no more than the size of its type. -/
theorem storedSize_le {table : StructTable} {value : Value} {size : Nat}
    (sized : table.sizeOf value.type = .ok size) : storedSize value ≤ size := by
  unfold storedSize stored?
  cases type : value.type with
  | int | float | char | pointer _ =>
    rw [type] at sized
    cases sized
    simp
  | void | function | array _ _ | struct _ => simp

/-- Storing a converted value changes no byte outside a slot of its type. -/
theorem sameBytes_storeAs {table : StructTable} (image : Image) (value : Value) {address size : Nat}
    {type : CType} (sized : table.sizeOf type = .ok size) {start stop : Nat}
    (outside : stop ≤ address ∨ address + size ≤ start) :
    image.SameBytes ((value.storeAs address type).after image) start stop := by
  cases conversion : value.implicit type with
  | error fault =>
    have unchanged : (value.storeAs address type).after image = image := by
      simp [Value.storeAs, Store.after, Store.of, conversion, bind, EStateM.bind]
    rw [unchanged]
    exact SameBytes.refl _ _ _
  | ok converted =>
    have stored : (value.storeAs address type).after image =
        (store address converted).after image := by
      simp [Value.storeAs, Store.after, Store.of, conversion, bind, EStateM.bind]
    have kind := Value.type_implicit conversion
    have fits : storedSize converted ≤ size := storedSize_le (by rw [kind]; exact sized)
    rw [stored]
    exact (image.store_written address converted).sameBytes (by omega)

end Image

/-- A step on memory leaves the rest of the machine as it was. -/
theorem Exec.left_onImage {α : Type} (step : Store α) (machine : Machine) :
    Step.left (Exec.onImage step machine) =
      { machine with image := step.after machine.image } := by
  cases ended : step machine.image with
  | ok _ image | error fault image => simp only [Exec.onImage, Store.after, Step.left, ended]

namespace Machine

variable {table : StructTable} {machine : Machine}

/-- An assignment to a variable stores the converted value in its slot. -/
theorem assignVariable_eq {name : String} {address : Nat} {type : CType}
    (found : machine.slotOf name = .ok (address, type)) (value : Value) :
    Step.left (assignVariable name value machine) =
      { machine with image := (value.storeAs address type).after machine.image } := by
  have asked : Exec.ask (slotOf name) machine = .ok (address, type) machine := by
    simp only [Exec.ask, found]
  have run : assignVariable name value machine =
      Exec.onImage (value.storeAs address type) machine := Step.bind_of_ok asked
  rw [run, Exec.left_onImage]

/-- The slot that a name stands for is one of the variables of the open frames. -/
theorem mem_vars_of_find? (h : machine.WellStacked table) {name : String} {address : Nat}
    {type : CType} (found : machine.frame.find? name = some ⟨type, .slot address⟩) :
    (⟨name, type, address⟩ : Variable) ∈ machine.vars := by
  obtain ⟨scope, sees, bound⟩ := machine.frame.mem_of_find? found
  obtain ⟨frame, among, rfl⟩ := List.mem_map.mp (h.stacked.scopes_subset sees)
  exact List.mem_flatMap.mpr ⟨frame, among, List.mem_filterMap.mpr ⟨_, bound, rfl⟩⟩

theorem sizeOf_of_mem_vars (h : machine.WellStacked table) {v : Variable}
    (mem : v ∈ machine.vars) : table.sizeOf v.type = .ok (v.size table) := by
  obtain ⟨frame, among, own⟩ := List.mem_flatMap.mp mem
  exact (h.stacked.filled_of_mem frame among).sized v own

/-- All variables lie below the cursor. -/
theorem stop_le_top (h : machine.WellStacked table) {v : Variable} (mem : v ∈ machine.vars) :
    v.address + v.size table ≤ machine.frame.scope.top := by
  obtain ⟨frame, among, own⟩ := List.mem_flatMap.mp mem
  have stop := ((h.stacked.filled_of_mem frame among).placed v own).2
  exact Nat.le_trans stop (h.stacked.within frame among).2.2

theorem vars_apart (h : machine.WellStacked table) :
    machine.vars.Pairwise fun v w => (v.slot table).Apart (w.slot table) :=
  h.stacked.apart

/-- An assignment to a variable changes no other variable of an open frame. -/
theorem read_assignVariable (h : machine.WellStacked table) {name : String} (value : Value)
    {before after : List Variable} {v : Variable} (split : machine.vars = before ++ v :: after)
    (found : machine.slotOf name = .ok (v.address, v.type)) {w : Variable}
    (other : w ∈ before ++ after) :
    (Step.left (assignVariable name value machine)).image.read table w.address w.type =
      machine.image.read table w.address w.type := by
  have apart := vars_apart h
  rw [split, List.pairwise_append, List.pairwise_cons] at apart
  obtain ⟨-, ⟨behind, -⟩, across⟩ := apart
  have outside : (w.slot table).stop ≤ v.address ∨ (v.slot table).stop ≤ w.address := by
    rcases List.mem_append.mp other with earlier | later
    · exact across w earlier v List.mem_cons_self
    · exact (behind w later).symm
  have sizedV := sizeOf_of_mem_vars h (v := v) (by simp [split])
  have sizedW := sizeOf_of_mem_vars h (v := w) (by grind)
  have shape := Image.keepingShape.storeAs value v.address v.type machine.image
  have total := congrArg Shape.size shape
  rw [← Store.after_eq_left] at total
  rw [assignVariable_eq found value]
  exact Image.read_congr sizedW total (machine.image.sameBytes_storeAs value sizedV outside)

/-- The names that stand for other variables keep their values. -/
theorem valueOf_assignVariable (h : machine.WellStacked table) {name other : String}
    (value : Value) (different : other ≠ name) :
    valueOf table other (Step.left (assignVariable name value machine)) =
      machine.valueOf table other := by
  cases found : machine.slotOf name with
  | error fault =>
    have unchanged : Step.left (assignVariable name value machine) = machine := by
      simp [assignVariable, bind, EStateM.bind, Exec.ask, found, Step.left]
    rw [unchanged]
  | ok slot =>
    obtain ⟨address, type⟩ := slot
    have assigned := mem_vars_of_find? h (find?_of_slotOf found)
    rw [assignVariable_eq found value]
    refine valueOf_congr fun type' address' resolved => ?_
    have mem := mem_vars_of_find? h resolved
    obtain ⟨before, after, split⟩ := List.append_of_mem assigned
    have rest : (⟨other, type', address'⟩ : Variable) ∈ before ++ after := by
      rw [split] at mem
      simp only [List.mem_append, List.mem_cons, Variable.mk.injEq, different, false_and,
        false_or] at mem ⊢
      exact mem
    have kept := read_assignVariable h value split found rest
    rwa [assignVariable_eq found value] at kept

/-! ## States and slots that are reached -/

/-- The states that a machine with memory of a given shape gets into by opening and closing frames,
by declarations, and by whatever leaves the frames and the shape alone; with the slots of all
variables that were declared on the way. -/
inductive Reached (table : StructTable) (shape : Shape) : List Slot → Machine → Prop where
  | start {image : Image} (console : Console) : image.shape = shape →
      shape.stackBottom ≤ shape.size → Reached table shape [] (start image console)
  | block {slots : List Slot} {machine : Machine} : Reached table shape slots machine →
      Reached table shape slots (machine.enter Frame.block)
  | activation {slots : List Slot} {machine : Machine} : Reached table shape slots machine →
      Reached table shape slots (machine.enter Frame.activation)
  | close {slots : List Slot} {machine : Machine} : Reached table shape slots machine →
      Reached table shape slots machine.close
  | declared {slots : List Slot} {machine machine' : Machine} {name : String} {type : CType}
      {value : Value} {address size : Nat} : Reached table shape slots machine →
      machine.planVariable table name type = .ok (address, size) →
      declareVariable table name type machine = .ok value machine' →
      Reached table shape (slots ++ [⟨address, size⟩]) machine'
  | bound {slots : List Slot} {machine : Machine} (name : String) (callee : Callee) :
      Reached table shape slots machine →
      Reached table shape slots (Step.left (declareFunction name callee machine))
  | other {slots : List Slot} {machine machine' : Machine} : Reached table shape slots machine →
      machine'.image.shape = machine.image.shape → machine'.frame = machine.frame →
      machine'.openers = machine.openers → Reached table shape slots machine'

namespace Reached

variable {shape : Shape} {slots : List Slot}

/-- What leaves the setting alone leads to no other states. -/
theorem of_setting {machine' : Machine} (h : Reached table shape slots machine)
    (kept : machine'.setting = machine.setting) : Reached table shape slots machine' :=
  h.other (congrArg Setting.shape kept) (congrArg Setting.frame kept)
    (congrArg Setting.openers kept)

/-- A declaration that succeeds has bound the planned slot. -/
theorem eq_withSlot {machine' : Machine} {name : String} {type : CType} {value : Value}
    {address size : Nat} (plan : machine.planVariable table name type = .ok (address, size))
    (run : declareVariable table name type machine = .ok value machine') :
    ∃ image : Image, image.shape = machine.image.shape ∧
      machine' = machine.withSlot image name type address size := by
  rcases machine.declareVariable_cases table name type with
    ⟨fault, other, failed, _⟩ | ⟨value', image, address', size', plan', kept, run'⟩
  · rw [failed] at run
    cases run
  · rw [plan'] at plan
    rw [run'] at run
    cases plan
    cases run
    exact ⟨image, kept, rfl⟩

theorem shape_eq (h : Reached table shape slots machine) : machine.image.shape = shape := by
  induction h with
  | start _ same _ => exact same
  | block _ ih => exact ih
  | activation _ ih => exact ih
  | close _ ih => rwa [close_image]
  | declared _ plan run ih =>
    obtain ⟨image, kept, rfl⟩ := eq_withSlot plan run
    exact kept.trans ih
  | @bound _ machine name callee _ ih =>
    rcases machine.declareFunction_cases name callee with ⟨fault, run⟩ | ⟨bindings, _, run⟩
    · rwa [run]
    · rwa [run]
  | other _ same _ _ ih => exact same.trans ih

theorem wellStacked (h : Reached table shape slots machine) : machine.WellStacked table := by
  induction h with
  | start console same inside => exact wellStacked_start console (by subst same; exact inside)
  | block _ ih => exact ih.enterBlock
  | activation _ ih => exact ih.enterActivation
  | close _ ih => exact ih.close
  | declared _ plan run ih =>
    obtain ⟨image, kept, rfl⟩ := eq_withSlot plan run
    exact ih.withSlot plan kept
  | bound name callee _ ih => exact ih.declareFunction name callee
  | other _ same frame openers ih => exact ih.congr same frame openers

/-- If the stack only grows, then all slots that were ever claimed lie one behind the other, below
the cursor. -/
theorem ordered (h : Reached table shape slots machine) (grows : shape.policy = .growOnly) :
    (slots.Pairwise fun a b => a.stop ≤ b.address) ∧
      ∀ slot ∈ slots, slot.stop ≤ machine.frame.scope.top := by
  induction h with
  | start console _ _ => exact ⟨List.Pairwise.nil, nofun⟩
  | block _ ih => exact ih
  | activation _ ih => exact ih
  | @close _ machine reached ih =>
    have policy : machine.image.policy = .growOnly := by
      rw [← grows, ← reached.shape_eq]
      rfl
    refine ⟨ih.1, fun slot mem => ?_⟩
    have cursor : machine.close.frame.scope.top = machine.frame.scope.top := by
      unfold Machine.close
      rw [policy]
      split <;> rfl
    rw [cursor]
    exact ih.2 slot mem
  | declared _ plan run ih =>
    obtain ⟨image, kept, rfl⟩ := eq_withSlot plan run
    obtain ⟨_, _, above, _⟩ := planVariable_ok plan
    refine ⟨?_, fun slot mem => ?_⟩
    · rw [List.pairwise_append]
      refine ⟨ih.1, List.pairwise_singleton .., fun a old b last => ?_⟩
      rw [List.mem_singleton.mp last]
      exact Nat.le_trans (ih.2 a old) above
    · rcases List.mem_append.mp mem with old | last
      · exact Nat.le_trans (ih.2 slot old) (Nat.le_trans above (Nat.le_add_right _ _))
      · rw [List.mem_singleton.mp last]
        exact Nat.le_refl _
  | @bound _ machine name callee _ ih =>
    rcases machine.declareFunction_cases name callee with ⟨fault, run⟩ | ⟨bindings, _, run⟩
    · rwa [run]
    · rwa [run]
  | other _ _ frame _ ih =>
    rw [frame]
    exact ih

end Reached

/-! ## Tidy stacks -/

/-- What holds of the frames and the variables of a machine.  Each frame starts where its opener
has come to, and lies on the stack; each variable lies in its frame; no two variables of open
frames have a byte in common; and an assignment to one of them is not seen in any other. -/
structure TidyStack (table : StructTable) (machine : Machine) : Prop where
  linked : machine.frames.IsChain fun frame opener => frame.scope.base = opener.scope.top
  within : ∀ frame ∈ machine.frames,
    machine.image.stackBottom ≤ frame.scope.base ∧ frame.scope.base ≤ frame.scope.top ∧
      frame.scope.top ≤ machine.image.size
  placed : ∀ frame ∈ machine.frames, ∀ v ∈ frame.vars,
    table.sizeOf v.type = .ok (v.size table) ∧ frame.scope.base ≤ v.address ∧
      (v.slot table).stop ≤ frame.scope.top
  apart : machine.vars.Pairwise fun v w => (v.slot table).Apart (w.slot table)
  listed : ∀ name address type, machine.slotOf name = .ok (address, type) →
    (⟨name, type, address⟩ : Variable) ∈ machine.vars
  unseen : ∀ name value before v after, machine.vars = before ++ v :: after →
    machine.slotOf name = .ok (v.address, v.type) → ∀ w ∈ before ++ after,
      (Step.left (assignVariable name value machine)).image.read table w.address w.type =
        machine.image.read table w.address w.type
  unchanged : ∀ name value other, other ≠ name →
    valueOf table other (Step.left (assignVariable name value machine)) =
      machine.valueOf table other

theorem WellStacked.tidyStack (h : machine.WellStacked table) : machine.TidyStack table where
  linked := h.stacked.linked
  within frame mem := by
    obtain ⟨low, grown, high⟩ := h.stacked.within frame mem
    exact ⟨low, grown, Nat.le_trans high h.inside⟩
  placed frame mem v own :=
    have filled := h.stacked.filled_of_mem frame mem
    ⟨filled.sized v own, filled.placed v own⟩
  apart := vars_apart h
  listed _ _ _ found := mem_vars_of_find? h (find?_of_slotOf found)
  unseen _ value _ _ _ split found _ other := read_assignVariable h value split found other
  unchanged _ value _ different := valueOf_assignVariable h value different

end Machine

end FlatC

import FlatC.Proofs.Eval.Setting

/-!
# Names and their declarations

What a declaration does to a machine, said once: a variable that is declared gets the slot that
was planned for it, and one that is not changes no more than the bytes of memory.  A function is
bound to its name or nothing happens at all.  A name that resolves is bound in one of the scopes
of the frame.  A frame whose own scope is neither the root nor a program scope has the program scope
of those around it.
-/

namespace FlatC

/-- A range of addresses that was claimed for a variable. -/
structure Slot where
  address : Nat
  size : Nat
deriving DecidableEq, Repr

namespace Slot

/-- The address behind a slot. -/
def stop (slot : Slot) : Nat :=
  slot.address + slot.size

/-- The slots have no address in common. -/
def Apart (a b : Slot) : Prop :=
  a.stop ≤ b.address ∨ b.stop ≤ a.address

end Slot

/-! ## Bindings -/

namespace Bindings

theorem mem_of_find? {bindings : Bindings} {name : String} {binding : Binding}
    (h : bindings.find? name = some binding) : (name, binding) ∈ bindings := by
  obtain ⟨before, after, rfl, _⟩ := List.lookup_eq_some_iff.mp h
  simp

theorem mem_bind {bindings : Bindings} {name : String} {binding : Binding}
    {entry : String × Binding} (h : entry ∈ bindings.bind name binding) :
    entry ∈ bindings ∨ entry = (name, binding) := by
  unfold bind at h
  split at h
  · obtain ⟨old, mem, rfl⟩ := List.mem_map.mp h
    by_cases same : (old.1 == name) = true
    · exact Or.inr (by rw [if_pos same])
    · exact Or.inl (by rwa [if_neg same])
  · simpa using h

variable {bindings : Bindings} {name : String}

theorem find?_eq_none : bindings.find? name = none ↔ bindings.binds name = false := by
  simp [binds]

/-- A new name goes behind all others. -/
theorem bind_of_new (new : bindings.binds name = false) (binding : Binding) :
    bindings.bind name binding = bindings ++ [(name, binding)] := by
  simp [bind, new]

/-- A name that was bound is found with its new binding where it was. -/
theorem lookup_map_of_bound (bound : bindings.binds name = true) (binding : Binding) :
    (bindings.map fun entry => if entry.1 == name then (name, binding) else entry).lookup name =
      some binding := by
  induction bindings with
  | nil => cases bound
  | cons entry rest ih =>
    obtain ⟨other, old⟩ := entry
    by_cases here : other = name
    · simp [here]
    · have later : binds rest name = true := by
        have missed : (name == other) = false := by simpa using Ne.symm here
        simpa only [binds, find?, List.lookup_cons, missed] using bound
      have missed : (other == name) = false := by simpa using here
      have missed' : (name == other) = false := by simpa using Ne.symm here
      simp only [List.map_cons, missed, Bool.false_eq_true, if_false, List.lookup_cons, missed']
      exact ih later

/-- Once a name is bound it is found. -/
theorem find?_bind_self (bindings : Bindings) (name : String) (binding : Binding) :
    (bindings.bind name binding).find? name = some binding := by
  by_cases bound : bindings.binds name = true
  · rw [bind, if_pos bound]
    exact lookup_map_of_bound bound binding
  · have new : bindings.binds name = false := Bool.eq_false_iff.mpr bound
    have missed : bindings.lookup name = none := find?_eq_none.mpr new
    rw [bind_of_new new, find?, List.lookup_append, missed]
    simp

theorem find?_bind_other {other : String} (new : bindings.binds name = false) (binding : Binding)
    (different : other ≠ name) :
    (bindings.bind name binding).find? other = bindings.find? other := by
  have missed : List.lookup other [(name, binding)] = none := by
    rw [List.lookup_cons, beq_false_of_ne different]
    rfl
  rw [bind_of_new new, find?, List.lookup_append, missed, Option.or_none]
  rfl

end Bindings

/-- A name that resolves is bound in one of the scopes. -/
theorem Frame.mem_of_find? (frame : Frame) {name : String} {binding : Binding}
    (h : frame.find? name = some binding) :
    ∃ scope ∈ frame.scopes, (name, binding) ∈ scope.bindings := by
  obtain ⟨scope, among, found⟩ := List.exists_of_findSome?_eq_some h
  exact ⟨scope, among, Bindings.mem_of_find? found⟩

/-! ## Program scopes -/

namespace Frame

/-- The scopes from the program scope on outward. -/
def programPart (scopes : List Scope) : List Scope :=
  scopes.dropWhile fun scope => 1 < scope.depth

theorem programScopes_of_inner {frame : Frame} (inner : 1 < frame.scope.depth) :
    frame.programScopes = programPart frame.outer := by
  simp [programScopes, scopes, programPart, inner]

theorem programScopes_of_outer {frame : Frame} (outer : frame.scope.depth ≤ 1) :
    frame.programScopes = frame.scopes := by
  simp [programScopes, scopes, Nat.not_lt.mpr outer]

end Frame

/-! ## Declarations -/

namespace Machine

/-- The machine behind a declaration of a variable that succeeds. -/
def withSlot (machine : Machine) (image : Image) (name : String) (type : CType)
    (address size : Nat) : Machine :=
  { machine with image := image, frame := machine.frame.bindSlot name type address size }

/-- A declaration without a planned slot changes nothing. -/
theorem declareVariable_of_unplanned {table : StructTable} {name : String} {type : CType}
    {machine : Machine} {fault : Fault} (plan : machine.planVariable table name type = .error fault) :
    declareVariable table name type machine = .error fault machine := by
  simp [declareVariable, bind, EStateM.bind, Exec.ask, plan]

/-- A declaration binds the planned slot if it can be filled and read. -/
theorem declareVariable_of_planned {table : StructTable} {name : String} {type : CType}
    {machine : Machine} {image : Image} {address size : Nat} {value : Value}
    (plan : machine.planVariable table name type = .ok (address, size))
    (filled : Image.fill address size 0 machine.image = .ok () image)
    (reading : image.read table address type = .ok value) :
    declareVariable table name type machine =
      .ok value (machine.withSlot image name type address size) := by
  simp only [declareVariable, bind, EStateM.bind, Exec.ask, Exec.onImage, plan, filled, reading]
  rfl

/-- A declaration of a variable fails and leaves the setting alone, or binds the planned slot. -/
theorem declareVariable_cases (table : StructTable) (name : String) (type : CType)
    (machine : Machine) :
    (∃ fault machine', declareVariable table name type machine = .error fault machine' ∧
      machine'.setting = machine.setting) ∨
    (∃ value image address size, machine.planVariable table name type = .ok (address, size) ∧
      image.shape = machine.image.shape ∧
      declareVariable table name type machine =
        .ok value (machine.withSlot image name type address size)) := by
  cases plan : machine.planVariable table name type with
  | error fault => exact Or.inl ⟨fault, machine, declareVariable_of_unplanned plan, rfl⟩
  | ok slot =>
    obtain ⟨address, size⟩ := slot
    have kept := Image.keepsShape_fill address size 0 machine.image
    cases filled : Image.fill address size 0 machine.image with
    | error fault image =>
      rw [filled] at kept
      refine Or.inl ⟨fault, { machine with image := image }, ?_, ?_⟩
      · simp [declareVariable, bind, EStateM.bind, Exec.ask, Exec.onImage, plan, filled]
      · exact congrArg (Setting.mk · _ _ _) kept
    | ok _ image =>
      rw [filled] at kept
      cases reading : image.read table address type with
      | error fault =>
        refine Or.inl ⟨fault, { machine with image := image }, ?_, ?_⟩
        · simp [declareVariable, bind, EStateM.bind, Exec.ask, Exec.onImage, plan, filled, reading]
        · exact congrArg (Setting.mk · _ _ _) kept
      | ok value =>
        exact Or.inr ⟨value, image, address, size, rfl, kept,
          declareVariable_of_planned plan filled reading⟩

/-- A declaration of a function binds its name, or it fails and changes nothing. -/
theorem declareFunction_cases (name : String) (callee : Callee) (machine : Machine) :
    (∃ fault, declareFunction name callee machine = .error fault machine) ∨
    (∃ bindings, machine.frame.scope.bindings.declareFunction name callee = .ok bindings ∧
      declareFunction name callee machine = .ok ()
        { machine with
          frame := { machine.frame with scope := { machine.frame.scope with bindings } } }) := by
  unfold declareFunction Frame.declareFunction
  cases machine.frame.scope.bindings.declareFunction name callee with
  | error fault => exact Or.inl ⟨fault, rfl⟩
  | ok bindings => exact Or.inr ⟨bindings, rfl, rfl⟩

/-! ## Resolution -/

theorem find?_of_functionOf {table : StructTable} {name : String} {callee : Callee}
    {machine : Machine} (h : machine.functionOf table name = .ok callee) :
    ∃ type, machine.frame.find? name = some ⟨type, .function callee⟩ := by
  unfold functionOf resolve Frame.find at h
  cases found : machine.frame.find? name with
  | none => simp [found, bind, Except.bind] at h
  | some binding =>
    obtain ⟨type, meaning⟩ := binding
    cases meaning with
    | slot address =>
      cases reading : machine.image.read table address type with
      | error fault => simp [found, bind, Except.bind, reading] at h
      | ok value =>
        simp [found, bind, Except.bind, reading, pure, Except.pure, throw, throwThe,
          MonadExceptOf.throw] at h
    | function other =>
      simp [found, bind, Except.bind, pure, Except.pure] at h
      exact ⟨type, by rw [h]⟩

theorem find?_of_slotOf {name : String} {address : Nat} {type : CType} {machine : Machine}
    (h : machine.slotOf name = .ok (address, type)) :
    machine.frame.find? name = some ⟨type, .slot address⟩ := by
  unfold slotOf Frame.find at h
  cases found : machine.frame.find? name with
  | none => simp [found, bind, Except.bind] at h
  | some binding =>
    obtain ⟨type', meaning⟩ := binding
    cases meaning with
    | slot address' =>
      simp [found, bind, Except.bind, pure, Except.pure] at h
      rw [h.1, h.2]
    | function callee =>
      simp [found, bind, Except.bind, throw, throwThe, MonadExceptOf.throw] at h

/-- What a name stands for depends on its binding, and on what is read from its slot if it has
one. -/
theorem resolve_congr {table : StructTable} {name : String} {machine machine' : Machine}
    (bound : machine'.frame.find? name = machine.frame.find? name)
    (same : ∀ type address, machine.frame.find? name = some ⟨type, .slot address⟩ →
      machine'.image.read table address type = machine.image.read table address type) :
    resolve table name machine' = machine.resolve table name := by
  unfold resolve Frame.find
  rw [bound]
  cases found : machine.frame.find? name with
  | none => rfl
  | some binding =>
    obtain ⟨type, meaning⟩ := binding
    cases meaning with
    | slot address =>
      have reading := same type address found
      simp only [bind, Except.bind, reading]
    | function callee => rfl

/-- The value of a name depends on what is read from its slot alone. -/
theorem valueOf_congr {table : StructTable} {name : String} {machine : Machine} {image : Image}
    (same : ∀ type address, machine.frame.find? name = some ⟨type, .slot address⟩ →
      image.read table address type = machine.image.read table address type) :
    valueOf table name { machine with image := image } = machine.valueOf table name := by
  have resolved : resolve table name { machine with image := image } = machine.resolve table name :=
    resolve_congr rfl same
  rw [valueOf, valueOf, resolved]

end Machine

end FlatC

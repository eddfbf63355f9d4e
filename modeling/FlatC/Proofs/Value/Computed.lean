import FlatC.Proofs.Step
import FlatC.Proofs.Value.ResultType

/-!
# What operators compute

An operator on values looks at nothing but its operands.  So it has no fault of memory, and its
result is a number fitted to a type, which names no place.  The operators on places write or read
memory too, but what a step or an assignment yields comes from such a computation, or is its operand
without its place.

* `EndsWith` says how a computation ends, and `OffMemory` that it has no fault of memory;
* `Value.IsComputed` is the form of the results, and `Value.computed_binary` and the like say that
  operators compute them;
* `Value.endsWith_stepped` and `Value.offMemory_assigned` are about what is stored, and
  `Value.yields_stepBy` and `Value.yields_assign` about what is yielded.
-/

namespace FlatC

/-! ## Kinds of faults -/

namespace Fault

/-- The fault is found in the types and the numbers of operands. -/
def IsOfOperands : Fault → Prop
  | .type _ | .arithmetic _ => True
  | _ => False

/-- Memory has no part in the fault. -/
def IsOffMemory (fault : Fault) : Prop :=
  ∀ f, fault ≠ .memory f

/-- The fault is reported to somebody.  The machine itself has not stopped. -/
def IsReported (fault : Fault) : Prop :=
  ∀ f, fault ≠ .overflow f

variable {fault : Fault}

theorem IsOfOperands.isOffMemory (h : fault.IsOfOperands) : fault.IsOffMemory := by
  rintro f rfl
  exact h

theorem IsOfOperands.isReported (h : fault.IsOfOperands) : fault.IsReported := by
  rintro f rfl
  exact h

theorem isReported_memory (f : MemoryFault) : (memory f).IsReported := nofun

theorem isReported_type (f : TypeFault) : (type f).IsReported := nofun

end Fault

/-! ## Endings of computations -/

/-- The computation has an answer with the property or a fault of the kind. -/
def EndsWith {α : Type} (P : α → Prop) (F : Fault → Prop) : Except Fault α → Prop
  | .ok a => P a
  | .error fault => F fault

namespace EndsWith

variable {α β : Type} {P P' : α → Prop} {Q : β → Prop} {F F' : Fault → Prop}
  {x : Except Fault α} {next : α → Except Fault β}

theorem bind (first : EndsWith P F x) (rest : ∀ a, P a → EndsWith Q F (next a)) :
    EndsWith Q F (x >>= next) := by
  cases x with
  | ok a => exact rest a first
  | error fault => exact first

/-- Only what follows a computation matters to the answers. -/
theorem andThen (first : EndsWith P F x) (rest : ∀ a, EndsWith Q F (next a)) :
    EndsWith Q F (x >>= next) :=
  first.bind fun a _ => rest a

/-- What follows may go by how the first computation has ended. -/
theorem bindOk (first : EndsWith P F x) (rest : ∀ a, x = .ok a → EndsWith Q F (next a)) :
    EndsWith Q F (x >>= next) := by
  cases x with
  | ok a => exact rest a rfl
  | error fault => exact first

theorem answer {a : α} (h : EndsWith P F x) (found : x = .ok a) : P a := by
  rw [found] at h
  exact h

theorem fault {fault : Fault} (h : EndsWith P F x) (found : x = .error fault) : F fault := by
  rw [found] at h
  exact h

/-- What is known of the answers may come from elsewhere. -/
theorem answers (h : EndsWith P F x) (known : ∀ a, x = .ok a → P' a) : EndsWith P' F x := by
  cases x with
  | ok a => exact known a rfl
  | error fault => exact h

/-- What the answers are may be left open. -/
theorem forget (h : EndsWith P F x) : EndsWith (fun _ => True) F x :=
  h.answers fun _ _ => trivial

theorem weaken (h : EndsWith P F x) (faults : ∀ fault, F fault → F' fault) : EndsWith P F' x := by
  cases x with
  | ok a => exact h
  | error fault => exact faults fault h

theorem offMemory (h : EndsWith P Fault.IsOfOperands x) : EndsWith P Fault.IsOffMemory x :=
  h.weaken fun _ operands => operands.isOffMemory

theorem reported (h : EndsWith P Fault.IsOfOperands x) : EndsWith P Fault.IsReported x :=
  h.weaken fun _ operands => operands.isReported

theorem yields (h : EndsWith P F x) : Step.Yields P (Store.of x) :=
  fun _ _ _ found => h.answer (Store.of_eq_ok found)

end EndsWith

/-- The computation has no fault of memory, and its answers have the property. -/
abbrev OffMemory {α : Type} (P : α → Prop) (x : Except Fault α) : Prop :=
  EndsWith P Fault.IsOffMemory x

/-- The computation is at most refused because of its operands. -/
abbrev UpToOperands {α : Type} (x : Except Fault α) : Prop :=
  EndsWith (fun _ => True) Fault.IsOfOperands x

/-- The computation is not aborted: all its faults are reported. -/
abbrev Reported {α : Type} (x : Except Fault α) : Prop :=
  EndsWith (fun _ => True) Fault.IsReported x

theorem CType.upToOperands_binary (op : BinaryOp) (s t : CType) :
    UpToOperands (CType.binary op s t) := by
  unfold binary
  split
  · trivial
  · trivial

theorem CType.upToOperands_unary (op : UnaryOp) (t : CType) :
    UpToOperands (CType.unary op t) := by
  unfold unary
  split
  · trivial
  · trivial

theorem CType.upToOperands_pointee (t : CType) : UpToOperands t.pointee := by
  unfold pointee
  split
  · trivial
  · trivial

theorem CType.upToOperands_dereferenced (t : CType) : UpToOperands t.dereferenced := by
  unfold dereferenced
  split
  · trivial
  · trivial

theorem noMemoryFault_checkedLong (operation : OverflowFault) (n : Int) :
    OffMemory (fun _ => True) (checkedLong operation n) := by
  unfold checkedLong
  split
  · trivial
  · exact nofun

theorem StructTable.upToOperands_layout (table : StructTable) (ref : StructRef) :
    UpToOperands (table.layout ref) := by
  unfold layout
  split
  · trivial
  · trivial

theorem StructTable.upToOperands_field (table : StructTable) (ref : StructRef) (name : String) :
    UpToOperands (table.field ref name) := by
  refine (table.upToOperands_layout ref).andThen fun layout => ?_
  split
  · trivial
  · trivial

theorem StructTable.upToOperands_sizeOf (table : StructTable) (type : CType) :
    UpToOperands (table.sizeOf type) := by
  induction type with
  | int | float | char | void | pointer _ => trivial
  | function => trivial
  | array element dims ih =>
    refine ih.andThen fun size => ?_
    generalize CType.array element dims = whole
    induction dims generalizing size with
    | nil => trivial
    | cons count dims ih =>
      rw [List.foldlM_cons]
      have first : UpToOperands (repeated whole size count) := by
        unfold repeated
        split
        · trivial
        · trivial
      exact first.andThen ih
  | struct ref => exact (table.upToOperands_layout ref).andThen fun _ => trivial

theorem StructTable.upToOperands_elementSize (table : StructTable) (type : CType) :
    UpToOperands (table.elementSize type) := by
  unfold elementSize
  split
  · exact table.upToOperands_sizeOf _
  · exact table.upToOperands_sizeOf _

namespace Value

open Step

variable {table : StructTable} {v w : Value} {F : Fault → Prop}

theorem upToOperands_stepSize (table : StructTable) (v : Value) :
    UpToOperands (v.stepSize table) := by
  unfold stepSize
  split
  · exact (CType.upToOperands_pointee _).andThen fun target => table.upToOperands_sizeOf target
  · trivial

/-! ## Operators on values -/

/-- The value is a number fitted to a type. -/
def IsComputed (r : Value) : Prop :=
  ∃ type, r.IsRvalue type

theorem IsComputed.address_eq {r : Value} (h : r.IsComputed) : r.address = none := by
  obtain ⟨type, rvalue⟩ := h
  exact rvalue.address_eq

/-- Numbers are fitted to a type on the way to it. -/
theorem isComputed_castTo (v : Value) (target : CType) : (v.castTo target false).IsComputed :=
  ⟨target, _, rfl⟩

theorem isComputed_rvalue (x : Binary64) (type : CType) : (rvalue x type).IsComputed :=
  ⟨type, x, rfl⟩

/-- The computation ends with a computed value or a fault of the kind. -/
abbrev Computed (F : Fault → Prop) (x : Except Fault Value) : Prop :=
  EndsWith IsComputed F x

theorem offMemory_moved (type : CType) (pointer count : Value) :
    Computed Fault.IsOffMemory (do
      let step ← pointer.stepSize table
      let sum ← pointer.forward count step
      return rvalue (.ofInt sum) type) := by
  refine (upToOperands_stepSize table pointer).offMemory.andThen fun step => ?_
  have moved : OffMemory (fun _ => True) (pointer.forward count step) :=
    (noMemoryFault_checkedLong ..).andThen fun _ => noMemoryFault_checkedLong ..
  exact moved.andThen fun _ => isComputed_rvalue ..

theorem computed_plus : Computed Fault.IsOffMemory (v.plus table w) := by
  refine (CType.upToOperands_binary ..).offMemory.andThen fun type => ?_
  split
  · exact offMemory_moved type v w
  · split
    · exact offMemory_moved type w v
    · exact isComputed_rvalue ..

theorem computed_minus : Computed Fault.IsOffMemory (v.minus table w) := by
  refine (CType.upToOperands_binary ..).offMemory.andThen fun type => ?_
  split
  · refine (upToOperands_stepSize table v).offMemory.andThen fun step => ?_
    split
    · exact isComputed_rvalue ..
    · exact .andThen
        ((noMemoryFault_checkedLong ..).andThen fun _ => noMemoryFault_checkedLong ..)
        fun _ => isComputed_rvalue ..
  · exact isComputed_rvalue ..

theorem computed_dividedBy : Computed Fault.IsOfOperands (v.dividedBy w) := by
  unfold dividedBy
  split
  · exact (CType.upToOperands_binary ..).andThen fun _ => isComputed_rvalue ..
  · trivial

theorem computed_remainder : Computed Fault.IsOfOperands (v.remainder w) := by
  unfold remainder
  split
  · exact (CType.upToOperands_binary ..).andThen fun _ => isComputed_rvalue ..
  · trivial

theorem computed_compare (op : BinaryOp) (v w : Value) :
    Computed Fault.IsOfOperands (compare op v w) := by
  refine (CType.upToOperands_binary ..).andThen fun type => ?_
  by_cases mixed : v.mixesPointer w = true
  · simp only [if_pos mixed]
    trivial
  · simp only [if_neg mixed]
    split
    · exact isComputed_rvalue ..
    · trivial

theorem computed_logical (op : BinaryOp) (v w : Value) :
    Computed Fault.IsOfOperands (logical op v w) :=
  (CType.upToOperands_binary ..).andThen fun _ => isComputed_rvalue ..

theorem computed_bitwise (op : BinaryOp) (v w : Value) :
    Computed Fault.IsOfOperands (bitwise op v w) :=
  (CType.upToOperands_binary ..).andThen fun _ => isComputed_rvalue ..

/-- Only sums and differences may end with faults of other kinds than those of operands. -/
theorem computed_binary_of (operands : ∀ fault, fault.IsOfOperands → F fault)
    (sum : Computed F (v.plus table w)) (difference : Computed F (v.minus table w))
    (op : BinaryOp) : Computed F (binary table op v w) := by
  cases op
  case add => exact sum
  case sub => exact difference
  case mul =>
    have product : Computed Fault.IsOfOperands (v.times w) :=
      (CType.upToOperands_binary ..).andThen fun _ => isComputed_rvalue ..
    exact product.weaken operands
  case div => exact computed_dividedBy.weaken operands
  case mod => exact computed_remainder.weaken operands
  case eq | ne | lt | le | gt | ge => exact (computed_compare ..).weaken operands
  case and | or => exact (computed_logical ..).weaken operands
  case bitAnd | bitOr | bitXor | shiftLeft | shiftRight =>
    exact (computed_bitwise ..).weaken operands

theorem computed_binary (table : StructTable) (op : BinaryOp) (v w : Value) :
    Computed Fault.IsOffMemory (binary table op v w) :=
  computed_binary_of (fun _ h => h.isOffMemory) computed_plus computed_minus op

theorem computed_plainUnary (op : UnaryOp) (v : Value) :
    Computed Fault.IsOfOperands (v.plainUnary op) :=
  (CType.upToOperands_unary ..).andThen fun _ => isComputed_rvalue ..

theorem computed_addressOf (v : Value) : Computed Fault.IsOfOperands v.addressOf := by
  unfold addressOf
  split
  · trivial
  · exact (CType.upToOperands_unary ..).andThen fun _ => isComputed_rvalue ..

theorem computed_implicit (v : Value) (target : CType) :
    Computed Fault.IsOfOperands (v.implicit target) := by
  unfold implicit
  split
  · exact isComputed_castTo ..
  · trivial

theorem computed_explicit (v : Value) (target : CType) :
    Computed Fault.IsOfOperands (v.explicit target) := by
  unfold explicit
  split
  · exact isComputed_castTo ..
  · trivial

/-! ## Operators on places -/

/-- A step computes a value of the type that it steps from. -/
theorem endsWith_stepped {op : UnaryOp} (step : op.isStep) (table : StructTable) (v : Value) :
    EndsWith (fun r => r.type = v.type ∧ r.IsComputed) Fault.IsOfOperands (v.stepped table op) := by
  have typed : EndsWith (· = v.type) Fault.IsOfOperands (CType.unary op v.type) :=
    (CType.upToOperands_unary op v.type).answers fun _ found =>
      CType.unary?_step step (CType.unary_eq_ok.mp found)
  refine typed.bind fun type same => (upToOperands_stepSize table v).andThen fun size => ?_
  exact ⟨same, isComputed_rvalue ..⟩

/-- An assignment computes a value of the type of its target to be stored, and yields that or its
right operand. -/
theorem endsWith_assigned (operands : ∀ fault, fault.IsOfOperands → F fault) (op : AssignOp)
    {target source : Value}
    (result : ∀ binaryOp, Computed F (binary table binaryOp target source)) :
    EndsWith (fun r => r.1.type = target.type ∧ (r.2.IsComputed ∨ r.2 = source.toRvalue)) F
      (target.assigned table op source) := by
  cases op with
  | plain =>
    have converted : EndsWith (·.type = target.type) F (source.implicit target.type) :=
      ((computed_implicit source target.type).answers fun _ found => type_implicit found).weaken
        operands
    exact converted.bind fun stored same => ⟨same, .inr rfl⟩
  | compound op =>
    refine (result op).andThen fun result => ?_
    split
    · exact ⟨rfl, .inl (isComputed_castTo ..)⟩
    · exact operands _ trivial

theorem offMemory_assigned (table : StructTable) (op : AssignOp) (target source : Value) :
    OffMemory (fun r => r.1.type = target.type ∧ (r.2.IsComputed ∨ r.2 = source.toRvalue))
      (target.assigned table op source) :=
  endsWith_assigned (fun _ h => h.isOffMemory) op fun _ => computed_binary ..

/-- A step yields the new value, or the old one without its place. -/
theorem yields_stepBy {op : UnaryOp} (step : op.isStep) (table : StructTable) (v : Value) :
    Yields (fun r => r.IsComputed ∨ r = v.toRvalue) (v.stepBy table op) := by
  unfold stepBy
  split
  · exact yields_throw _
  · refine yields_sequence (endsWith_stepped step table v).yields fun updated new => ?_
    refine yields_bind fun _ => yields_pure ?_
    split
    · exact .inl new.2
    · exact .inr rfl

/-- A plain assignment yields its right operand without its place, and a compound one what it
stores. -/
theorem yields_assign (table : StructTable) (op : AssignOp) (target source : Value) :
    Yields (fun r => r.IsComputed ∨ r = source.toRvalue) (target.assign table op source) := by
  unfold assign
  split
  · exact yields_throw _
  · split
    · exact yields_sequence (offMemory_assigned table op target source).yields fun _ h =>
        yields_bind fun _ => yields_pure h.2
    · exact yields_throw _

end Value

end FlatC

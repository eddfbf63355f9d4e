import FlatC.Proofs.CType.Arising
import FlatC.Proofs.Image.Reported
import FlatC.Proofs.Scope.FreshSlot
import FlatC.Proofs.Scope.Functions

/-!
# Machines that know their types

The variables of a run have types that arise from those written in the program, and the functions
that it may call are written there too.  That is so in every frame of a run.  As long as all these
types are modest and memory is ample, there is a place for every slot or a failure that says why not.

* `Machine.types` are the types that a machine starts from;
* `Machine.Typed` is what holds of the machines of a run, and its lemmas say that frames and
  declarations keep it;
* `Machine.Typed.reported_planVariable` says that no declaration stops the machine.
-/

namespace FlatC.Machine

open Step

/-- The types of the variables of a machine, and those written in the functions it can call. -/
def types (machine : Machine) : List CType :=
  machine.vars.map (·.type) ++ machine.functions.flatMap FunctionDef.types

/-- Memory is ample and the frames lie on the stack.  The variables have types that arise from those
written, and all types of the functions are among these. -/
structure Typed (table : StructTable) (written : List CType) (machine : Machine) : Prop where
  ample : machine.image.Ample
  stacked : machine.WellStacked table
  vars : ∀ v ∈ machine.vars, CType.Arises table written v.type
  functions : ∀ function ∈ machine.functions, function.types ⊆ written

namespace Typed

variable {table : StructTable} {written : List CType} {machine machine' : Machine} {name : String}
  {type : CType} {v : Value}

/-! ## Frames -/

theorem of_setting (h : machine.Typed table written) (kept : machine'.setting = machine.setting) :
    machine'.Typed table written := by
  have shape : machine'.image.shape = machine.image.shape := congrArg Setting.shape kept
  have frame : machine'.frame = machine.frame := congrArg Setting.frame kept
  have openers : machine'.openers = machine.openers := congrArg Setting.openers kept
  have vars : machine'.vars = machine.vars := by rw [Machine.vars, frames, frame, openers]; rfl
  refine ⟨h.ample.of_shape shape, h.stacked.congr shape frame openers, ?_, ?_⟩
  · rw [vars]
    exact h.vars
  · rw [functions_of_setting kept]
    exact h.functions

/-- A frame that is opened has no variables yet. -/
theorem enterBlock (h : machine.Typed table written) :
    (machine.enter Frame.block).Typed table written :=
  ⟨h.ample, h.stacked.enterBlock, h.vars, fun function mem =>
    h.functions function (functions_enter (Frame.functions_block _) mem)⟩

theorem enterActivation (h : machine.Typed table written) :
    (machine.enter Frame.activation).Typed table written :=
  ⟨h.ample, h.stacked.enterActivation, h.vars, fun function mem =>
    h.functions function (functions_enter (Frame.functions_activation _) mem)⟩

theorem onConsole (h : machine.Typed table written) (change : Console → Console) :
    (machine.onConsole change).Typed table written :=
  ⟨h.ample, h.stacked.congr rfl rfl rfl, h.vars, h.functions⟩

/-- The variables of a frame that is closed are gone. -/
theorem close (h : machine.Typed table written) : machine.close.Typed table written := by
  refine ⟨?_, h.stacked.close, fun v mem => h.vars v ?_, fun function mem =>
    h.functions function (functions_close mem)⟩
  · rw [close_image]
    exact h.ample
  · unfold Machine.close at mem
    split at mem
    · exact mem
    · rename_i opener openers waiting
      rw [Machine.vars, frames, waiting]
      exact List.mem_append_right _ mem

/-! ## Declarations -/

/-- A slot that is planned is one of the variables. -/
theorem withSlot (h : machine.Typed table written) (arises : CType.Arises table written type)
    {address size : Nat} (plan : machine.planVariable table name type = .ok (address, size))
    {image : Image} (kept : image.shape = machine.image.shape) :
    (machine.withSlot image name type address size).Typed table written := by
  obtain ⟨new, -, -, -⟩ := planVariable_ok plan
  refine ⟨h.ample.of_shape kept, h.stacked.withSlot plan kept, fun v mem => ?_,
    fun function mem => ?_⟩
  · have own : (machine.frame.bindSlot name type address size).vars =
        machine.frame.vars ++ [⟨name, type, address⟩] := Bindings.vars_bind_slot new type address
    have all : (machine.withSlot image name type address size).vars =
        machine.frame.vars ++ [⟨name, type, address⟩] ++ machine.openers.flatMap Frame.vars := by
      rw [← own]
      rfl
    rw [all, List.mem_append, List.mem_append, List.mem_singleton] at mem
    rcases mem with (mine | rfl) | others
    · exact h.vars v (List.mem_append_left _ mine)
    · exact arises
    · exact h.vars v (List.mem_append_right _ others)
  · rcases mem_functions_rebound (fun _ => Bindings.mem_bind) mem with old | new
    · exact h.functions function old
    · cases new

/-- Binding a function adds no variable. -/
theorem declareFunction (h : machine.Typed table written) {callee : Callee}
    (known : ∀ function, callee = .user function → function.types ⊆ written) :
    (Step.left (Machine.declareFunction name callee machine)).Typed table written := by
  have stacked := h.stacked.declareFunction name callee
  refine ⟨?_, stacked, fun v mem => h.vars v ?_, fun function mem => ?_⟩
  · rcases machine.declareFunction_cases name callee with ⟨fault, run⟩ | ⟨bindings, -, run⟩
    · rw [run]
      exact h.ample
    · rw [run]
      exact h.ample
  · rcases machine.declareFunction_cases name callee with ⟨fault, run⟩ | ⟨bindings, bound, run⟩
    · rwa [run] at mem
    · rw [run] at mem
      rcases List.mem_append.mp mem with mine | others
      · exact List.mem_append_left _ ((Bindings.vars_declareFunction bound).subset mine)
      · exact List.mem_append_right _ others
  · rcases functions_declareFunction mem with old | new
    · exact h.functions function old
    · exact known function new

/-- A cursor inside ample memory leaves room for a modest element. -/
theorem exists_slotAddress (h : machine.Typed table written) {elementSize : Nat}
    (modest : elementSize + wordSize ≤ wordRange) :
    ∃ address, machine.frame.slotAddress elementSize = .ok address := by
  have inside := h.stacked.inside
  have free := h.ample.free
  simp only [wordSize, wordRange] at free modest
  apply Frame.exists_slotAddress
  · omega
  · simp only [wordSize, wordRange]
    omega

/-- A slot for a modest type can be placed or is refused. -/
theorem reported_placeSlot (modest : CType.Modest table written)
    (h : machine.Typed table written) (arises : CType.Arises table written type) :
    Reported (machine.placeSlot table type) := by
  cases sized : table.sizeOf type with
  | error fault =>
    have refused := ((table.upToOperands_sizeOf type).fault sized).isReported
    simp only [placeSlot, sized]
    split
    · exact Fault.isReported_memory _
    · exact refused
  | ok size =>
    rw [placeSlot_of_sized sized]
    refine (table.upToOperands_elementSize type).reported.bindOk fun elementSize elements => ?_
    obtain ⟨address, placed⟩ := h.exists_slotAddress (modest.elementSize_le arises elements)
    rw [placed]
    show Reported (if address + size ≤ machine.image.size then _ else _)
    split
    · trivial
    · exact Fault.isReported_memory _

theorem reported_planVariable (modest : CType.Modest table written)
    (h : machine.Typed table written) (arises : CType.Arises table written type) (name : String) :
    Reported (machine.planVariable table name type) := by
  cases bound : machine.frame.scope.bindings.binds name with
  | true =>
    rw [planVariable_of_bound bound]
    exact Fault.isReported_type _
  | false =>
    cases incomplete : isIncomplete type with
    | true =>
      rw [planVariable_of_incomplete bound incomplete]
      exact Fault.isReported_type _
    | false =>
      rw [planVariable_of_new bound incomplete]
      exact h.reported_placeSlot modest arises

/-! ## Names -/

/-- A name stands for values of the type of its variable. -/
theorem arises_valueOf (h : machine.Typed table written)
    (found : machine.valueOf table name = .ok v) : v.Arises table written := by
  obtain ⟨resolved, found, value⟩ := bind_eq_ok.mp found
  obtain ⟨⟨type, meaning⟩, bound, found⟩ := bind_eq_ok.mp found
  cases meaning with
  | slot address =>
    obtain ⟨read, reading, found⟩ := bind_eq_ok.mp found
    cases found
    cases value
    have visible : machine.frame.find? name = some ⟨type, .slot address⟩ := by
      unfold Frame.find at bound
      split at bound
      · rename_i binding found
        rw [found, Except.ok.inj bound]
      · cases bound
    exact .read (h.vars _ (mem_vars_of_find? h.stacked visible)) reading
  | function callee =>
    cases found
    cases value

/-- A name stands for functions whose types are written. -/
theorem types_functionOf (h : machine.Typed table written) {function : FunctionDef}
    (found : machine.functionOf table name = .ok (.user function)) : function.types ⊆ written :=
  h.functions function (mem_functions_of_functionOf found)

end Typed

end FlatC.Machine

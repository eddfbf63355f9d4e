import FlatC.Proofs.Scope.Declare

/-!
# The functions that names can stand for

A run can call only the functions of the program that are bound in one of its open frames.  Frames
are opened and closed, but only a declaration adds to these functions.

* `Machine.functions` are the functions of the program that are bound in an open frame;
* the lemmas `functions_…` say how each operation changes them.
-/

namespace FlatC

/-- The function of the program that a meaning stands for. -/
def Meaning.function? : Meaning → Option FunctionDef
  | .function (.user definition) => some definition
  | _ => none

namespace Bindings

/-- The functions of the program among bindings. -/
def functions (bindings : Bindings) : List FunctionDef :=
  bindings.filterMap fun entry => entry.2.meaning.function?

theorem mem_declareFunction {bindings bindings' : Bindings} {name : String} {callee : Callee}
    (ok : bindings.declareFunction name callee = .ok bindings') {entry : String × Binding}
    (h : entry ∈ bindings') :
    entry ∈ bindings ∨ entry = (name, ⟨.function, .function callee⟩) := by
  unfold declareFunction at ok
  split at ok
  · cases ok
    exact mem_bind h
  · cases ok
  · split at ok
    · cases ok
    · split at ok
      · cases ok
        exact Or.inl h
      · split at ok
        · cases ok
        · cases ok
          exact mem_bind h

end Bindings

/-- The functions of the program bound in a scope of the frame. -/
def Frame.functions (frame : Frame) : List FunctionDef :=
  frame.scopes.flatMap fun scope => scope.bindings.functions

namespace Frame

variable (frame : Frame)

theorem functions_block : frame.block.functions ⊆ frame.functions :=
  List.Subset.refl _

theorem functions_activation : frame.activation.functions ⊆ frame.functions := by
  intro function mem
  obtain ⟨scope, among, bound⟩ := List.mem_flatMap.mp mem
  rcases List.mem_cons.mp among with rfl | outer
  · cases bound
  · have program : scope ∈ frame.programScopes := outer
    have inside : scope ∈ frame.scopes := List.dropWhile_subset _ program
    exact List.mem_flatMap.mpr ⟨scope, inside, bound⟩

theorem functions_withTop (top : Nat) : (frame.withTop top).functions = frame.functions := rfl

end Frame

namespace Machine

/-- The functions of the program that are bound in an open frame. -/
def functions (machine : Machine) : List FunctionDef :=
  machine.frame.functions ++ machine.openers.flatMap Frame.functions

variable {machine machine' : Machine}

theorem functions_of_setting (h : machine'.setting = machine.setting) :
    machine'.functions = machine.functions := by
  have frame : machine'.frame = machine.frame := congrArg Setting.frame h
  have openers : machine'.openers = machine.openers := congrArg Setting.openers h
  rw [functions, functions, frame, openers]

theorem functions_enter {opening : Frame → Frame}
    (h : (opening machine.frame).functions ⊆ machine.frame.functions) :
    (machine.enter opening).functions ⊆ machine.functions := by
  intro function mem
  simp only [functions, enter, List.flatMap_cons, List.mem_append] at mem ⊢
  rcases mem with inner | outer
  · exact Or.inl (h inner)
  · exact outer

theorem functions_close : machine.close.functions ⊆ machine.functions := by
  unfold close
  split
  · exact List.Subset.refl _
  · rename_i opener openers waiting
    intro function mem
    simp only [functions, Frame.functions_withTop, List.mem_append] at mem
    simp only [functions, waiting, List.flatMap_cons, List.mem_append]
    exact Or.inr mem

/-- The machine with other bindings and another cursor in its frame. -/
def rebound (machine : Machine) (image : Image) (bindings : Bindings) (top : Nat) : Machine :=
  { machine with
    image := image
    frame := { machine.frame with scope := { machine.frame.scope with bindings, top } } }

/-- One new binding adds at most the function that it binds. -/
theorem mem_functions_rebound {image : Image} {bindings : Bindings} {top : Nat}
    {new : String × Binding}
    (old : ∀ entry ∈ bindings, entry ∈ machine.frame.scope.bindings ∨ entry = new)
    {function : FunctionDef} (h : function ∈ (machine.rebound image bindings top).functions) :
    function ∈ machine.functions ∨ new.2.meaning.function? = some function := by
  have ofFrame {scope : Scope} (among : scope ∈ machine.frame.scopes)
      (bound : function ∈ scope.bindings.functions) : function ∈ machine.functions :=
    List.mem_append_left _ (List.mem_flatMap.mpr ⟨scope, among, bound⟩)
  rcases List.mem_append.mp h with inner | outer
  · obtain ⟨scope, among, bound⟩ := List.mem_flatMap.mp inner
    rcases List.mem_cons.mp among with rfl | around
    · obtain ⟨entry, mem, meaning⟩ := List.mem_filterMap.mp bound
      rcases old entry mem with before | rfl
      · left
        exact ofFrame List.mem_cons_self (List.mem_filterMap.mpr ⟨entry, before, meaning⟩)
      · exact Or.inr meaning
    · exact Or.inl (ofFrame (List.mem_cons_of_mem _ around) bound)
  · exact Or.inl (List.mem_append_right _ outer)

theorem functions_declareVariable (machine : Machine) (table : StructTable) (name : String)
    (type : CType) :
    (Step.left (declareVariable table name type machine)).functions ⊆ machine.functions := by
  rcases machine.declareVariable_cases table name type with
    ⟨fault, machine', run, kept⟩ | ⟨value, image, address, size, _, _, run⟩
  · rw [run]
    show machine'.functions ⊆ machine.functions
    rw [functions_of_setting kept]
    exact List.Subset.refl _
  · rw [run]
    intro function mem
    rcases mem_functions_rebound (fun _ => Bindings.mem_bind) mem with old | new
    · exact old
    · cases new

theorem functions_declareFunction {name : String} {callee : Callee} {function : FunctionDef}
    (h : function ∈ (Step.left (declareFunction name callee machine)).functions) :
    function ∈ machine.functions ∨ callee = .user function := by
  rcases machine.declareFunction_cases name callee with ⟨fault, run⟩ | ⟨bindings, bound, run⟩
  · rw [run] at h
    exact Or.inl h
  · rw [run] at h
    rcases mem_functions_rebound (fun _ => Bindings.mem_declareFunction bound) h with old | new
    · exact Or.inl old
    · cases callee <;> simp_all [Meaning.function?]

/-- A name stands only for functions that are bound in an open frame. -/
theorem mem_functions_of_functionOf {table : StructTable} {name : String}
    {function : FunctionDef} (h : machine.functionOf table name = .ok (.user function)) :
    function ∈ machine.functions := by
  obtain ⟨type, found⟩ := find?_of_functionOf h
  obtain ⟨scope, among, bound⟩ := machine.frame.mem_of_find? found
  refine List.mem_append_left _ (List.mem_flatMap.mpr ⟨scope, among, ?_⟩)
  exact List.mem_filterMap.mpr ⟨_, bound, rfl⟩

end Machine

end FlatC

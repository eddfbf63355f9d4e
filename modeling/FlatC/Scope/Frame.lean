import FlatC.Image.Basic
import FlatC.Number.Checked
import FlatC.Scope.Binding

/-!
# Frames

A frame is an open scope with the scopes around it.  Blocks see the scope they stand in; a called
function sees the scope of the program, but its slots start above those of its caller.

* `Frame.block` and `Frame.activation` open a frame from another one;
* `Frame.cursorAfter` is where the opener of a closed frame goes on;
* `Frame.find?` resolves a name, the innermost scope first.
-/

namespace FlatC

/-- One scope: its names, and the part of the stack it has claimed. -/
structure Scope where
  bindings : Bindings
  /-- The stack cursor when the scope was opened. -/
  base : Nat
  /-- The stack cursor now. -/
  top : Nat
  /-- The number of scopes around this one. -/
  depth : Nat
deriving Repr, Inhabited

/-- An open scope and the scopes around it, innermost first. -/
structure Frame where
  scope : Scope
  outer : List Scope
deriving Repr, Inhabited

namespace Frame

/-! ## Opening and closing -/

/-- The outermost frame, with its stack starting at `bottom`. -/
def root (bottom : Nat) : Frame :=
  ⟨⟨[], bottom, bottom, 0⟩, []⟩

/-- A frame inside the given scopes, the innermost of them first. -/
def inside (scopes : List Scope) (cursor depth : Nat) : Frame :=
  ⟨⟨[], cursor, cursor, depth⟩, scopes⟩

/-- All scopes of the frame, innermost first. -/
def scopes (frame : Frame) : List Scope :=
  frame.scope :: frame.outer

/-- The scopes from the program scope on outward: the first one of depth one or less. -/
def programScopes (frame : Frame) : List Scope :=
  frame.scopes.dropWhile fun scope => 1 < scope.depth

/-- The depth of the program scope. -/
def programDepth (frame : Frame) : Nat :=
  ((frame.programScopes.head?).map (·.depth)).getD 0

/-- The frame of a block inside this one. -/
def block (frame : Frame) : Frame :=
  inside frame.scopes frame.scope.top (frame.scope.depth + 1)

/-- The frame of a function called from this one. -/
def activation (frame : Frame) : Frame :=
  inside frame.programScopes frame.scope.top (frame.programDepth + 1)

/-- The cursor that the opener of this frame continues from. -/
def cursorAfter (frame : Frame) (policy : StackPolicy) : Nat :=
  match policy with
  | .reclaim => frame.scope.base
  | .growOnly => frame.scope.top

/-- The frame with its cursor moved. -/
def withTop (frame : Frame) (top : Nat) : Frame :=
  { frame with scope := { frame.scope with top := top } }

/-- The depth of the scope around this one. -/
def parentDepth? (frame : Frame) : Option Nat :=
  frame.outer.head?.map (·.depth)

/-! ## Names -/

/-- The binding of a name in this scope alone. -/
def local? (frame : Frame) (name : String) : Option Binding :=
  frame.scope.bindings.find? name

/-- The binding of a name, the innermost scope first. -/
def find? (frame : Frame) (name : String) : Option Binding :=
  frame.scopes.findSome? fun scope => scope.bindings.find? name

/-- The binding of a name, which must have one. -/
def find (frame : Frame) (name : String) : Except Fault Binding :=
  match frame.find? name with
  | some binding => .ok binding
  | none => .error (.type (.undeclaredSymbol name))

/-- The declared type of a name. -/
def typeOf (frame : Frame) (name : String) : Except Fault CType := do
  let binding ← frame.find name
  return binding.type

/-- The frame with a name bound to a slot, and the cursor behind the slot. -/
def bindSlot (frame : Frame) (name : String) (type : CType) (address size : Nat) : Frame :=
  { frame with
    scope :=
      { frame.scope with
        bindings := frame.scope.bindings.bind name ⟨type, .slot address⟩
        top := address + size } }

/-- Declares a function in this scope. -/
def declareFunction (frame : Frame) (name : String) (callee : Callee) :
    Except Fault Frame := do
  let bindings ← frame.scope.bindings.declareFunction name callee
  return { frame with scope := { frame.scope with bindings := bindings } }

/-- The place for a slot: at the cursor, or at the next word if its first element would cross
into one.  Where the element would end in its word, and where the next word starts, must be numbers
of 32 bits. -/
def slotAddress (frame : Frame) (elementSize : Nat) : Except Fault Nat := do
  let top := frame.scope.top
  let stop ← checkedWord .add (top % wordSize + elementSize)
  if wordSize < stop then checkedWord .multiply ((top + (wordSize - 1)) / wordSize * wordSize)
  else return top

end Frame

end FlatC

import FlatC.Machine.Basic

/-!
# Variables and functions by name

* `Machine.declareVariable` claims a slot of zeros on the stack for a name;
* `Machine.declareFunction` binds a function to a name;
* `Machine.resolve` resolves a name to a value or a function;
* `Machine.assignVariable` stores a value in a variable.
-/

namespace FlatC.Machine

/-! ## Declarations -/

/-- The address and the size of a slot for a variable.  It must fit what is left of the stack; a
type too large for any address space does not. -/
def placeSlot (table : StructTable) (type : CType) (machine : Machine) :
    Except Fault (Nat × Nat) := do
  let stop := machine.image.size
  let size ←
    match table.sizeOf type with
    | .error (.type (.tooLarge _)) =>
      throw (.memory (.stackOverflow (wordRange - 1) (stop - machine.frame.scope.top)))
    | result => result
  let elementSize ← table.elementSize type
  let address ← machine.frame.slotAddress elementSize
  if address + size ≤ stop then
    return (address, size)
  else
    throw (.memory (.stackOverflow size (stop - address)))

/-- Types of which no variable can be declared. -/
def isIncomplete : CType → Bool
  | .void | .function => true
  | _ => false

/-- The slot for a new variable.  The name must be new in this scope, whether it stands for a
variable or for a function, and the type must have a size. -/
def planVariable (table : StructTable) (name : String) (type : CType) (machine : Machine) :
    Except Fault (Nat × Nat) := do
  if machine.frame.scope.bindings.binds name then
    throw (.type (.redefinition name))
  if isIncomplete type then
    throw (.type (.incompleteType type))
  machine.placeSlot table type

/-- Declares a variable: claims a slot, fills it with zeros and binds the name to it. -/
def declareVariable (table : StructTable) (name : String) (type : CType) : Exec Value := do
  let (address, size) ← Exec.ask (planVariable table name type)
  Exec.onImage (Image.fill address size 0)
  let value ← Exec.ask fun machine => machine.image.read table address type
  modify fun machine => { machine with frame := machine.frame.bindSlot name type address size }
  return value

/-- Declares a function. -/
def declareFunction (name : String) (callee : Callee) : Exec Unit := fun machine =>
  match machine.frame.declareFunction name callee with
  | .ok frame => .ok () { machine with frame := frame }
  | .error fault => .error fault machine

/-! ## Resolution -/

/-- What a name stands for. -/
inductive Resolved where
  /-- The value of a variable. -/
  | value (value : Value)
  /-- A function. -/
  | function (callee : Callee)
deriving Inhabited

/-- What a name stands for; a variable is read. -/
def resolve (table : StructTable) (name : String) (machine : Machine) : Except Fault Resolved := do
  let binding ← machine.frame.find name
  match binding.meaning with
  | .slot address =>
    let value ← machine.image.read table address binding.type
    return .value value
  | .function callee => return .function callee

/-- The value of a variable. -/
def valueOf (table : StructTable) (name : String) (machine : Machine) :
    Except Fault Value := do
  match ← machine.resolve table name with
  | .value value => return value
  | .function _ => throw (.type (.notAValue name))

/-- The function of a name. -/
def functionOf (table : StructTable) (name : String) (machine : Machine) :
    Except Fault Callee := do
  match ← machine.resolve table name with
  | .function callee => return callee
  | .value _ => throw (.type (.notCallable name))

/-! ## Assignment -/

/-- The address and the type of a variable. -/
def slotOf (name : String) (machine : Machine) : Except Fault (Nat × CType) := do
  let binding ← machine.frame.find name
  match binding.meaning with
  | .slot address => return (address, binding.type)
  | .function _ => throw (.type (.notAValue name))

/-- Converts a value to the type of a variable and stores it there. -/
def assignVariable (name : String) (value : Value) : Exec Unit := do
  let (address, type) ← Exec.ask (slotOf name)
  Exec.onImage (value.storeAs address type)

end FlatC.Machine

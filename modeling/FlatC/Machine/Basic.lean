import FlatC.Console
import FlatC.Scope.Frame
import FlatC.Value.Place

/-!
# The machine

The state of a run: its memory, the frame it is in, the frames that are waiting for this one to
close, and its console.  A step changes the state and yields a result or a fault; also after a
fault the state is there to be looked at.

* `Exec` is a step of the machine;
* `Exec.onImage` and `Exec.onConsole` run steps on a part of the state;
* `Machine.enter` and `Machine.close` open and close frames.
-/

namespace FlatC

/-- What a run never changes: the struct types of the program, and the budgets. -/
structure Env where
  structs : StructTable
  limits : Limits
deriving Repr, Inhabited

/-- The state of a run. -/
structure Machine where
  image : Image
  /-- The frame that is open. -/
  frame : Frame
  /-- The frames from which the open one was reached, the nearest first. -/
  openers : List Frame
  console : Console
deriving Inhabited

/-- A step of the machine. -/
abbrev Exec : Type → Type := EStateM Fault Machine

namespace Machine

/-- A machine in its outermost frame. -/
def start (image : Image) (console : Console) : Machine :=
  ⟨image, .root image.stackBottom, [], console⟩

@[simp] theorem image_start (image : Image) (console : Console) :
    (start image console).image = image := rfl

/-- Opens a frame, from which the present one waits to be reached again. -/
def enter (opening : Frame → Frame) (machine : Machine) : Machine :=
  { machine with frame := opening machine.frame, openers := machine.frame :: machine.openers }

/-- Closes the frame and goes on in its opener, from the cursor that the stack policy gives. -/
def close (machine : Machine) : Machine :=
  match machine.openers with
  | [] => machine
  | opener :: openers =>
    { machine with
      frame := opener.withTop (machine.frame.cursorAfter machine.image.policy)
      openers := openers }

@[simp] theorem close_image (machine : Machine) : machine.close.image = machine.image := by
  unfold close
  split <;> rfl

@[simp] theorem close_console (machine : Machine) : machine.close.console = machine.console := by
  unfold close
  split <;> rfl

/-- Changes the console. -/
def onConsole (change : Console → Console) (machine : Machine) : Machine :=
  { machine with console := change machine.console }

end Machine

namespace Exec

/-- A question about the state. -/
def ask {α : Type} (question : Machine → Except Fault α) : Exec α := fun machine =>
  match question machine with
  | .ok answer => .ok answer machine
  | .error fault => .error fault machine

/-- A result that does not depend on the state. -/
def of {α : Type} (result : Except Fault α) : Exec α := fun machine =>
  match result with
  | .ok answer => .ok answer machine
  | .error fault => .error fault machine

/-- A step on the memory of the machine. -/
def onImage {α : Type} (step : Store α) : Exec α := fun ⟨image, frame, openers, console⟩ =>
  match step image with
  | .ok answer image => .ok answer ⟨image, frame, openers, console⟩
  | .error fault image => .error fault ⟨image, frame, openers, console⟩

theorem onImage_of_ok {α : Type} {step : Store α} {machine : Machine} {a : α} {image : Image}
    (h : step machine.image = .ok a image) :
    onImage step machine = .ok a { machine with image := image } := by
  simp only [onImage, h]

theorem onImage_of_error {α : Type} {step : Store α} {machine : Machine} {fault : Fault}
    {image : Image} (h : step machine.image = .error fault image) :
    onImage step machine = .error fault { machine with image := image } := by
  simp only [onImage, h]

/-- A step on the console of the machine. -/
def onConsole {α : Type} (step : ConsoleStep α) : Exec α := fun ⟨image, frame, openers, console⟩ =>
  match step console with
  | .ok answer console => .ok answer ⟨image, frame, openers, console⟩
  | .error fault console => .error fault ⟨image, frame, openers, console⟩

/-- Changes the console. -/
def console (change : Console → Console) : Exec Unit :=
  modify (Machine.onConsole change)

/-- Moves to a line. -/
def setLine (line : Nat) : Exec Unit :=
  console (·.setLine line)

end Exec

end FlatC

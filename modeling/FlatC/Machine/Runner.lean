import FlatC.Machine.Variable

/-!
# Runners

Evaluation is written once, for every way to carry it out.  A runner takes the steps that
evaluation asks for, in the order in which it asks for them; it may also watch them.

* `Part` is what evaluation takes a run apart into;
* `Runner` is a way to carry out an evaluation;
* `Exec` runs an evaluation on a machine and watches nothing;
* `inBlock` and `asCall` run a part in a frame of its own, which is closed however the part ends.
-/

namespace FlatC

/-- What a run is taken apart into. -/
inductive Part where
  /-- One evaluation of an expression. -/
  | expression
  /-- One execution of a statement. -/
  | statement (stmt : Stmt)
  /-- Statements in a frame of their own. -/
  | block
  /-- One execution of a loop. -/
  | loop
  /-- One execution of the body of a loop. -/
  | iteration
  /-- One call of a function of the program. -/
  | call
  /-- The body of a called function, in its frame. -/
  | activation
deriving Repr

instance : (kind : Part) → Decidable (kind = .iteration)
  | .iteration => isTrue rfl
  | .expression | .statement _ | .block | .loop | .call | .activation => isFalse nofun

instance : (kind : Part) → Decidable (kind = .activation)
  | .activation => isTrue rfl
  | .expression | .statement _ | .block | .loop | .iteration | .call => isFalse nofun

/-- A way to carry out an evaluation. -/
class Runner (μ : Type → Type) where
  /-- Takes a step of the machine. -/
  step {α : Type} : Exec α → μ α
  /-- Declares a variable. -/
  declare : StructTable → String → CType → μ Value
  /-- Changes the machine before something is run, and after it however it ends. -/
  between {α : Type} (before after : Machine → Machine) : μ α → μ α
  /-- Runs a part. -/
  part {α : Type} : Part → μ α → μ α

namespace Runner

variable {μ : Type → Type} [Runner μ] {α : Type}

/-- Runs something in a frame of its own. -/
@[inline] def inFrame (opening : Frame → Frame) (inside : μ α) : μ α :=
  between (Machine.enter opening) Machine.close inside

/-- Runs something in a block inside the present frame. -/
@[inline] def inBlock (inside : μ α) : μ α :=
  part .block (inFrame Frame.block inside)

/-- Runs something as a call: counted while it runs, and in a frame of its own. -/
@[inline] def asCall (inside : μ α) : μ α :=
  part .activation
    (between (Machine.onConsole Console.deepen) (Machine.onConsole Console.exitCall)
      (inFrame Frame.activation inside))

end Runner

/-- Evaluation on a machine alone. -/
instance : Runner Exec where
  step exec := exec
  declare := Machine.declareVariable
  between before after inside := fun machine =>
    match inside (before machine) with
    | .ok answer machine => .ok answer (after machine)
    | .error fault machine => .error fault (after machine)
  part _ inside := inside

end FlatC

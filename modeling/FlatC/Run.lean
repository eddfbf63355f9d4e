import FlatC.Eval.Call
import FlatC.Image.Create

/-!
# Runs of programs

A run starts from a new image.  The library functions are bound in the outermost frame; the
functions and globals of the program stand in a frame inside it, from which `main` is called.

* `bindLibrary` and `Program.declare` fill the two frames;
* `Program.run` runs a program to its end.
-/

namespace FlatC

/-- The memory regions and the budgets of a run. -/
structure Config where
  regions : Regions := {}
  limits : Limits := {}
deriving DecidableEq, Repr, Inhabited

open Runner

variable {μ : Type → Type} [Monad μ] [Runner μ]

/-- Binds library functions to their names, in order. -/
@[specialize] def bindAll : List LibraryFunction → μ Unit
  | [] => pure ()
  | function :: rest => do
    step (Machine.declareFunction function.name (.library function))
    bindAll rest

/-- Binds every library function in the present frame. -/
@[specialize] def bindLibrary : μ Unit :=
  bindAll LibraryFunction.all

/-- Declares the functions of a program, each at its line. -/
@[specialize] def declareFunctions : List FunctionDef → μ Unit
  | [] => pure ()
  | function :: rest => do
    step (.setLine function.line)
    step (Machine.declareFunction function.name (.user function))
    declareFunctions rest

/-- Executes file-scope statements in order; how they end does not matter. -/
@[specialize] def executeGlobals (env : Env) : List Stmt → μ Unit
  | [] => pure ()
  | stmt :: rest => do
    let _ ← stmt.exec env
    executeGlobals env rest

/-- Declares all functions of a program and then executes its file-scope statements. -/
@[specialize] def Program.declare (env : Env) (program : Program) : μ Unit := do
  declareFunctions program.functions
  executeGlobals env program.globals

/-- Runs a program in the outermost frame of a machine and yields the status of `main`. -/
@[specialize] def Program.execute (env : Env) (program : Program) : μ Int := do
  bindLibrary
  inBlock do
    program.declare env
    let main ← step (.ask (Machine.functionOf env.structs "main"))
    let status ← main.call env []
    return status.toInt32

/-- How a run ended. -/
inductive Ending where
  /-- With an exit status. -/
  | finished (status : Int)
  /-- With a failure. -/
  | failed (failure : Failure)
  /-- Not by the program: the machine could not compute an address and stopped. -/
  | aborted (fault : OverflowFault)
deriving DecidableEq, Repr, Inhabited

/-- The end of a run, and the console it leaves behind. -/
structure Outcome where
  ending : Ending
  console : Console
deriving DecidableEq, Repr, Inhabited

/-- The end of a run at a fault: a request to end with success is a normal end, and a machine that
cannot go on reports nothing. -/
def Ending.ofFault (fault : Fault) (line : Nat) : Ending :=
  match fault with
  | .overflow fault => .aborted fault
  | fault => if fault.isCleanExit then .finished 0 else .failed ⟨fault, line⟩

theorem Ending.isCleanExit_of_finished {fault : Fault} {line : Nat} {status : Int}
    (h : ofFault fault line = .finished status) : fault.isCleanExit = true := by
  unfold ofFault at h
  split at h
  · cases h
  · split at h
    · assumption
    · cases h

theorem Ending.ofFault_eq_failed {fault : Fault} {line : Nat} {failure : Failure}
    (h : ofFault fault line = .failed failure) : failure = ⟨fault, line⟩ := by
  unfold ofFault at h
  split at h
  · cases h
  · split at h <;> cases h
    rfl

theorem Ending.ofFault_eq_aborted {fault : Fault} {line : Nat} {overflow : OverflowFault} :
    ofFault fault line = .aborted overflow ↔ fault = .overflow overflow := by
  constructor
  · intro h
    unfold ofFault at h
    split at h
    · cases h
      rfl
    · split at h <;> cases h
  · rintro rfl
    rfl

/-- The outcome of a fault. -/
def Outcome.ofFault (fault : Fault) (console : Console) : Outcome :=
  ⟨.ofFault fault console.line, console⟩

/-- The outcome of an execution by how it ended. -/
def Outcome.ofResult : EStateM.Result Fault Machine Int → Outcome
  | .ok status machine => ⟨.finished status, machine.console⟩
  | .error fault machine => .ofFault fault machine.console

/-- Runs a program on an input. -/
def Program.run (structs : StructTable) (config : Config) (input : String) (program : Program) :
    Outcome :=
  let console := Console.start input.toList
  match Image.create config.regions with
  | .error fault => .ofFault fault console
  | .ok image =>
    let execute : Exec Int := program.execute ⟨structs, config.limits⟩
    .ofResult (execute (Machine.start image console))

end FlatC

import FlatC.Eval.Statement

/-!
# Calls of program functions

A call checks and converts its arguments, opens a frame above the caller's slots, stores the
arguments there and executes the body.  Calls nest only as deep as the budget allows: the number
of calls that may still be opened goes down with each one, and with none left a call is a fault.

* `callWithin` calls a function with a given number of calls left;
* `Expr.eval`, `Stmt.exec` and `Callee.call` start from the number the console leaves.
-/

namespace FlatC

/-- The parameters of a function with their decayed types and the converted arguments. -/
structure BoundParam where
  name : String
  type : CType
  value : Value
deriving Inhabited

/-- Checks the arguments of a call and converts them to the decayed types of the parameters. -/
def FunctionDef.bindArguments (function : FunctionDef) (arguments : List Value) :
    Except Fault (List BoundParam) := do
  if arguments.length ≠ function.params.length then
    throw (.type (.argumentCount function.name function.params.length arguments.length))
  let types := function.params.map fun param => param.type.decay
  let values ← convertAll function.name 0 types arguments
  return (function.params.zip (types.zip values)).map fun (param, type, value) =>
    ⟨param.name, type, value⟩

/-- The body of a function, which must have one. -/
def FunctionDef.definedBody (function : FunctionDef) : Except Fault (List Stmt) :=
  match function.body with
  | some body => .ok body
  | none => .error (.type (.undefinedFunction function.name))

/-- The value of a finished call: none for a function without a result, what was returned, or
zero if nothing was. -/
def FunctionDef.result (function : FunctionDef) (flow : Flow) : Except Fault Value :=
  match function.returnType, flow with
  | .void, _ => .ok .void
  | type, .returning (some value) => value.implicit type
  | type, _ => .ok (.rvalue .zero type)

open Runner

variable {μ : Type → Type} [Monad μ] [Runner μ]

/-- Declares the parameters of a function in its frame and stores the arguments. -/
@[specialize] def storeParams (env : Env) : List BoundParam → μ Unit
  | [] => pure ()
  | param :: rest => do
    let slot ← declare env.structs param.name param.type
    match slot.address with
    | some address =>
      step (.onImage (param.value.storeAs address param.type))
      storeParams env rest
    | none => storeParams env rest

/-- Calls a function when `left` calls may still be opened.  The line of the caller is restored
when the call succeeds; after a fault the line of the fault stays. -/
@[specialize] def callWithin (env : Env) (left : Nat) : UserCall μ := fun function arguments =>
  part .call do
    let body ← step (.of function.definedBody)
    let params ← step (.of (function.bindArguments arguments))
    match left with
    | 0 => step (.of (.error (.resource (.callDepth env.limits.maxCallDepth))))
    | left + 1 =>
      let line ← step (.ask fun machine => .ok machine.console.line)
      let flow ← asCall do
        storeParams env params
        Stmt.execAllWith env (callWithin env left) body
      step (.setLine line)
      step (.of (function.result flow))

/-- The number of calls that may still be opened. -/
def Machine.callsLeft (env : Env) (machine : Machine) : Nat :=
  env.limits.maxCallDepth - machine.console.callDepth

/-- Runs something that depends on the number of calls that may still be opened. -/
@[specialize] def withCalls {α : Type} (env : Env) (inside : UserCall μ → μ α) : μ α := do
  let left ← step (.ask fun machine => .ok (machine.callsLeft env))
  inside (callWithin env left)

/-- Evaluates an expression. -/
@[specialize] def Expr.eval (env : Env) (expr : Expr) : μ Value :=
  withCalls env fun user => expr.evalWith env user

/-- Executes a statement. -/
@[specialize] def Stmt.exec (env : Env) (stmt : Stmt) : μ Flow :=
  withCalls env fun user => stmt.execWith env user

/-- Calls a function with evaluated arguments. -/
@[specialize] def Callee.call (env : Env) (callee : Callee) (arguments : List Value) : μ Value :=
  withCalls env fun user => callee.callWith user arguments

end FlatC

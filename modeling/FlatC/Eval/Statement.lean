import FlatC.Eval.Expression
import FlatC.Eval.Loop

/-!
# Execution of statements

Each statement first moves the console to its line.  Blocks, branches and loop bodies run in
frames of their own, and so does a whole loop with a first statement.

* `Stmt.execWith` executes a statement;
* `Stmt.execAllWith` executes statements until one does not end normally.
-/

namespace FlatC

/-! ## Declarations -/

/-- The text and the length of a character array that is initialised by a text literal. -/
def textArray? (type : CType) (init : Option Expr) : Option (String × Nat) :=
  match type, init with
  | .array .char [length], some (.text literal) => some (literal, length)
  | _, _ => none

/-- The bytes of a text in a character array.  The terminator may be cut off, but nothing else. -/
def bytesFitting (literal : String) (length : Nat) : Except Fault (List UInt8) :=
  let body := Text.literalBody literal.toList
  if length < body.length then
    .error (.type (.illegalCast (.array .char [body.length + 1]) (.array .char [length]) false))
  else .ok ((Text.encode body ++ [0]).take length)

open Runner

variable {μ : Type → Type} [Monad μ] [Runner μ]

/-- Declares a character array and copies a text into it. -/
@[specialize] def declareText (env : Env) (name literal : String) (length : Nat) : μ Unit := do
  let slot ← declare env.structs name (.array .char [length])
  let bytes ← step (.of (bytesFitting literal length))
  match slot.address with
  | some address => step (.onImage (Image.write address bytes))
  | none => return ()

/-- Declares a variable.  Its initial value is evaluated first, so it cannot see the variable. -/
@[specialize] def declareWith (env : Env) (user : UserCall μ) (name : String) (type : CType)
    (init : Option Expr) : μ Unit := do
  match textArray? type init with
  | some (literal, length) => declareText env name literal length
  | none =>
    match init with
    | none =>
      let _ ← declare env.structs name type
      return ()
    | some init =>
      let value ← init.evalWith env user
      let slot ← declare env.structs name type
      let _ ← step (.onImage (slot.assign env.structs .plain value))
      return ()

/-! ## Statements -/

/-- The test of a loop; a missing one always holds. -/
@[specialize] def testOrTrue (env : Env) (user : UserCall μ) : Option Expr → μ Bool
  | some test => test.testWith env user
  | none => pure true

/-- Evaluates an optional expression for its effect. -/
@[specialize] def evalOptional (env : Env) (user : UserCall μ) : Option Expr → μ Unit
  | some expr => do
    let _ ← expr.evalWith env user
    return ()
  | none => pure ()

/-- The value that a return statement carries. -/
@[specialize] def returnedValue (env : Env) (user : UserCall μ) : Option Expr → μ (Option Value)
  | some expr => do
    let value ← expr.evalWith env user
    return some value.toRvalue
  | none => pure none

mutual

/-- Executes a statement. -/
@[specialize] def Stmt.execWith (env : Env) (user : UserCall μ) (stmt : Stmt) : μ Flow :=
  part (.statement stmt) do
    step (.setLine stmt.line)
    match stmt with
    | .declare _ name type init =>
      declareWith env user name type init
      return .normal
    | .expression _ expr =>
      let _ ← expr.evalWith env user
      return .normal
    | .block _ body => inBlock (Stmt.execAllWith env user body)
    | .ifElse _ test whenTrue whenFalse =>
      if ← test.testWith env user then
        inBlock (Stmt.execAllWith env user whenTrue)
      else
        inBlock (Stmt.execAllWith env user whenFalse)
    | .whileLoop _ test body =>
      Loop.whileTrue env.limits (test.testWith env user)
        (inBlock (Stmt.execAllWith env user body)) (pure ())
    | .doLoop _ body test =>
      Loop.afterFirst env.limits (test.testWith env user)
        (inBlock (Stmt.execAllWith env user body))
    | .forLoop _ init test after body =>
      inBlock do
        Stmt.execInitWith env user init
        Loop.whileTrue env.limits (testOrTrue env user test)
          (inBlock (Stmt.execAllWith env user body)) (evalOptional env user after)
    | .returnValue _ value =>
      let value ← returnedValue env user value
      return .returning value
    | .breakLoop _ => return .breaking
    | .continueLoop _ => return .continuing

/-- Executes the first statement of a loop, if there is one; how it ends does not matter. -/
@[specialize] def Stmt.execInitWith (env : Env) (user : UserCall μ) : Option Stmt → μ Unit
  | some init => do
    let _ ← init.execWith env user
    return ()
  | none => pure ()

/-- Executes statements in order until one does not end normally. -/
@[specialize] def Stmt.execAllWith (env : Env) (user : UserCall μ) : List Stmt → μ Flow
  | [] => pure .normal
  | stmt :: rest => do
    match ← stmt.execWith env user with
    | .normal => Stmt.execAllWith env user rest
    | flow => return flow

end

end FlatC

import FlatC.Proofs.Eval.Primitive
import FlatC.Run

/-!
# Relations that evaluation keeps

Evaluation is one program for all runners.  So whatever can be said of the single steps of two
runners can be said of all that evaluation makes of them: a relation that the rules for sequences,
steps, declarations, names, parts, blocks and loops keep holds between the two evaluations of every
expression and of every statement.  The relation may count the parts of a run; then the count for
a tree is given by the tree.

* `Expr.parts` and `Stmt.parts` are the counts, with the count of a call as a parameter;
* `EvalCongruence` and `Congruence` are relations with the rules for expressions and for statements;
* `EvalCongruence.eval` and `Congruence.exec` are the statements about expressions and statements,
  and `RunCongruence.execute` is the one about whole programs.
-/

namespace FlatC

/-! ## Counts -/

mutual

/-- A bound on the parts of an evaluation in which every call has at most `call` of them. -/
def Expr.parts (call : Nat) : Expr → Nat
  | .number _ | .text _ | .var _ | .sizeofType _ | .sizeofExpr _ => 1
  | .unary _ operand | .member operand _ | .arrow operand _ | .cast _ operand =>
    operand.parts call + 1
  | .binary _ left right | .index left right => left.parts call + right.parts call + 1
  | .assign _ target value => value.parts call + target.parts call + 1
  | .conditional test whenTrue whenFalse =>
    test.parts call + (whenTrue.parts call + whenFalse.parts call) + 1
  | .call _ arguments => Expr.partsAll call arguments + call + 1

/-- The bound for the arguments of a call. -/
def Expr.partsAll (call : Nat) : List Expr → Nat
  | [] => 0
  | argument :: rest => argument.parts call + Expr.partsAll call rest

end

/-- The bound for an expression that may be missing. -/
def Expr.partsOptional (call : Nat) : Option Expr → Nat
  | some expr => expr.parts call
  | none => 0

/-- A bound on the parts of a loop that starts at most `limit` iterations. -/
def Loop.parts (limit test body after : Nat) : Nat :=
  (limit + 1) * test + limit * (body + 1 + after) + 1

mutual

/-- A bound on the parts of a statement when loops start at most `limit` iterations. -/
def Stmt.parts (limit call : Nat) : Stmt → Nat
  | .declare _ _ _ init => Expr.partsOptional call init + 1
  | .expression _ expr => expr.parts call + 1
  | .block _ body => Stmt.partsAll limit call body + 2
  | .ifElse _ test whenTrue whenFalse =>
    test.parts call +
      (Stmt.partsAll limit call whenTrue + 1 + (Stmt.partsAll limit call whenFalse + 1)) + 1
  | .whileLoop _ test body | .doLoop _ body test =>
    Loop.parts limit (test.parts call) (Stmt.partsAll limit call body + 1) 0 + 1
  | .forLoop _ init test after body =>
    Stmt.partsInit limit call init +
      Loop.parts limit (Expr.partsOptional call test) (Stmt.partsAll limit call body + 1)
        (Expr.partsOptional call after) + 2
  | .returnValue _ value => Expr.partsOptional call value + 1
  | .breakLoop _ | .continueLoop _ => 1

/-- The bound for the first statement of a loop. -/
def Stmt.partsInit (limit call : Nat) : Option Stmt → Nat
  | some init => init.parts limit call
  | none => 0

/-- The bound for a list of statements. -/
def Stmt.partsAll (limit call : Nat) : List Stmt → Nat
  | [] => 0
  | stmt :: rest => stmt.parts limit call + Stmt.partsAll limit call rest

end

/-- The bound for a program. -/
def Program.parts (limit call : Nat) (program : Program) : Nat :=
  Stmt.partsAll limit call program.globals + call + 1

/-! ## Relations with rules -/

/-- A relation between what two runners make of one evaluation of an expression.  It may depend on a
bound for the parts of the evaluation, and on what is known of the functions that names stand
for. -/
structure EvalCongruence (μ ν : Type → Type) [Monad μ] [Runner μ] [Monad ν] [Runner ν]
    (table : StructTable) (limits limits' : Limits) where
  /-- The relation, with a bound on the parts. -/
  rel {α : Type} : (parts : Nat) → μ α → ν α → Prop
  /-- What is known of every function that a name stands for. -/
  known : Callee → Prop
  weaken {α : Type} {m n : Nat} {x : μ α} {y : ν α} : rel m x y → m ≤ n → rel n x y
  answer {α : Type} (a : α) : rel 0 (pure a) (pure a)
  sequence {α β : Type} {m n : Nat} {x : μ α} {y : ν α} {f : α → μ β} {g : α → ν β} :
    rel m x y → (∀ a, rel n (f a) (g a)) → rel (m + n) (x >>= f) (y >>= g)
  step {α : Type} {exec : Exec α} :
    Primitive table exec → rel 0 (Runner.step exec) (Runner.step exec)
  lookup {α : Type} {n : Nat} (name : String) {f : Callee → μ α} {g : Callee → ν α} :
    (∀ callee, known callee → rel n (f callee) (g callee)) →
      rel n (Runner.step (Exec.ask (Machine.functionOf table name)) >>= f)
        (Runner.step (Exec.ask (Machine.functionOf table name)) >>= g)
  part {α : Type} {n : Nat} {x : μ α} {y : ν α} (kind : Part) :
    kind ∈ [.expression, .block, .call] → rel n x y →
      rel (n + 1) (Runner.part kind x) (Runner.part kind y)

/-- A relation of this kind with rules for all that statements add to expressions. -/
structure Congruence (μ ν : Type → Type) [Monad μ] [Runner μ] [Monad ν] [Runner ν]
    (table : StructTable) (limits limits' : Limits) extends
    EvalCongruence μ ν table limits limits' where
  check {α β : Type} {n : Nat} (result : Except Fault α) {f : α → μ β} {g : α → ν β} :
    (∀ a, result = .ok a → rel n (f a) (g a)) →
      rel n (Runner.step (Exec.of result) >>= f) (Runner.step (Exec.of result) >>= g)
  declare (name : String) (type : CType) :
    rel 0 (Runner.declare table name type) (Runner.declare table name type)
  /-- A statement moves to its line before anything else. -/
  statement {n : Nat} {x : μ Flow} {y : ν Flow} (stmt : Stmt) : rel n x y →
    rel (n + 1)
      (Runner.part (.statement stmt) (Runner.step (Exec.setLine stmt.line) >>= fun _ => x))
      (Runner.part (.statement stmt) (Runner.step (Exec.setLine stmt.line) >>= fun _ => y))
  inFrame {α : Type} {n : Nat} {x : μ α} {y : ν α} :
    rel n x y → rel n (Runner.inFrame Frame.block x) (Runner.inFrame Frame.block y)
  whileTrue {t b a : Nat} {test : μ Bool} {test' : ν Bool} {body : μ Flow} {body' : ν Flow}
    {after : μ Unit} {after' : ν Unit} :
    rel t test test' → rel b body body' → rel a after after' →
      rel (Loop.parts limits.loopLimit t b a) (Loop.whileTrue limits test body after)
        (Loop.whileTrue limits' test' body' after')
  afterFirst {t b : Nat} {test : μ Bool} {test' : ν Bool} {body : μ Flow} {body' : ν Flow} :
    rel t test test' → rel b body body' →
      rel (Loop.parts limits.loopLimit t b 0) (Loop.afterFirst limits test body)
        (Loop.afterFirst limits' test' body')

namespace EvalCongruence

variable {μ ν : Type → Type} [Monad μ] [Runner μ] [Monad ν] [Runner ν] {table : StructTable}
  {limits limits' : Limits} (C : EvalCongruence μ ν table limits limits')

/-- Calls of the functions of the program are related. -/
def CallsRelated (call : Nat) (user : UserCall μ) (user' : UserCall ν) : Prop :=
  ∀ function arguments, C.known (.user function) →
    C.rel call (user function arguments) (user' function arguments)

variable {C} {call : Nat} {user : UserCall μ} {user' : UserCall ν}

theorem sequence_pure {α β : Type} {n : Nat} {x : μ α} {y : ν α} (h : C.rel n x y)
    (f : α → β) : C.rel n (x >>= fun a => pure (f a)) (y >>= fun a => pure (f a)) :=
  C.sequence h fun a => C.answer (f a)

/-- A sequence that starts with a primitive step has the parts of the rest. -/
theorem step_then {α β : Type} {n : Nat} {exec : Exec α} (primitive : Primitive table exec)
    {f : α → μ β} {g : α → ν β} (h : ∀ a, C.rel n (f a) (g a)) :
    C.rel n (Runner.step exec >>= f) (Runner.step exec >>= g) :=
  C.weaken (C.sequence (C.step primitive) h) (by omega)

/-- A choice has at most the parts of both branches. -/
theorem choose {α : Type} {m n : Nat} {x x' : μ α} {y y' : ν α} (test : Bool)
    (yes : C.rel m x y) (no : C.rel n x' y') :
    C.rel (m + n) (if test then x else x') (if test then y else y') := by
  cases test with
  | true => exact C.weaken yes (by omega)
  | false => exact C.weaken no (by omega)

theorem callWith (h : C.CallsRelated call user user') (callee : Callee) (known : C.known callee)
    (arguments : List Value) :
    C.rel call (callee.callWith user arguments) (callee.callWith user' arguments) := by
  cases callee with
  | user function => exact h function arguments known
  | library function => exact C.weaken (C.step (.library function arguments)) (Nat.zero_le _)

/-! ## Expressions -/

theorem expression {n : Nat} {x : μ Value} {y : ν Value} (h : C.rel n x y) :
    C.rel (n + 1) (Runner.part .expression x) (Runner.part .expression y) :=
  C.part .expression (by simp) h

/-- An operand, and one step that uses its value. -/
theorem operand {n : Nat} {x : μ Value} {y : ν Value} (h : C.rel n x y)
    {exec : Value → Exec Value} (primitive : ∀ v, Primitive table (exec v)) :
    C.rel (n + 1) (Runner.part .expression (x >>= fun v => Runner.step (exec v)))
      (Runner.part .expression (y >>= fun v => Runner.step (exec v))) :=
  expression (C.sequence h fun v => C.step (primitive v))

/-- Two operands, and one step that uses their values. -/
theorem operands {m n : Nat} {x x' : μ Value} {y y' : ν Value} (first : C.rel m x y)
    (second : C.rel n x' y') {exec : Value → Value → Exec Value}
    (primitive : ∀ v w, Primitive table (exec v w)) :
    C.rel (m + n + 1)
      (Runner.part .expression (x >>= fun v => x' >>= fun w => Runner.step (exec v w)))
      (Runner.part .expression (y >>= fun v => y' >>= fun w => Runner.step (exec v w))) := by
  refine expression (C.sequence first fun v => ?_)
  exact C.sequence second fun w => C.step (primitive v w)

mutual

/-- The evaluations of an expression are related if the calls in it are. -/
theorem eval (h : C.CallsRelated call user user') : ∀ expr : Expr,
    C.rel (expr.parts call) (expr.evalWith ⟨table, limits⟩ user)
      (expr.evalWith ⟨table, limits'⟩ user')
  | .number value => expression (C.answer _)
  | .text literal => expression (C.step (.intern _))
  | .var name => expression (C.step (.var name))
  | .binary op left right => by
    have evalLeft := eval h left
    have evalRight := eval h right
    have tested : C.rel (right.parts call)
        (right.evalWith ⟨table, limits⟩ user >>= fun v =>
          Runner.step (Exec.of v.condition) >>= fun b => pure (Value.ofBool b))
        (right.evalWith ⟨table, limits'⟩ user' >>= fun v =>
          Runner.step (Exec.of v.condition) >>= fun b => pure (Value.ofBool b)) :=
      C.sequence evalRight fun v => step_then (.of _) fun b => C.answer _
    cases op
    -- only these two may leave their right side alone
    case and =>
      refine expression (C.sequence evalLeft fun v => ?_)
      exact step_then (.of _) fun b => choose b tested (C.answer _)
    case or =>
      refine expression (C.sequence evalLeft fun v => ?_)
      refine step_then (.of _) fun b => ?_
      exact C.weaken (choose b (C.answer _) tested) (by omega)
    all_goals exact operands evalLeft evalRight fun v w => .of _
  | .unary op inner => operand (eval h inner) fun v => .unary op v
  | .assign op target value =>
    operands (eval h value) (eval h target) fun v place => .assign op place v
  | .conditional test whenTrue whenFalse => by
    have yes := sequence_pure (eval h whenTrue) Value.toRvalue
    have no := sequence_pure (eval h whenFalse) Value.toRvalue
    refine expression (C.sequence (eval h test) fun v => ?_)
    exact step_then (.of _) fun b => choose b yes no
  | .call function arguments => by
    refine expression (C.lookup function fun callee known => ?_)
    exact C.sequence (evalAll h arguments) fun values => callWith h callee known values
  | .index array position => operands (eval h array) (eval h position) fun v i => .element v i
  | .member object field => operand (eval h object) fun v => .member v field
  | .arrow pointer field => operand (eval h pointer) fun v => .arrow v field
  | .cast type inner => operand (eval h inner) fun v => .of _
  | .sizeofType type => expression (C.step (.of _))
  | .sizeofExpr inner => expression (step_then (.typeOf inner) fun type => C.step (.of _))

/-- The evaluations of arguments are related if the calls in them are. -/
theorem evalAll (h : C.CallsRelated call user user') : ∀ arguments : List Expr,
    C.rel (Expr.partsAll call arguments) (Expr.evalAllWith ⟨table, limits⟩ user arguments)
      (Expr.evalAllWith ⟨table, limits'⟩ user' arguments)
  | [] => C.answer []
  | argument :: rest => by
    refine C.sequence (eval h argument) fun value => ?_
    exact sequence_pure (evalAll h rest) fun values => value.toRvalue :: values

end

theorem test (h : C.CallsRelated call user user') (expr : Expr) :
    C.rel (expr.parts call) (expr.testWith ⟨table, limits⟩ user)
      (expr.testWith ⟨table, limits'⟩ user') :=
  C.sequence (eval h expr) fun _ => C.step (.of _)

theorem testOrTrue (h : C.CallsRelated call user user') (expr : Option Expr) :
    C.rel (Expr.partsOptional call expr) (FlatC.testOrTrue ⟨table, limits⟩ user expr)
      (FlatC.testOrTrue ⟨table, limits'⟩ user' expr) := by
  cases expr with
  | none => exact C.answer true
  | some expr => exact test h expr

theorem evalOptional (h : C.CallsRelated call user user') (expr : Option Expr) :
    C.rel (Expr.partsOptional call expr) (FlatC.evalOptional ⟨table, limits⟩ user expr)
      (FlatC.evalOptional ⟨table, limits'⟩ user' expr) := by
  cases expr with
  | none => exact C.answer ()
  | some expr => exact sequence_pure (eval h expr) fun _ => ()

theorem returnedValue (h : C.CallsRelated call user user') (expr : Option Expr) :
    C.rel (Expr.partsOptional call expr) (FlatC.returnedValue ⟨table, limits⟩ user expr)
      (FlatC.returnedValue ⟨table, limits'⟩ user' expr) := by
  cases expr with
  | none => exact C.answer none
  | some expr => exact sequence_pure (eval h expr) fun v => some v.toRvalue

end EvalCongruence

namespace Congruence

open EvalCongruence

variable {μ ν : Type → Type} [Monad μ] [Runner μ] [Monad ν] [Runner ν] {table : StructTable}
  {limits limits' : Limits} {C : Congruence μ ν table limits limits'} {call : Nat}
  {user : UserCall μ} {user' : UserCall ν}

/-! ## Statements -/

theorem inBlock {α : Type} {n : Nat} {x : μ α} {y : ν α} (h : C.rel n x y) :
    C.rel (n + 1) (Runner.inBlock x) (Runner.inBlock y) :=
  C.part .block (by simp) (C.inFrame h)

theorem declareText (name literal : String) (length : Nat) :
    C.rel 0 (FlatC.declareText ⟨table, limits⟩ name literal length)
      (FlatC.declareText ⟨table, limits'⟩ name literal length) := by
  refine C.sequence (n := 0) (C.declare name _) fun slot => ?_
  refine step_then (.of _) fun bytes => ?_
  cases slot.address with
  | none => exact C.answer ()
  | some address => exact C.step (.write address bytes)

theorem declareWith (h : C.CallsRelated call user user') (name : String) (type : CType)
    (init : Option Expr) :
    C.rel (Expr.partsOptional call init) (FlatC.declareWith ⟨table, limits⟩ user name type init)
      (FlatC.declareWith ⟨table, limits'⟩ user' name type init) := by
  unfold FlatC.declareWith
  cases textArray? type init with
  | some text => exact C.weaken (declareText name text.1 text.2) (Nat.zero_le _)
  | none =>
    cases init with
    | none => exact sequence_pure (C.declare name type) fun _ => ()
    | some init =>
      refine C.sequence (n := 0) (eval h init) fun value => ?_
      refine C.sequence (n := 0) (C.declare name type) fun slot => ?_
      exact step_then (.assign .plain slot value) fun _ => C.answer ()

mutual

/-- The executions of a statement are related if the calls in it are. -/
theorem exec (h : C.CallsRelated call user user') : ∀ stmt : Stmt,
    C.rel (stmt.parts limits.loopLimit call) (stmt.execWith ⟨table, limits⟩ user)
      (stmt.execWith ⟨table, limits'⟩ user')
  | .declare line name type init =>
    C.statement _ (sequence_pure (declareWith h name type init) fun _ => Flow.normal)
  | .expression line expr => C.statement _ (sequence_pure (eval h expr) fun _ => Flow.normal)
  | .block line body => C.statement _ (inBlock (execAll h body))
  | .ifElse line condition whenTrue whenFalse => by
    refine C.statement _ (C.sequence (test h condition) fun b => ?_)
    exact choose b (inBlock (execAll h whenTrue)) (inBlock (execAll h whenFalse))
  | .whileLoop line condition body => by
    have running := inBlock (execAll h body)
    exact C.statement _ (C.whileTrue (test h condition) running (C.answer ()))
  | .doLoop line body condition => by
    have running := inBlock (execAll h body)
    exact C.statement _ (C.afterFirst (test h condition) running)
  | .forLoop line init condition after body => by
    have running := inBlock (execAll h body)
    refine C.statement _ (inBlock (C.sequence (execInit h init) fun _ => ?_))
    have tested := EvalCongruence.testOrTrue h condition
    exact C.whileTrue tested running (EvalCongruence.evalOptional h after)
  | .returnValue line value =>
    C.statement _ (sequence_pure (EvalCongruence.returnedValue h value) Flow.returning)
  | .breakLoop line => C.statement _ (C.answer Flow.breaking)
  | .continueLoop line => C.statement _ (C.answer Flow.continuing)

/-- The executions of the first statement of a loop are related if the calls in it are. -/
theorem execInit (h : C.CallsRelated call user user') : ∀ init : Option Stmt,
    C.rel (Stmt.partsInit limits.loopLimit call init)
      (Stmt.execInitWith ⟨table, limits⟩ user init) (Stmt.execInitWith ⟨table, limits'⟩ user' init)
  | none => C.answer ()
  | some init => sequence_pure (exec h init) fun _ => ()

/-- The executions of statements are related if the calls in them are. -/
theorem execAll (h : C.CallsRelated call user user') : ∀ body : List Stmt,
    C.rel (Stmt.partsAll limits.loopLimit call body)
      (Stmt.execAllWith ⟨table, limits⟩ user body) (Stmt.execAllWith ⟨table, limits'⟩ user' body)
  | [] => C.answer Flow.normal
  | stmt :: rest =>
    C.sequence (exec h stmt) fun flow => by
      cases flow with
      | normal => exact execAll h rest
      | breaking | continuing | returning _ => exact C.weaken (C.answer _) (Nat.zero_le _)

end

/-! ## Calls -/

theorem storeParams (params : List BoundParam) :
    C.rel 0 (FlatC.storeParams ⟨table, limits⟩ params)
      (FlatC.storeParams ⟨table, limits'⟩ params) := by
  induction params with
  | nil => exact C.answer ()
  | cons param rest ih =>
    refine C.sequence (n := 0) (C.declare param.name param.type) fun slot => ?_
    cases slot.address with
    | none => exact ih
    | some address => exact step_then (.storeAs param.value address param.type) fun _ => ih

/-- What happens in the frame of a called function is related if the calls in it are. -/
theorem callBody (h : C.CallsRelated call user user') (params : List BoundParam)
    (body : List Stmt) :
    C.rel (Stmt.partsAll limits.loopLimit call body)
      (FlatC.storeParams ⟨table, limits⟩ params >>= fun _ =>
        Stmt.execAllWith ⟨table, limits⟩ user body)
      (FlatC.storeParams ⟨table, limits'⟩ params >>= fun _ =>
        Stmt.execAllWith ⟨table, limits'⟩ user' body) :=
  C.weaken (C.sequence (storeParams params) fun _ => execAll h body) (by omega)

/-- With no call left a call ends with the same fault, if the budgets are the same. -/
theorem callWithin_zero {C : Congruence μ ν table limits limits} (function : FunctionDef)
    (arguments : List Value) :
    C.rel 1 (callWithin ⟨table, limits⟩ 0 function arguments)
      (callWithin ⟨table, limits⟩ 0 function arguments) := by
  refine C.part .call (by simp) ?_
  refine step_then (.of _) fun body => step_then (.of _) fun params => ?_
  exact C.step (.of _)

/-- Calls with one more call left are related if what happens in their frames is, and so are keeping
the line of the caller and moving back to it. -/
theorem callWithin_succ {n left left' : Nat} (function : FunctionDef) (arguments : List Value)
    (kept : C.rel 0 (Runner.step (Exec.ask fun machine => .ok machine.console.line))
      (Runner.step (Exec.ask fun machine => .ok machine.console.line)))
    (restored : ∀ line,
      C.rel 0 (Runner.step (Exec.setLine line)) (Runner.step (Exec.setLine line)))
    (inside : ∀ params body, function.body = some body →
      C.rel n
        (Runner.asCall (FlatC.storeParams ⟨table, limits⟩ params >>= fun _ =>
          Stmt.execAllWith ⟨table, limits⟩ (callWithin ⟨table, limits⟩ left) body))
        (Runner.asCall (FlatC.storeParams ⟨table, limits'⟩ params >>= fun _ =>
          Stmt.execAllWith ⟨table, limits'⟩ (callWithin ⟨table, limits'⟩ left') body))) :
    C.rel (n + 1) (callWithin ⟨table, limits⟩ (left + 1) function arguments)
      (callWithin ⟨table, limits'⟩ (left' + 1) function arguments) := by
  refine C.part .call (by simp) (C.check _ fun body defined => ?_)
  refine step_then (.of _) fun params => ?_
  refine C.weaken (C.sequence (n := n) kept fun line => ?_) (Nat.le_of_eq (Nat.zero_add n))
  have found : function.body = some body := by
    unfold FunctionDef.definedBody at defined
    cases h : function.body <;> simp_all
  refine C.sequence (n := 0) (inside params body found) fun flow => ?_
  exact C.sequence (restored line) fun _ => C.step (.of _)

end Congruence

/-! ## Programs -/

/-- A relation with rules that also cover what a run does before it calls `main`. -/
structure RunCongruence (μ ν : Type → Type) [Monad μ] [Runner μ] [Monad ν] [Runner ν]
    (table : StructTable) (limits limits' : Limits) extends
    Congruence μ ν table limits limits' where
  /-- A bound on the parts of a call. -/
  call : Nat
  library (function : LibraryFunction) : known (.library function)
  setLine (line : Nat) : rel 0 (Runner.step (Exec.setLine line)) (Runner.step (Exec.setLine line))
  bindFunction (name : String) (callee : Callee) : known callee →
    rel 0 (Runner.step (Machine.declareFunction name callee))
      (Runner.step (Machine.declareFunction name callee))
  withCalls {α : Type} {n : Nat} {f : UserCall μ → μ α} {g : UserCall ν → ν α} :
    (∀ user user', toCongruence.CallsRelated call user user' → rel n (f user) (g user')) →
      rel n (withCalls ⟨table, limits⟩ f) (withCalls ⟨table, limits'⟩ g)

namespace RunCongruence

open EvalCongruence Congruence

variable {μ ν : Type → Type} [Monad μ] [Runner μ] [Monad ν] [Runner ν] {table : StructTable}
  {limits limits' : Limits} {C : RunCongruence μ ν table limits limits'}

theorem bindAll (functions : List LibraryFunction) :
    C.rel 0 (bindAll functions : μ Unit) (bindAll functions : ν Unit) := by
  induction functions with
  | nil => exact C.answer ()
  | cons function rest ih =>
    exact C.sequence (n := 0) (C.bindFunction _ _ (C.library function)) fun _ => ih

theorem declareFunctions (functions : List FunctionDef)
    (known : ∀ function ∈ functions, C.known (.user function)) :
    C.rel 0 (declareFunctions functions : μ Unit) (declareFunctions functions : ν Unit) := by
  induction functions with
  | nil => exact C.answer ()
  | cons function rest ih =>
    refine C.sequence (n := 0) (C.setLine _) fun _ => ?_
    refine C.sequence (n := 0) (C.bindFunction _ _ (known _ (List.mem_cons_self ..))) fun _ => ?_
    exact ih fun other mem => known other (List.mem_cons_of_mem _ mem)

theorem executeGlobals (globals : List Stmt) :
    C.rel (Stmt.partsAll limits.loopLimit C.call globals)
      (executeGlobals ⟨table, limits⟩ globals) (executeGlobals ⟨table, limits'⟩ globals) := by
  induction globals with
  | nil => exact C.answer ()
  | cons stmt rest ih =>
    exact C.sequence (C.withCalls fun user user' h => exec h stmt) fun _ => ih

/-- The two executions of a program are related. -/
theorem execute (program : Program)
    (known : ∀ function ∈ program.functions, C.known (.user function)) :
    C.rel (program.parts limits.loopLimit C.call) (program.execute ⟨table, limits⟩)
      (program.execute ⟨table, limits'⟩) := by
  have declared := C.sequence (declareFunctions program.functions known) fun _ =>
    executeGlobals program.globals
  have called : C.rel C.call _ _ := C.lookup "main" fun callee known =>
    sequence_pure (C.withCalls fun user user' h => callWith h callee known []) Value.toInt32
  have inside := inBlock (C.sequence declared fun _ => called)
  exact C.weaken (C.sequence (bindAll LibraryFunction.all) fun _ => inside)
    (by simp only [Program.parts]; omega)

end RunCongruence

end FlatC

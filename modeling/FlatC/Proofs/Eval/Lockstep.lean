import FlatC.Proofs.Eval.Congruence
import FlatC.Proofs.Eval.Setting

/-!
# Evaluations in lockstep

Two evaluations under the same budgets repeat their loops and open their calls alike.  So a relation
between them needs rules for single steps, sequences, parts and frames only; the rules for loops and
for calls of any depth follow.

* `LoopRules` is a relation that is carried through loops;
* `Elementary` are the steps of evaluation that bind no name, with those that look at a budget;
* `Lockstep` is a relation with its rules;
* `Lockstep.eval`, `Lockstep.exec` and `Lockstep.execute` are the statements about expressions,
  statements and programs.
-/

namespace FlatC

/-! ## Loops -/

/-- A relation between what two runners make of the loops that they repeat alike. -/
structure LoopRules (μ ν : Type → Type) [Monad μ] [Runner μ] [Monad ν] [Runner ν]
    (limits : Limits) where
  rel {α : Type} : μ α → ν α → Prop
  answer {α : Type} (a : α) : rel (pure a) (pure a)
  sequence {α β : Type} {x : μ α} {y : ν α} {f : α → μ β} {g : α → ν β} :
    rel x y → (∀ a, rel (f a) (g a)) → rel (x >>= f) (y >>= g)
  start (count : Nat) :
    rel (Runner.step (Loop.start limits count)) (Runner.step (Loop.start limits count))
  part {α : Type} {x : μ α} {y : ν α} (kind : Part) : kind ∈ [.loop, .iteration] →
    rel x y → rel (Runner.part kind x) (Runner.part kind y)

namespace LoopRules

variable {μ ν : Type → Type} [Monad μ] [Runner μ] [Monad ν] [Runner ν] {limits : Limits}
  (L : LoopRules μ ν limits)

theorem choose {α : Type} {x x' : μ α} {y y' : ν α} (test : Bool) (yes : L.rel x y)
    (no : L.rel x' y') : L.rel (if test then x else x') (if test then y else y') := by
  cases test with
  | true => exact yes
  | false => exact no

theorem proceed {next : μ Flow} {next' : ν Flow} (flow : Flow) (h : L.rel next next') :
    L.rel (Loop.proceed flow next) (Loop.proceed flow next') := by
  cases flow with
  | normal | continuing => exact h
  | breaking | returning _ => exact L.answer _

variable {test : μ Bool} {test' : ν Bool} {body : μ Flow} {body' : ν Flow} {after : μ Unit}
  {after' : ν Unit}

/-- An iteration, and what follows it. -/
theorem iteration {next : μ Flow} {next' : ν Flow} (count : Nat) (hb : L.rel body body')
    (h : L.rel next next') :
    L.rel
      (Runner.step (Loop.start limits count) >>= fun _ =>
        Runner.part .iteration body >>= fun flow => Loop.proceed flow next)
      (Runner.step (Loop.start limits count) >>= fun _ =>
        Runner.part .iteration body' >>= fun flow => Loop.proceed flow next') := by
  refine L.sequence (L.start count) fun _ => ?_
  exact L.sequence (L.part .iteration (by simp) hb) fun flow => L.proceed flow h

theorem repeatWhile (ht : L.rel test test') (hb : L.rel body body') (ha : L.rel after after')
    (count : Nat) :
    L.rel (Loop.repeatWhile limits test body after count)
      (Loop.repeatWhile limits test' body' after' count) := by
  induction count with
  | zero =>
    refine L.sequence ht fun more => L.choose more ?_ (L.answer _)
    exact L.sequence (L.start 0) fun _ => L.answer _
  | succ count ih =>
    refine L.sequence ht fun more => L.choose more ?_ (L.answer _)
    exact L.iteration (count + 1) hb (L.sequence ha fun _ => ih)

theorem whileTrue (ht : L.rel test test') (hb : L.rel body body') (ha : L.rel after after') :
    L.rel (Loop.whileTrue limits test body after) (Loop.whileTrue limits test' body' after') :=
  L.part .loop (by simp) (L.repeatWhile ht hb ha limits.loopLimit)

theorem afterFirst (ht : L.rel test test') (hb : L.rel body body') :
    L.rel (Loop.afterFirst limits test body) (Loop.afterFirst limits test' body') := by
  have rest := L.repeatWhile ht hb (L.answer ()) (limits.loopLimit - 1)
  exact L.part .loop (by simp) (L.iteration limits.loopLimit hb rest)

end LoopRules

/-! ## All of evaluation -/

/-- A primitive step, or one that looks at the line or moves to another, resolves a function or
looks at a budget. -/
inductive Elementary (table : StructTable) (limits : Limits) : {α : Type} → Exec α → Prop where
  | primitive {α : Type} {exec : Exec α} : Primitive table exec → Elementary table limits exec
  | line : Elementary table limits (Exec.ask fun machine => .ok machine.console.line)
  | setLine (line : Nat) : Elementary table limits (Exec.setLine line)
  | function (name : String) : Elementary table limits (Exec.ask (Machine.functionOf table name))
  | start (left : Nat) : Elementary table limits (Loop.start limits left)
  | callsLeft : Elementary table limits
      (Exec.ask fun machine => .ok (machine.callsLeft ⟨table, limits⟩))

theorem Elementary.keepsSetting {table : StructTable} {limits : Limits} {α : Type}
    {exec : Exec α} (h : Elementary table limits exec) : KeepsSetting exec := by
  cases h with
  | primitive inner => exact inner.keepsSetting
  | setLine line => exact Exec.keepsSetting_setLine line
  | line | function _ | callsLeft => exact Exec.keepsSetting_ask _
  | start left => exact Loop.keepsSetting_start limits left

/-- A relation between what two runners make of one evaluation under the same budgets. -/
structure Lockstep (μ ν : Type → Type) [Monad μ] [Runner μ] [Monad ν] [Runner ν]
    (table : StructTable) (limits : Limits) where
  rel {α : Type} : μ α → ν α → Prop
  answer {α : Type} (a : α) : rel (pure a) (pure a)
  sequence {α β : Type} {x : μ α} {y : ν α} {f : α → μ β} {g : α → ν β} :
    rel x y → (∀ a, rel (f a) (g a)) → rel (x >>= f) (y >>= g)
  step {α : Type} {exec : Exec α} :
    Elementary table limits exec → rel (Runner.step exec) (Runner.step exec)
  check {α β : Type} (result : Except Fault α) {f : α → μ β} {g : α → ν β} :
    (∀ a, result = .ok a → rel (f a) (g a)) →
      rel (Runner.step (Exec.of result) >>= f) (Runner.step (Exec.of result) >>= g)
  declare (name : String) (type : CType) :
    rel (Runner.declare table name type) (Runner.declare table name type)
  bindFunction (name : String) (callee : Callee) :
    rel (Runner.step (Machine.declareFunction name callee))
      (Runner.step (Machine.declareFunction name callee))
  part {α : Type} {x : μ α} {y : ν α} (kind : Part) :
    rel x y → rel (Runner.part kind x) (Runner.part kind y)
  inFrame {α : Type} {x : μ α} {y : ν α} :
    rel x y → rel (Runner.inFrame Frame.block x) (Runner.inFrame Frame.block y)
  asCall {α : Type} {x : μ α} {y : ν α} :
    rel x y → rel (Runner.asCall x) (Runner.asCall y)

namespace Lockstep

variable {μ ν : Type → Type} [Monad μ] [Runner μ] [Monad ν] [Runner ν] {table : StructTable}
  {limits : Limits} (L : Lockstep μ ν table limits)

/-- The rules for loops are among the others. -/
def loopRules : LoopRules μ ν limits where
  rel := L.rel
  answer := L.answer
  sequence := L.sequence
  start count := L.step (.start count)
  part kind _ := L.part kind

/-! ## Evaluation -/

/-- The rules for loops follow from the others. -/
def congruence : Congruence μ ν table limits limits where
  rel _ := L.rel
  known _ := True
  weaken h _ := h
  answer := L.answer
  sequence := L.sequence
  step primitive := L.step (.primitive primitive)
  check := L.check
  declare := L.declare
  lookup name _ _ h := L.sequence (L.step (.function name)) fun callee => h callee trivial
  part kind _ := L.part kind
  statement stmt h :=
    L.part (.statement stmt) (L.sequence (L.step (.setLine stmt.line)) fun _ => h)
  inFrame := L.inFrame
  whileTrue := L.loopRules.whileTrue
  afterFirst := L.loopRules.afterFirst

open Congruence in
/-- Calls are related however many of them may still be opened. -/
theorem callWithin (left : Nat) :
    L.congruence.CallsRelated 1 (callWithin ⟨table, limits⟩ left)
      (callWithin ⟨table, limits⟩ left) := by
  induction left with
  | zero =>
    intro function arguments _
    exact callWithin_zero (C := L.congruence) function arguments
  | succ left ih =>
    intro function arguments _
    refine callWithin_succ (C := L.congruence) (n := 0) function arguments (L.step .line)
      (fun line => L.step (.setLine line)) ?_
    intro params body _
    exact L.asCall (callBody ih params body)

/-- The rules for a whole run. -/
def runCongruence : RunCongruence μ ν table limits limits where
  toCongruence := L.congruence
  call := 1
  library _ := trivial
  setLine line := L.step (.setLine line)
  bindFunction name callee _ := L.bindFunction name callee
  withCalls h := L.sequence (L.step .callsLeft) fun left => h _ _ (L.callWithin left)

theorem eval (expr : Expr) :
    L.rel (expr.eval ⟨table, limits⟩ : μ Value) (expr.eval ⟨table, limits⟩ : ν Value) :=
  L.runCongruence.withCalls fun _ _ h => EvalCongruence.eval h expr

theorem exec (stmt : Stmt) :
    L.rel (stmt.exec ⟨table, limits⟩ : μ Flow) (stmt.exec ⟨table, limits⟩ : ν Flow) :=
  L.runCongruence.withCalls fun _ _ h => Congruence.exec h stmt

theorem execute (program : Program) :
    L.rel (program.execute ⟨table, limits⟩ : μ Int) (program.execute ⟨table, limits⟩ : ν Int) :=
  RunCongruence.execute (C := L.runCongruence) program fun _ _ => trivial

end Lockstep

end FlatC

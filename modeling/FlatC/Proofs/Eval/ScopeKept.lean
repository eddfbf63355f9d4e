import FlatC.Proofs.Eval.Lockstep
import FlatC.Proofs.Scope.Layout

/-!
# Evaluation leaves the scope as it found it

Whatever a statement declares, it declares in a frame, and every frame that is opened for a block, a
loop or a call is closed again, also if it is left by a fault.  So only a declaration adds a name to
the scope that it stands in; everything else gives the scope back as it was, and the cursor of the
stack with it if the stack is reclaimed.

* `Machine.Grown` allows for new names and a higher cursor, and `Machine.ScopeKept` does not;
* `growingScope` says that all of evaluation is of the first kind, and `scopeKept_inFrame` and
  `scopeKept_asCall` that in a frame of its own it is of the second;
* `scopeKept_evalWith` and `scopeKept_execWith` are about expressions and statements, and
  `declares_execWith` is about declarations.
-/

namespace FlatC

open Step

/-! ## Scopes before and after -/

namespace Machine

/-- The scope may have new names and a higher cursor; the scopes around it, the waiting frames and
the count of open calls are the same. -/
structure Grown (before after : Machine) : Prop where
  shape : after.image.shape = before.image.shape
  outer : after.frame.outer = before.frame.outer
  base : after.frame.scope.base = before.frame.scope.base
  depth : after.frame.scope.depth = before.frame.scope.depth
  top_le : before.frame.scope.top ≤ after.frame.scope.top
  openers : after.openers = before.openers
  callDepth : after.console.callDepth = before.console.callDepth

/-- The scope has the same names in the same order too, and the same cursor if the stack is
reclaimed. -/
structure ScopeKept (before after : Machine) : Prop extends Grown before after where
  bindings : after.frame.scope.bindings = before.frame.scope.bindings
  reclaimed : before.image.policy = .reclaim → after.frame.scope.top = before.frame.scope.top

/-- The scope has the same names, or one more at its end that was not there before. -/
def Declares (name : String) (before after : Machine) : Prop :=
  after.frame.scope.bindings = before.frame.scope.bindings ∨
    before.frame.scope.bindings.binds name = false ∧
      ∃ binding, after.frame.scope.bindings = before.frame.scope.bindings ++ [(name, binding)]

variable {a b c : Machine}

theorem Grown.refl (machine : Machine) : machine.Grown machine :=
  ⟨rfl, rfl, rfl, rfl, Nat.le_refl _, rfl, rfl⟩

theorem Grown.trans (first : a.Grown b) (second : b.Grown c) : a.Grown c :=
  ⟨second.shape.trans first.shape, second.outer.trans first.outer, second.base.trans first.base,
    second.depth.trans first.depth, Nat.le_trans first.top_le second.top_le,
    second.openers.trans first.openers, second.callDepth.trans first.callDepth⟩

theorem ScopeKept.refl (machine : Machine) : machine.ScopeKept machine :=
  ⟨.refl machine, rfl, fun _ => rfl⟩

theorem ScopeKept.trans (first : a.ScopeKept b) (second : b.ScopeKept c) : a.ScopeKept c := by
  refine ⟨first.toGrown.trans second.toGrown, second.bindings.trans first.bindings, ?_⟩
  intro reclaim
  have policy : b.image.policy = a.image.policy := congrArg Shape.policy first.shape
  rw [second.reclaimed (policy.trans reclaim), first.reclaimed reclaim]

instance : Std.Refl Grown := ⟨.refl⟩
instance : Trans Grown Grown Grown := ⟨.trans⟩
instance : Std.Refl ScopeKept := ⟨.refl⟩
instance : Trans ScopeKept ScopeKept ScopeKept := ⟨.trans⟩

instance (name : String) : Std.Refl (Declares name) := ⟨fun _ => .inl rfl⟩

instance (name : String) : Trans ScopeKept (Declares name) (Declares name) where
  trans kept declared := by
    unfold Declares at declared ⊢
    rwa [kept.bindings] at declared

instance (name : String) : Trans (Declares name) ScopeKept (Declares name) where
  trans declared kept := by
    unfold Declares at declared ⊢
    rwa [kept.bindings]

/-- The scope is part of the setting. -/
theorem ScopeKept.of_setting (h : b.setting = a.setting) : a.ScopeKept b := by
  have shape : b.image.shape = a.image.shape := congrArg Setting.shape h
  have frame : b.frame = a.frame := congrArg Setting.frame h
  have openers : b.openers = a.openers := congrArg Setting.openers h
  have depth : b.console.callDepth = a.console.callDepth := congrArg Setting.callDepth h
  refine ⟨⟨shape, ?_, ?_, ?_, ?_, openers, depth⟩, ?_, fun _ => ?_⟩ <;> rw [frame]

end Machine

open Machine

theorem KeepsSetting.scopeKept {α : Type} {exec : Exec α} (h : KeepsSetting exec) :
    Moves ScopeKept exec :=
  fun machine => .of_setting (h machine)

theorem KeepsSetting.grown {α : Type} {exec : Exec α} (h : KeepsSetting exec) :
    Moves Grown exec :=
  fun machine => (h.scopeKept machine).toGrown

/-! ## Declarations -/

theorem grown_declareVariable (table : StructTable) (name : String) (type : CType) :
    Moves Grown (declareVariable table name type) := by
  intro machine
  rcases machine.declareVariable_cases table name type with
    ⟨fault, machine', run, kept⟩ | ⟨value, image, address, size, planned, shape, run⟩
  · rw [run]
    exact (ScopeKept.of_setting kept).toGrown
  · rw [run]
    obtain ⟨-, -, above, -⟩ := planVariable_ok planned
    exact ⟨shape, rfl, rfl, rfl, Nat.le_trans above (Nat.le_add_right ..), rfl, rfl⟩

theorem declares_declareVariable (table : StructTable) (name : String) (type : CType) :
    Moves (Declares name) (declareVariable table name type) := by
  intro machine
  rcases machine.declareVariable_cases table name type with
    ⟨fault, machine', run, kept⟩ | ⟨value, image, address, size, planned, -, run⟩
  · rw [run]
    exact .inl (ScopeKept.of_setting kept).bindings
  · rw [run]
    obtain ⟨new, -, -, -⟩ := planVariable_ok planned
    refine .inr ⟨new, ⟨type, .slot address⟩, ?_⟩
    show machine.frame.scope.bindings.bind name _ = _
    rw [Bindings.bind, new]
    rfl

theorem grown_declareFunction (name : String) (callee : Callee) :
    Moves Grown (declareFunction name callee) := by
  intro machine
  rcases machine.declareFunction_cases name callee with ⟨fault, run⟩ | ⟨bindings, -, run⟩
  · rw [run]
    exact .refl machine
  · rw [run]
    exact ⟨rfl, rfl, rfl, rfl, Nat.le_refl _, rfl, rfl⟩

/-! ## Frames -/

section Frames

variable {α : Type} {x : Exec α}

theorem left_between (before after : Machine → Machine) (x : Exec α) (machine : Machine) :
    left (Runner.between before after x machine) = after (left (x (before machine))) := by
  simp only [Runner.between]
  cases x (before machine) <;> rfl

/-- What a frame grows by is gone when it is closed, but for the cursor if the stack only grows. -/
theorem scopeKept_inFrame {opening : Frame → Frame}
    (opens : ∀ frame, (opening frame).scope.base = frame.scope.top ∧
      (opening frame).scope.top = frame.scope.top) (h : Moves Grown x) :
    Moves ScopeKept (Runner.inFrame opening x) := by
  intro machine
  rw [Runner.inFrame, left_between]
  have grown := h (machine.enter opening)
  generalize left (x (machine.enter opening)) = inside at grown
  obtain ⟨shape, -, base, -, top, openers, depth⟩ := grown
  obtain ⟨atBase, atTop⟩ := opens machine.frame
  have waiting : inside.openers = machine.frame :: machine.openers := openers
  have base : inside.frame.scope.base = machine.frame.scope.top := base.trans atBase
  have top : machine.frame.scope.top ≤ inside.frame.scope.top := atTop.symm.trans_le top
  have policy : inside.image.policy = machine.image.policy := congrArg Shape.policy shape
  rw [close, waiting]
  refine ⟨⟨shape, rfl, rfl, rfl, ?_, rfl, depth⟩, rfl, fun reclaim => ?_⟩
  · show machine.frame.scope.top ≤ inside.frame.cursorAfter inside.image.policy
    cases inside.image.policy with
    | reclaim => exact Nat.le_of_eq base.symm
    | growOnly => exact top
  · show inside.frame.cursorAfter inside.image.policy = machine.frame.scope.top
    rw [policy, reclaim]
    exact base

theorem scopeKept_inBlock (h : Moves Grown x) :
    Moves ScopeKept (Runner.inFrame Frame.block x) :=
  scopeKept_inFrame (fun _ => ⟨rfl, rfl⟩) h

theorem scopeKept_inActivation (h : Moves Grown x) :
    Moves ScopeKept (Runner.inFrame Frame.activation x) :=
  scopeKept_inFrame (fun _ => ⟨rfl, rfl⟩) h

/-- A call that is over is no longer counted. -/
theorem scopeKept_asCall (h : Moves Grown x) : Moves ScopeKept (Runner.asCall x) := by
  intro machine
  have kept := scopeKept_inActivation h (machine.onConsole Console.deepen)
  show ScopeKept machine (left (Runner.between _ _ (Runner.inFrame Frame.activation x) machine))
  rw [left_between]
  obtain ⟨⟨shape, outer, base, depth, top, openers, calls⟩, bindings, reclaimed⟩ := kept
  refine ⟨⟨shape, outer, base, depth, top, openers, ?_⟩, bindings, reclaimed⟩
  exact congrArg (· - 1) calls

end Frames

/-! ## Evaluation -/

/-- No part of evaluation does more to a scope than declare names in it. -/
def growingScope (table : StructTable) (limits : Limits) : Lockstep Exec Exec table limits where
  rel x _ := Moves Grown x
  answer := moves_pure
  sequence := moves_bind
  step elementary := elementary.keepsSetting.grown
  check result _ _ h := by
    cases result with
    | ok a => exact fun machine => h a rfl machine
    | error fault => exact fun machine => .refl machine
  declare := grown_declareVariable table
  bindFunction := grown_declareFunction
  part _ h := h
  inFrame h machine := (scopeKept_inBlock h machine).toGrown
  asCall h machine := (scopeKept_asCall h machine).toGrown

/-- A call gives its caller the scope back. -/
theorem scopeKept_callWithin (env : Env) (left : Nat) (function : FunctionDef)
    (arguments : List Value) :
    Moves ScopeKept (callWithin env left function arguments : Exec Value) := by
  have checked {α : Type} (result : Except Fault α) : Moves ScopeKept (Exec.of result) :=
    (Exec.keepsSetting_of result).scopeKept
  unfold callWithin
  refine moves_bind (checked _) fun body => moves_bind (checked _) fun params => ?_
  cases left with
  | zero => exact checked _
  | succ left =>
    refine moves_bind (Exec.keepsSetting_ask _).scopeKept fun line => ?_
    have calls := (growingScope env.structs env.limits).callWithin left
    have inside : Moves Grown
        (storeParams env params >>= fun _ => Stmt.execAllWith env (callWithin env left) body) :=
      Congruence.callBody calls params body
    refine moves_bind (scopeKept_asCall inside) fun flow => ?_
    exact moves_bind (Exec.keepsSetting_setLine line).scopeKept fun _ => checked _

/-- The rules of expressions keep the scope. -/
def keepingScope (table : StructTable) (limits : Limits) :
    EvalCongruence Exec Exec table limits limits where
  rel _ x _ := Moves ScopeKept x
  known _ := True
  weaken h _ := h
  answer := moves_pure
  sequence := moves_bind
  step primitive := primitive.keepsSetting.scopeKept
  lookup _ _ _ h :=
    moves_bind (Exec.keepsSetting_ask _).scopeKept fun callee => h callee trivial
  part _ _ h := h

/-- The rules of loops keep the scope. -/
def keepingScopeInLoops (limits : Limits) : LoopRules Exec Exec limits where
  rel x _ := Moves ScopeKept x
  answer := moves_pure
  sequence := moves_bind
  start count := (Loop.keepsSetting_start limits count).scopeKept
  part _ _ h := h

section Loops

variable {limits : Limits} {test : Exec Bool} {body : Exec Flow} {after : Exec Unit}

theorem scopeKept_whileTrue (tested : Moves ScopeKept test) (running : Moves ScopeKept body)
    (stepped : Moves ScopeKept after) :
    Moves ScopeKept (Loop.whileTrue limits test body after) := by
  have kept : (keepingScopeInLoops limits).rel (Loop.whileTrue limits test body after)
      (Loop.whileTrue limits test body after) :=
    (keepingScopeInLoops limits).whileTrue tested running stepped
  exact kept

theorem scopeKept_afterFirst (tested : Moves ScopeKept test) (running : Moves ScopeKept body) :
    Moves ScopeKept (Loop.afterFirst limits test body) := by
  have kept : (keepingScopeInLoops limits).rel (Loop.afterFirst limits test body)
      (Loop.afterFirst limits test body) :=
    (keepingScopeInLoops limits).afterFirst tested running
  exact kept

end Loops

section Trees

variable (env : Env) (left : Nat)

theorem scope_calls : (keepingScope env.structs env.limits).CallsRelated 0 (callWithin env left)
    (callWithin env left) :=
  fun function arguments _ => scopeKept_callWithin env left function arguments

/-- An expression keeps the scope. -/
theorem scopeKept_evalWith (expr : Expr) :
    Moves ScopeKept (expr.evalWith env (callWithin env left) : Exec Value) :=
  EvalCongruence.eval (scope_calls env left) expr

theorem scopeKept_testWith (test : Expr) :
    Moves ScopeKept (test.testWith env (callWithin env left) : Exec Bool) :=
  EvalCongruence.test (scope_calls env left) test

/-- Statements in a block keep the scope that the block stands in. -/
theorem scopeKept_block (body : List Stmt) :
    Moves ScopeKept
      (Runner.inBlock (Stmt.execAllWith env (callWithin env left) body) : Exec Flow) := by
  have calls := (growingScope env.structs env.limits).callWithin left
  have inside : Moves Grown (Stmt.execAllWith env (callWithin env left) body : Exec Flow) :=
    Congruence.execAll calls body
  exact scopeKept_inBlock inside

/-- A loop with a first statement stands in a frame with it. -/
theorem scopeKept_for (init : Option Stmt) (test after : Option Expr) (body : List Stmt) :
    Moves ScopeKept (Runner.inBlock (do
      Stmt.execInitWith env (callWithin env left) init
      Loop.whileTrue env.limits (testOrTrue env (callWithin env left) test)
        (Runner.inBlock (Stmt.execAllWith env (callWithin env left) body))
        (evalOptional env (callWithin env left) after)) : Exec Flow) := by
  have calls := (growingScope env.structs env.limits).callWithin left
  refine scopeKept_inBlock (moves_bind ?_ fun _ => ?_)
  · exact Congruence.execInit calls init
  · have tested := EvalCongruence.testOrTrue calls test
    have running := Congruence.inBlock (Congruence.execAll calls body)
    exact (growingScope env.structs env.limits).congruence.whileTrue tested running
      (EvalCongruence.evalOptional calls after)

/-- A statement that is no declaration keeps the scope. -/
theorem scopeKept_execWith (stmt : Stmt)
    (other : ∀ line name type init, stmt ≠ .declare line name type init) :
    Moves ScopeKept (stmt.execWith env (callWithin env left) : Exec Flow) := by
  have eval := scopeKept_evalWith env left
  unfold Stmt.execWith
  refine moves_bind (Exec.keepsSetting_setLine stmt.line).scopeKept fun _ => ?_
  cases stmt with
  | declare line name type init => exact absurd rfl (other line name type init)
  | expression line expr => exact moves_bind (eval expr) fun _ => moves_pure _
  | block line body => exact scopeKept_block env left body
  | ifElse line test whenTrue whenFalse =>
    refine moves_bind (scopeKept_testWith env left test) fun holds => ?_
    cases holds with
    | true => exact scopeKept_block env left whenTrue
    | false => exact scopeKept_block env left whenFalse
  | whileLoop line test body =>
    exact scopeKept_whileTrue (scopeKept_testWith env left test) (scopeKept_block env left body)
      (moves_pure ())
  | doLoop line body test =>
    exact scopeKept_afterFirst (scopeKept_testWith env left test) (scopeKept_block env left body)
  | forLoop line init test after body => exact scopeKept_for env left init test after body
  | returnValue line value =>
    refine moves_bind ?_ fun value => moves_pure _
    exact EvalCongruence.returnedValue (scope_calls env left) value
  | breakLoop line | continueLoop line => exact moves_pure _

theorem declares_declareWith (name : String) (type : CType) (init : Option Expr) :
    Moves (Declares name)
      (declareWith env (callWithin env left) name type init : Exec Unit) := by
  have declared (type : CType) := declares_declareVariable env.structs name type
  unfold declareWith
  cases textArray? type init with
  | some text =>
    refine moves_bind_trans (S := ScopeKept) (declared _) fun slot => ?_
    refine moves_bind (Exec.keepsSetting_of _).scopeKept fun bytes => ?_
    cases slot.address with
    | none => exact moves_pure ()
    | some address =>
      exact (Exec.keepsSetting_onImage (Image.keepsShape_write address bytes)).scopeKept
  | none =>
    cases init with
    | none => exact moves_bind_trans (S := ScopeKept) (declared type) fun _ => moves_pure ()
    | some init =>
      have evaluated := scopeKept_evalWith env left init
      refine moves_bind_trans (S := Declares name) evaluated fun value => ?_
      refine moves_bind_trans (S := ScopeKept) (declared type) fun slot => ?_
      refine moves_bind ?_ fun _ => moves_pure ()
      exact (Primitive.assign .plain slot value).keepsSetting.scopeKept

/-- A declaration adds its name to the scope, or no name. -/
theorem declares_execWith (line : Nat) (name : String) (type : CType) (init : Option Expr) :
    Moves (Declares name)
      ((Stmt.declare line name type init).execWith env (callWithin env left) : Exec Flow) := by
  unfold Stmt.execWith
  have moved := (Exec.keepsSetting_setLine line).scopeKept
  refine moves_bind_trans (S := Declares name) moved fun _ => ?_
  exact moves_bind_trans (S := ScopeKept) (declares_declareWith env left name type init)
    fun _ => moves_pure _

end Trees

/-- What is run with the calls that are left is run from the same state. -/
theorem moves_withCalls {α : Type} {R : Machine → Machine → Prop} {env : Env}
    {inside : UserCall Exec → Exec α} (h : ∀ left, Moves R (inside (callWithin env left))) :
    Moves R (withCalls env inside) :=
  fun machine => h (machine.callsLeft env) machine

/-- **Evaluation leaves the scope as it found it.**  Whether it succeeds or fails, an expression
leaves the names of the scope and their order, its base and its depth, all that is around it and the
count of open calls as they were; the cursor of the stack is back where it was if the stack is
reclaimed, and not below it otherwise.  So does every statement but a declaration, which adds at
most the name that it declares. -/
theorem evaluation_keeps_scope (env : Env) (machine : Machine) :
    (∀ expr : Expr, machine.ScopeKept (left ((expr.eval env : Exec Value) machine))) ∧
      (∀ stmt : Stmt, (∀ line name type init, stmt ≠ .declare line name type init) →
        machine.ScopeKept (left ((stmt.exec env : Exec Flow) machine))) ∧
      ∀ line name type init, machine.Declares name
        (left (((Stmt.declare line name type init).exec env : Exec Flow) machine)) := by
  refine ⟨fun expr => ?_, fun stmt other => ?_, fun line name type init => ?_⟩
  · exact moves_withCalls (fun left => scopeKept_evalWith env left expr) machine
  · exact moves_withCalls (fun left => scopeKept_execWith env left stmt other) machine
  · exact moves_withCalls (fun left => declares_execWith env left line name type init) machine

/-- A machine that knows a function which divides by its argument. -/
def dividing : Machine :=
  let machine := Machine.start (.blank ⟨4, 16, 64, .reclaim⟩) (.start [])
  let divide : FunctionDef :=
    ⟨"f", .int, [⟨"n", .int⟩],
      some [.declare 1 "q" .int (some (.binary .div (.number (.ofNat 1)) (.var "n"))),
        .returnValue 2 (some (.var "q"))], 1⟩
  let bindings : Bindings := [("f", ⟨.function, .function (.user divide)⟩)]
  { machine with
    frame := { machine.frame with scope := { machine.frame.scope with bindings := bindings } } }

/-- A loop that calls the function in its test, first with one and then with zero. -/
def countdown : Stmt :=
  .forLoop 3 (some (.declare 3 "i" .int (some (.number (.ofNat 1)))))
    (some (.call "f" [.var "i"])) (some (.unary .preDec (.var "i")))
    [.declare 4 "x" .int (some (.var "i"))]

/-- The loop is left by a fault inside a call inside its second test, and still neither a name nor a
byte of the stack is left behind. -/
theorem countdown_keeps_scope :
    (match (countdown.exec ⟨.empty, {}⟩ : Exec Flow) dividing with
      | .ok _ _ => false
      | .error fault machine => decide (fault = .arithmetic .divisionByZero) &&
          machine.console.line == 1) = true ∧
      (left ((countdown.exec ⟨.empty, {}⟩ : Exec Flow) dividing)).frame.scope.top =
        dividing.frame.scope.top := by
  obtain ⟨-, statements, -⟩ := evaluation_keeps_scope ⟨.empty, {}⟩ dividing
  exact ⟨by decide +kernel, (statements countdown nofun).reclaimed rfl⟩

end FlatC

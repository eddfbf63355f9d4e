import FlatC.Proofs.Eval.Parallel
import FlatC.Proofs.Eval.ScopeKept

/-!
# A loop with a first statement as a plain loop

A loop with a first statement, a test and a last expression can be written as a block with the first
statement and a plain loop, which runs the body in a block of its own and then the last expression.
The body then stands in one scope more, and the last expression in one that the loop did not have.
Both scopes are empty, so nothing but the line can tell the difference.

* `Stmt.anyContinues` says whether a body may go on with the next iteration before its end, which
  would skip the last expression of the plain loop but not that of the other;
* `Stmt.forAsWhile` is the plain loop;
* `for_loop_is_its_while_loop` says that both do the same.
-/

namespace FlatC

open Step

/-! ## Bodies that run to their end -/

mutual

/-- Whether the statement may go on with the next iteration of the loop around it. -/
def Stmt.continues : Stmt → Bool
  | .continueLoop _ => true
  | .block _ body => Stmt.anyContinues body
  | .ifElse _ _ whenTrue whenFalse => Stmt.anyContinues whenTrue || Stmt.anyContinues whenFalse
  | .declare .. | .expression .. | .whileLoop .. | .doLoop .. | .forLoop .. | .returnValue ..
  | .breakLoop _ => false

/-- Whether one of the statements may. -/
def Stmt.anyContinues : List Stmt → Bool
  | [] => false
  | stmt :: rest => stmt.continues || Stmt.anyContinues rest

end

section Flows

variable {env : Env} {user : UserCall Exec}

/-- A step between two changes of the machine answers what it answers without them. -/
theorem yields_between {α : Type} {P : α → Prop} {x : Exec α} (before after : Machine → Machine)
    (h : Yields P x) : Yields P (Runner.between before after x) := by
  intro machine a machine' ended
  simp only [Runner.between] at ended
  cases inside : x (before machine) with
  | ok b left =>
    rw [inside] at ended
    cases ended
    exact h _ _ _ inside
  | error fault left =>
    rw [inside] at ended
    cases ended

theorem yields_inBlock {α : Type} {P : α → Prop} {x : Exec α} (h : Yields P x) :
    Yields P (Runner.inBlock x) :=
  yields_between _ _ h

/-- A loop ends at its end or by leaving the function. -/
theorem yields_repeatWhile (limits : Limits) (test : Exec Bool) (body : Exec Flow)
    (after : Exec Unit) (left : Nat) :
    Yields (· ≠ .continuing) (Loop.repeatWhile limits test body after left) := by
  have ended : Yields (· ≠ .continuing) (pure .normal : Exec Flow) := yields_pure nofun
  induction left with
  | zero =>
    refine yields_bind fun more => ?_
    cases more with
    | false => exact ended
    | true => exact yields_bind fun _ => ended
  | succ left ih =>
    refine yields_bind fun more => ?_
    cases more with
    | false => exact ended
    | true =>
      refine yields_bind fun _ => yields_bind fun flow => ?_
      cases flow with
      | normal | continuing => exact yields_bind fun _ => ih
      | breaking => exact ended
      | returning value => exact yields_pure nofun

theorem yields_whileTrue (limits : Limits) (test : Exec Bool) (body : Exec Flow)
    (after : Exec Unit) :
    Yields (· ≠ .continuing) (Loop.whileTrue limits test body after) :=
  yields_repeatWhile limits test body after limits.loopLimit

theorem yields_afterFirst (limits : Limits) (test : Exec Bool) (body : Exec Flow) :
    Yields (· ≠ .continuing) (Loop.afterFirst limits test body) := by
  refine yields_bind fun _ => yields_bind fun flow => ?_
  cases flow with
  | normal | continuing => exact yields_repeatWhile _ _ _ _ _
  | breaking | returning value => exact yields_pure nofun

mutual

/-- A statement goes on with the next iteration only if it says so. -/
theorem yields_execWith : ∀ stmt : Stmt, stmt.continues = false →
    Yields (· ≠ .continuing) (stmt.execWith env user : Exec Flow)
  | .declare line name type init, _ =>
    yields_bind fun _ => yields_bind fun _ => yields_pure nofun
  | .expression line expr, _ => yields_bind fun _ => yields_bind fun _ => yields_pure nofun
  | .block line body, clear => yields_bind fun _ => yields_inBlock (yields_execAllWith body clear)
  | .ifElse line test whenTrue whenFalse, clear => by
    obtain ⟨yes, no⟩ := Bool.or_eq_false_iff.mp clear
    refine yields_bind fun _ => yields_bind fun holds => ?_
    cases holds with
    | true => exact yields_inBlock (yields_execAllWith whenTrue yes)
    | false => exact yields_inBlock (yields_execAllWith whenFalse no)
  | .whileLoop line test body, _ => yields_bind fun _ => yields_whileTrue _ _ _ _
  | .doLoop line body test, _ => yields_bind fun _ => yields_afterFirst _ _ _
  | .forLoop line init test after body, _ =>
    yields_bind fun _ => yields_inBlock (yields_bind fun _ => yields_whileTrue _ _ _ _)
  | .returnValue line value, _ => yields_bind fun _ => yields_bind fun _ => yields_pure nofun
  | .breakLoop line, _ => yields_bind fun _ => yields_pure nofun

theorem yields_execAllWith : ∀ body : List Stmt, Stmt.anyContinues body = false →
    Yields (· ≠ .continuing) (Stmt.execAllWith env user body : Exec Flow)
  | [], _ => yields_pure nofun
  | stmt :: rest, clear => by
    obtain ⟨first, others⟩ := Bool.or_eq_false_iff.mp clear
    refine yields_sequence (yields_execWith stmt first) fun flow other => ?_
    cases flow with
    | normal => exact yields_execAllWith rest others
    | breaking | returning _ => exact yields_pure nofun
    | continuing => exact absurd rfl other

end

/-- A declaration or an expression statement. -/
def Stmt.isSimple : Stmt → Bool
  | .declare .. | .expression .. => true
  | _ => false

theorem yields_simple {stmt : Stmt} (simple : stmt.isSimple = true) :
    Yields (· = .normal) (stmt.execWith env user : Exec Flow) := by
  unfold Stmt.execWith
  refine yields_bind fun _ => ?_
  cases stmt with
  | declare _ _ _ _ | expression _ _ => exact yields_bind fun _ => yields_pure rfl
  | _ => cases simple

end Flows

/-! ## Frames of the two loops -/

namespace Frame

/-- The frames are the same, with at least `depth` scopes around the innermost. -/
def Within (depth : Nat) (frame frame' : Frame) : Prop :=
  frame' = frame ∧ depth ≤ frame.scope.depth

theorem declaring_within (depth : Nat) : Declaring (Within depth) where
  top := by
    rintro frame _ ⟨rfl, -⟩
    rfl
  names := by
    rintro frame _ ⟨rfl, -⟩ name
    rfl
  program := by
    rintro frame _ ⟨rfl, -⟩
    rfl
  withTop := by
    rintro frame _ ⟨rfl, deep⟩ top
    exact ⟨rfl, deep⟩
  bindings := by
    rintro frame _ ⟨rfl, -⟩
    rfl
  base := by
    rintro frame _ ⟨rfl, -⟩
    rfl
  bindSlot := by
    rintro frame _ ⟨rfl, deep⟩ name type address size
    exact ⟨rfl, deep⟩
  block := by
    rintro frame _ ⟨rfl, deep⟩
    exact ⟨rfl, Nat.le_succ_of_le deep⟩

/-- The first frame is a given one, and the second an empty block in it, with the same cursor. -/
def Around (outside frame frame' : Frame) : Prop :=
  ∃ top, frame = outside.withTop top ∧ frame' = outside.block.withTop top

theorem seeing_around {outside : Frame} (inner : 1 < outside.scope.depth) :
    Seeing (Around outside) where
  top := by
    rintro _ _ ⟨top, rfl, rfl⟩
    rfl
  names := by
    rintro _ _ ⟨top, rfl, rfl⟩ name
    rfl
  program := by
    rintro _ _ ⟨top, rfl, rfl⟩
    have deeper : 1 < (outside.block.withTop top).scope.depth := Nat.lt_succ_of_lt inner
    have around : programPart outside.scopes = programPart outside.outer :=
      programScopes_of_inner inner
    have moved : (outside.withTop top).programScopes = programPart outside.outer :=
      programScopes_of_inner inner
    rw [programScopes_of_inner deeper, moved]
    exact around
  withTop := by
    rintro _ _ ⟨top, rfl, rfl⟩ top'
    exact ⟨top', rfl, rfl⟩

/-- A block in each of the two is the same but for the scopes around it. -/
theorem Around.block {outside frame frame' : Frame} (inner : 1 < outside.scope.depth)
    (h : Around outside frame frame') : Padded frame.block frame'.block := by
  have seeing := seeing_around inner
  have seen := And.intro (seeing.names h) (seeing.program h)
  obtain ⟨top, rfl, rfl⟩ := h
  exact padded_block (Nat.lt_of_succ_lt inner) (Nat.succ_pos _) rfl seen.1 seen.2

end Frame

/-! ## One iteration -/

/-- What follows a body that has ended by a flow: a step, if it has come to its end. -/
def Flow.thenStep (after : Exec Unit) : Flow → Exec Flow
  | .normal => after >>= fun _ => pure .normal
  | flow => pure flow

/-- A step after each iteration may be taken as part of it, if no body goes on with the next
iteration before its end. -/
theorem repeatWhile_thenStep (limits : Limits) (test : Exec Bool) {body : Exec Flow}
    (after : Exec Unit) (yields : Yields (· ≠ .continuing) body) (left : Nat) :
    Loop.repeatWhile limits test body after left =
      Loop.repeatWhile limits test (body >>= Flow.thenStep after) (pure ()) left := by
  induction left with
  | zero => rfl
  | succ left ih =>
    refine congrArg (test >>= ·) (funext fun more => ?_)
    cases more with
    | false => rfl
    | true =>
      refine congrArg (Loop.start limits (left + 1) >>= ·) (funext fun _ => ?_)
      show (body >>= fun flow => _) = ((body >>= Flow.thenStep after) >>= fun flow => _)
      rw [bind_assoc]
      refine bind_congr_of_yields yields fun flow other => ?_
      cases flow with
      | normal =>
        show (after >>= fun _ => Loop.repeatWhile limits test body after left) = _
        rw [ih]
        simp only [Flow.thenStep, bind_assoc, pure_bind, Loop.proceed]
      | breaking | returning _ => rfl
      | continuing => exact absurd rfl other

theorem whileTrue_thenStep (limits : Limits) (test : Exec Bool) {body : Exec Flow}
    (after : Exec Unit) (yields : Yields (· ≠ .continuing) body) :
    Loop.whileTrue limits test body after =
      Loop.whileTrue limits test (body >>= Flow.thenStep after) (pure ()) :=
  repeatWhile_thenStep limits test after yields limits.loopLimit

section Bodies

variable (env : Env) (left : Nat)

/-- One statement alone ends as it does by itself. -/
theorem execAllWith_singleton (user : UserCall Exec) (stmt : Stmt) :
    (Stmt.execAllWith env user [stmt] : Exec Flow) = stmt.execWith env user := by
  refine Eq.trans ?_ (bind_pure (stmt.execWith env user))
  refine congrArg (stmt.execWith env user >>= ·) (funext fun flow => ?_)
  cases flow <;> rfl

/-- The body of the plain loop: the body of the other in a block, and then its last expression. -/
def Stmt.plainBody (inner step : Nat) (after : Option Expr) (body : List Stmt) : List Stmt :=
  .block inner body :: (after.map (Stmt.expression step)).toList

/-- Inside its block, the plain loop runs the body and the last expression as the other does outside
of it. -/
theorem parallel_plainBody {outside : Frame} (deep : 1 < outside.scope.depth) (inner step : Nat)
    (after : Option Expr) (body : List Stmt) :
    Parallel (Frame.Around outside)
      (Runner.inBlock (Stmt.execAllWith env (callWithin env left) body) >>=
        Flow.thenStep (evalOptional env (callWithin env left) after))
      (Stmt.execAllWith env (callWithin env left) (Stmt.plainBody inner step after body)) := by
  have seeing := Frame.seeing_around deep
  have inside : Parallel Frame.Padded (Stmt.execAllWith env (callWithin env left) body)
      (Stmt.execAllWith env (callWithin env left) body) :=
    Congruence.execAll (parallel_calls env left Frame.declaring_padded) body
  have block := parallel_inFrame Frame.declaring_padded seeing (Frame.Around.block deep) inside
  have lined openers openers' := follows_setLine_then inner (block openers openers')
  refine parallel_bind lined fun flow => ?_
  cases flow with
  | breaking | continuing | returning _ => exact parallel_pure _
  | normal =>
    cases after with
    | none => exact parallel_pure _
    | some expr =>
      have evaluated : Parallel (Frame.Around outside)
          (expr.evalWith env (callWithin env left) : Exec Value)
          (expr.evalWith env (callWithin env left)) :=
        EvalCongruence.eval (parallel_evalCalls env left seeing) expr
      have ends := parallel_bind evaluated fun _ => parallel_pure Flow.normal
      have stepped openers openers' := follows_setLine_then step (ends openers openers')
      simp only [Flow.thenStep, evalOptional, bind_assoc, pure_bind]
      show Parallel _ _ (Stmt.execAllWith env (callWithin env left) [.expression step expr])
      rw [execAllWith_singleton]
      exact stepped

end Bodies

/-! ## The two loops -/

/-- From machines that are the same but for their lines, two steps end alike. -/
def Together {α : Type} (depth : Nat) (x y : Exec α) : Prop :=
  ∀ openers, Follows (Machine.Parallel (Frame.Within depth) openers openers) (fun _ => True) x y

section Together

variable {α β : Type} {depth : Nat} {x y : Exec α} {f g : α → Exec β}

theorem Parallel.together (h : Parallel (Frame.Within depth) x y) : Together depth x y :=
  fun openers => h openers openers

theorem together_bind (first : Together depth x y) (next : ∀ a, Together depth (f a) (g a)) :
    Together depth (x >>= f) (y >>= g) :=
  fun openers => follows_bind (first openers) fun a => next a openers

theorem together_inBlock (h : Together (depth + 1) x y) :
    Together depth (Runner.inBlock x) (Runner.inBlock y) := by
  rintro openers _ _ ⟨image, _, frame, _, _, console, line, rfl, deep⟩
  have within : Frame.Within (depth + 1) frame.block frame.block := ⟨rfl, Nat.succ_le_succ deep⟩
  have entered := Machine.Parallel.mk image frame.block frame.block (frame :: openers)
    (frame :: openers) console line within
  refine followed_between (fun inside => ?_) (h (frame :: openers) _ _ entered)
  exact inside.close (Frame.declaring_within (depth + 1))
    (Frame.declaring_within depth).toSeeing ⟨rfl, deep⟩

/-- The block of the plain loop gives back the cursor that the other loop goes on from. -/
theorem Machine.Parallel.leave {before machine machine' : Machine} {openers : List Frame}
    (deep : depth ≤ before.frame.scope.depth) (kept : before.ScopeKept machine)
    (parallel : Parallel (Frame.Around before.frame) openers (before.frame :: openers)
      machine machine') :
    Parallel (Frame.Within depth) openers openers machine machine'.close := by
  obtain ⟨image, _, _, _, _, console, line, top, rfl, rfl⟩ := parallel
  have same : image.policy = before.image.policy := congrArg Shape.policy kept.shape
  have cursor : (before.frame.block.withTop top).cursorAfter image.policy = top := by
    cases policy : image.policy with
    -- the other loop closes no frame here, but has already given back all that it took
    | reclaim => exact (kept.reclaimed (same.symm.trans policy)).symm
    | growOnly => rfl
  simp only [Machine.close, cursor]
  exact .mk image _ _ openers openers console line ⟨rfl, deep⟩

/-- A step that keeps the scope ends like one that does the same inside a block. -/
theorem together_around (kept : Moves Machine.ScopeKept x)
    (h : ∀ {outside : Frame}, 1 < outside.scope.depth → Parallel (Frame.Around outside) x y) :
    Together 2 x (Runner.inBlock y) := by
  rintro openers _ _ ⟨image, _, frame, _, _, console, line, rfl, deep⟩
  have around : Frame.Around frame frame frame.block := ⟨frame.scope.top, rfl, rfl⟩
  have run := h deep _ _ _ _
    (.mk image frame frame.block openers (frame :: openers) console line around)
  have kept := kept ⟨image, frame, openers, console⟩
  simp only [Runner.inBlock, Runner.part, Runner.inFrame, Runner.between, Machine.enter]
  generalize x _ = ended, y _ = ended' at run kept
  cases run with
  | ok a parallel => exact .ok a (parallel.leave deep kept)
  | error fault parallel => exact .error fault (parallel.leave deep kept)
  | unseen _ unseen => exact .unseen _ unseen

/-- The rules of loops. -/
def loopingTogether (depth : Nat) (limits : Limits) : LoopRules Exec Exec limits where
  rel := Together depth
  answer a := (parallel_pure a).together
  sequence := together_bind
  start count := (parallel_start limits count).together
  part _ _ h := h

end Together

section Loops

variable (env : Env) (left : Nat)

theorem scopeKept_thenStep (after : Option Expr) (flow : Flow) :
    Moves Machine.ScopeKept
      (flow.thenStep (evalOptional env (callWithin env left) after)) := by
  have stepped : Moves Machine.ScopeKept (evalOptional env (callWithin env left) after) :=
    EvalCongruence.evalOptional (scope_calls env left) after
  cases flow with
  | normal => exact moves_bind stepped fun _ => moves_pure _
  | breaking | continuing | returning _ => exact moves_pure _

/-- An iteration of the plain loop does what the other does in one, and after it. -/
theorem together_iteration (inner step : Nat) (after : Option Expr) (body : List Stmt) :
    Together 2
      (Runner.inBlock (Stmt.execAllWith env (callWithin env left) body) >>=
        Flow.thenStep (evalOptional env (callWithin env left) after))
      (Runner.inBlock
        (Stmt.execAllWith env (callWithin env left) (Stmt.plainBody inner step after body))) := by
  have kept := moves_bind (scopeKept_block env left body) (scopeKept_thenStep env left after)
  exact together_around kept fun deep => parallel_plainBody env left deep inner step after body

/-- The number one is a test that holds. -/
theorem testWith_one (user : UserCall Exec) :
    ((Expr.number .one).testWith env user : Exec Bool) = pure true := by
  have holds : (Value.literal .one).condition = .ok true := by
    have scalar : (Value.literal .one).type.isScalar = true := by decide +kernel
    have nonzero : (Value.literal .one).isTrue = true := by decide +kernel
    rw [Value.condition, if_pos scalar, nonzero]
  have evaluated : ((Expr.number .one).evalWith env user : Exec Value) = pure (.literal .one) := rfl
  rw [Expr.testWith, evaluated, pure_bind, holds]
  rfl

/-- A missing test is the number one. -/
theorem together_test (depth : Nat) (test : Option Expr) :
    Together depth (testOrTrue env (callWithin env left) test)
      ((test.getD (.number .one)).testWith env (callWithin env left)) := by
  have calls := parallel_calls env left (Frame.declaring_within depth)
  cases test with
  | none =>
    rw [Option.getD_none, testWith_one]
    exact (parallel_pure true).together
  | some test => exact Parallel.together (EvalCongruence.test calls test)

/-- The loops repeat alike. -/
theorem together_loop (loop inner step : Nat) (test after : Option Expr) (body : List Stmt)
    (clear : Stmt.anyContinues body = false) :
    Together 2
      (Loop.whileTrue env.limits (testOrTrue env (callWithin env left) test)
        (Runner.inBlock (Stmt.execAllWith env (callWithin env left) body))
        (evalOptional env (callWithin env left) after))
      ((Stmt.whileLoop loop (test.getD (.number .one))
        (Stmt.plainBody inner step after body)).execWith env (callWithin env left)) := by
  rw [whileTrue_thenStep _ _ _ (yields_inBlock (yields_execAllWith body clear))]
  intro openers
  refine follows_setLine_then loop ?_
  exact (loopingTogether 2 env.limits).whileTrue (together_test env left 2 test)
    (together_iteration env left inner step after body) (parallel_pure ()).together openers

/-- A first statement that ends normally may stand before the others. -/
theorem execAllWith_init (user : UserCall Exec) {init : Option Stmt}
    (simple : ∀ stmt ∈ init, stmt.isSimple = true) (rest : List Stmt) :
    (Stmt.execAllWith env user (init.toList ++ rest) : Exec Flow) =
      (Stmt.execInitWith env user init >>= fun _ => Stmt.execAllWith env user rest) := by
  cases init with
  | none => rfl
  | some init =>
    show _ = (init.execWith env user >>= fun _ => pure ()) >>= _
    rw [bind_assoc]
    refine bind_congr_of_yields (yields_simple (simple init rfl)) ?_
    rintro _ rfl
    rfl

/-- The plain loop, behind the first statement in a block.  The lines of a statement are where it
stands in the text, so all of them may be chosen. -/
def Stmt.forAsWhile (outer loop inner step : Nat) (init : Option Stmt) (test after : Option Expr)
    (body : List Stmt) : Stmt :=
  .block outer
    (init.toList ++
      [.whileLoop loop (test.getD (.number .one)) (Stmt.plainBody inner step after body)])

theorem together_forLoop (line outer loop inner step : Nat) {init : Option Stmt}
    (test after : Option Expr) {body : List Stmt} (simple : ∀ stmt ∈ init, stmt.isSimple = true)
    (clear : Stmt.anyContinues body = false) :
    Together 1
      ((Stmt.forLoop line init test after body).execWith env (callWithin env left))
      ((Stmt.forAsWhile outer loop inner step init test after body).execWith env
        (callWithin env left)) := by
  have calls := parallel_calls env left (Frame.declaring_within 2)
  have first := Congruence.execInit calls init
  have loops := together_loop env left loop inner step test after body clear
  refine together_bind (parallel_setLine line outer).together fun _ => together_inBlock ?_
  rw [execAllWith_init env _ simple, execAllWith_singleton]
  exact together_bind (Parallel.together first) fun _ => loops

end Loops

/-- The machine, whatever line its console is on. -/
def Machine.unlined (machine : Machine) : Machine :=
  machine.onConsole (·.setLine 0)

theorem Machine.Parallel.unlined {depth : Nat} {openers : List Frame} {machine machine' : Machine}
    (parallel : Parallel (Frame.Within depth) openers openers machine machine') :
    machine.unlined = machine'.unlined := by
  obtain ⟨image, _, frame, _, _, console, line, rfl, -⟩ := parallel
  rfl

/-- **A loop with a first statement is a plain loop in a block.**  Let the first statement be a
declaration or an expression, if there is one, and let the body not go on with the next iteration
before its end.  Then the loop and the block end with the same flow or the same fault, and leave the
same memory, frames, output, input and counts behind.  Only the line may differ.  This holds under
both stack policies, in the frame of a function as in the scope of the program. -/
theorem for_loop_is_its_while_loop (env : Env) (machine : Machine)
    (line outer loop inner step : Nat) (init : Option Stmt) (test after : Option Expr)
    (body : List Stmt) (inside : 0 < machine.frame.scope.depth)
    (simple : ∀ stmt ∈ init, stmt.isSimple = true) (clear : Stmt.anyContinues body = false) :
    viewed Machine.unlined
        (((Stmt.forLoop line init test after body).exec env : Exec Flow) machine) =
      viewed Machine.unlined
        (((Stmt.forAsWhile outer loop inner step init test after body).exec env : Exec Flow)
          machine) := by
  have within : Frame.Within 1 machine.frame machine.frame := ⟨rfl, inside⟩
  have run := together_forLoop env (machine.callsLeft env) line outer loop inner step test after
    simple clear machine.openers _ _
    (.mk machine.image machine.frame machine.frame machine.openers machine.openers machine.console
      machine.console.line within)
  exact run.viewed_eq Machine.Parallel.unlined

/-- A machine in the frame of a function, on a stack that only grows. -/
def growing : Machine :=
  let machine := Machine.start (.blank ⟨4, 16, 64, .growOnly⟩) (.start [])
  (machine.enter Frame.block).enter Frame.activation

/-- The body of a loop that is left in its second iteration. -/
def leftAtOne : List Stmt :=
  [.declare 2 "x" .int (some (.var "i")),
    .ifElse 3 (.binary .eq (.var "x") (.number .one)) [.breakLoop 4] []]

/-- The slots of the first statement and of both iterations stay on the stack. -/
theorem leftAtOne_is_its_while_loop :
    let init := some (Stmt.declare 1 "i" .int (some (.number .zero)))
    let test := some (Expr.binary .lt (.var "i") (.number (.ofNat 3)))
    let after := some (Expr.unary .preInc (.var "i"))
    let loop : Exec Flow := (Stmt.forLoop 1 init test after leftAtOne).exec ⟨.empty, {}⟩
    let plain : Exec Flow :=
      (Stmt.forAsWhile 5 6 7 8 init test after leftAtOne).exec ⟨.empty, {}⟩
    (left (loop growing)).console.iterations = 2 ∧
      (left (loop growing)).frame.scope.top = growing.frame.scope.top + 3 * 4 ∧
      viewed Machine.unlined (loop growing) = viewed Machine.unlined (plain growing) := by
  intro init test after loop plain
  have simple : ∀ stmt ∈ init, stmt.isSimple = true := by simp [init, Stmt.isSimple]
  exact ⟨by decide +kernel, by decide +kernel,
    for_loop_is_its_while_loop ⟨.empty, {}⟩ growing 1 5 6 7 8 init test after leftAtOne
      (by decide) simple (by decide)⟩

end FlatC

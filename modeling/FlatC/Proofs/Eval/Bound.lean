import FlatC.Proofs.Eval.Trace
import FlatC.Proofs.Scope.Functions
import Mathlib.Algebra.GroupWithZero.Nat
import Mathlib.Algebra.Order.BigOperators.Group.List
import Mathlib.Algebra.Order.Group.Nat

/-!
# Runs keep to their budgets

A run takes apart expressions, statements, blocks, loops and calls.  How many such parts it can
have is bounded by a number that is computed from the program and its budgets alone: a tree has at
most as many parts as its nodes give it, a loop repeats at most as often as its budget allows, and
a call may be as large as the bodies of all functions together, with one call less to go.

* `callWithin_eq_enterCall` says that the calls that are left are those that the console allows;
* `callParts` bounds the parts of a call;
* `Trace.Within` says that a record keeps to given bounds;
* `Traced.Bounded` is the invariant of evaluation, and `Traced.budgeted` says that all rules of
  evaluation keep it;
* `Program.watch_within` is the statement about runs, and `Traced.bounded_eval` and
  `Traced.bounded_exec` are those about expressions and statements.
-/

namespace FlatC

/-! ## Calls that are left -/

/-- One more open call leaves one call less. -/
theorem Machine.callsLeft_deepen (env : Env) (machine : Machine) :
    (machine.onConsole Console.deepen).callsLeft env = machine.callsLeft env - 1 :=
  Nat.sub_succ ..

/-- A call may be opened as long as there are calls left. -/
theorem Console.enterCall_eq (env : Env) (machine : Machine) :
    Console.enterCall env.limits machine.console =
      match machine.callsLeft env with
      | 0 => .error (.resource (.callDepth env.limits.maxCallDepth)) machine.console
      | _ + 1 => .ok () machine.console.deepen := by
  unfold enterCall Machine.callsLeft
  by_cases more : machine.console.callDepth < env.limits.maxCallDepth
  · obtain ⟨left, count⟩ := Nat.exists_eq_succ_of_ne_zero (Nat.sub_ne_zero_of_lt more)
    rw [if_pos more, count]
  · rw [if_neg more, Nat.sub_eq_zero_of_le (Nat.le_of_not_lt more)]

/-- What follows a known result starts from the same machine. -/
theorem Exec.of_bind_congr {α β : Type} (result : Except Fault α) {f g : α → Exec β}
    {machine : Machine} (same : ∀ a, f a machine = g a machine) :
    (Exec.of result >>= f) machine = (Exec.of result >>= g) machine := by
  cases result with
  | ok a => exact same a
  | error fault => rfl

theorem Runner.between_congr {α : Type} {before after : Machine → Machine} {x y : Exec α}
    {machine : Machine} (same : x (before machine) = y (before machine)) :
    between before after x machine = between before after y machine := by
  simp only [between, same]

open Step in
/-- **Calls are counted by the console.**  The number of calls that may still be opened, which a call
is given, is what the console allows: the call is opened by `Console.enterCall`, and its body is given
what the console allows then. -/
theorem callWithin_eq_enterCall (env : Env) (function : FunctionDef) (arguments : List Value)
    (machine : Machine) :
    (callWithin env (machine.callsLeft env) function arguments : Exec Value) machine =
      (do
        let body ← Exec.of function.definedBody
        let params ← Exec.of (function.bindArguments arguments)
        let line ← Exec.ask fun machine => .ok machine.console.line
        Exec.onConsole (Console.enterCall env.limits)
        let flow ← Runner.between id (Machine.onConsole Console.exitCall)
          (Runner.inFrame Frame.activation (withCalls env fun user => do
            storeParams env params
            Stmt.execAllWith env user body))
        Exec.setLine line
        Exec.of (function.result flow) : Exec Value) machine := by
  have opened := Console.enterCall_eq env machine
  have deeper := machine.callsLeft_deepen env
  cases count : machine.callsLeft env with
  | zero =>
    refine Exec.of_bind_congr _ fun body => Exec.of_bind_congr _ fun params => ?_
    have refused : Exec.onConsole (Console.enterCall env.limits) machine =
        .error (.resource (.callDepth env.limits.maxCallDepth)) machine := by
      rw [count] at opened
      simp only [Exec.onConsole, opened]
    show _ = (Exec.onConsole (Console.enterCall env.limits) >>= _) machine
    rw [bind_of_error refused]
    rfl
  | succ left =>
    refine Exec.of_bind_congr _ fun body => Exec.of_bind_congr _ fun params => ?_
    have entered : Exec.onConsole (Console.enterCall env.limits) machine =
        .ok () (machine.onConsole Console.deepen) := by
      rw [count] at opened
      simp only [Exec.onConsole, opened]
      rfl
    show _ = (Exec.onConsole (Console.enterCall env.limits) >>= _) machine
    rw [bind_of_ok entered]
    let inside (user : UserCall Exec) : Exec Flow := do
      storeParams env params
      Stmt.execAllWith env user body
    have counted : inside (callWithin env left)
        ((machine.onConsole Console.deepen).enter Frame.activation) =
          (withCalls env inside : Exec Flow)
            ((machine.onConsole Console.deepen).enter Frame.activation) := by
      show _ = inside (callWithin env ((machine.onConsole Console.deepen).callsLeft env)) _
      rw [deeper, count, Nat.add_sub_cancel]
    have called : Runner.asCall (inside (callWithin env left)) machine =
        Runner.between id (Machine.onConsole Console.exitCall)
          (Runner.inFrame Frame.activation (withCalls env inside : Exec Flow))
          (machine.onConsole Console.deepen) := by
      have framed : Runner.inFrame Frame.activation (inside (callWithin env left))
          (machine.onConsole Console.deepen) =
            Runner.inFrame Frame.activation (withCalls env inside : Exec Flow)
              (machine.onConsole Console.deepen) := Runner.between_congr counted
      exact Runner.between_congr framed
    exact bind_congr_at called

/-! ## Bounds -/

/-- A bound on the parts of the body of a function. -/
def FunctionDef.bodyParts (limit call : Nat) (function : FunctionDef) : Nat :=
  match function.body with
  | some body => Stmt.partsAll limit call body
  | none => 0

/-- A bound on the parts of a call of one of the functions when `left` calls may be opened. -/
def callParts (functions : List FunctionDef) (limit : Nat) : (left : Nat) → Nat
  | 0 => 1
  | left + 1 =>
    let call := callParts functions limit left
    (functions.map fun function => function.bodyParts limit call).sum + 2

/-- A bound on the parts of a call from a machine. -/
def Machine.callBound (env : Env) (machine : Machine) : Nat :=
  callParts machine.functions env.limits.loopLimit (machine.callsLeft env)

/-- The record has a bounded number of parts, loops that keep to `limit` iterations, and at most
`calls` calls open at once. -/
structure Trace.Within (limit calls parts : Nat) (t : Trace) : Prop where
  parts_le : t.parts ≤ parts
  loops : t.LoopsWithin limit
  calls_le : t.openCalls ≤ calls

/-- The body of one of the functions has at most the parts of all bodies. -/
theorem partsAll_le_sum {functions : List FunctionDef} {function : FunctionDef}
    (mem : function ∈ functions) {body : List Stmt} (found : function.body = some body)
    (limit call : Nat) :
    Stmt.partsAll limit call body ≤
      (functions.map fun function => function.bodyParts limit call).sum := by
  have size : function.bodyParts limit call = Stmt.partsAll limit call body := by
    rw [FunctionDef.bodyParts, found]
  rw [← size]
  exact List.le_sum_of_mem (List.mem_map_of_mem mem)

theorem Trace.Within.append {limit calls m n : Nat} {t later : Trace}
    (first : t.Within limit calls m) (second : later.Within limit calls n) :
    (t.append later).Within limit calls (m + n) := by
  have := first.parts_le
  have := second.parts_le
  have := first.calls_le
  have := second.calls_le
  refine ⟨?_, ?_, ?_⟩
  · rw [Trace.parts_append]
    omega
  · rw [Trace.loopsWithin_append]
    exact ⟨first.loops, second.loops⟩
  · rw [Trace.openCalls_append]
    omega

theorem Trace.Within.state {limit calls n : Nat} {t : Trace} (h : t.Within limit calls n)
    (machine : Machine) : (Trace.state machine t).Within limit calls n :=
  ⟨h.parts_le, h.loops, h.calls_le⟩

/-! ## The invariant -/

/-- The machine can call nothing but the given functions, and has `depth` calls open. -/
structure Machine.Ready (functions : List FunctionDef) (depth : Nat) (machine : Machine) :
    Prop where
  functions_subset : machine.functions ⊆ functions
  callDepth_eq : machine.console.callDepth = depth

theorem Machine.Ready.of_setting {functions : List FunctionDef} {depth : Nat}
    {machine machine' : Machine} (h : machine.Ready functions depth)
    (kept : machine'.setting = machine.setting) : machine'.Ready functions depth := by
  refine ⟨?_, ?_⟩
  · rw [functions_of_setting kept]
    exact h.functions_subset
  · exact (congrArg Setting.callDepth kept).trans h.callDepth_eq

theorem Machine.Ready.declareVariable {functions : List FunctionDef} {depth : Nat}
    {machine : Machine} (h : machine.Ready functions depth) (table : StructTable) (name : String)
    (type : CType) :
    (Step.left (Machine.declareVariable table name type machine)).Ready functions depth := by
  have subset := machine.functions_declareVariable table name type
  refine ⟨fun function mem => h.functions_subset (subset mem), ?_⟩
  rcases machine.declareVariable_cases table name type with
    ⟨fault, machine', run, kept⟩ | ⟨value, image, address, size, _, _, run⟩
  · rw [run]
    exact (congrArg Setting.callDepth kept).trans h.callDepth_eq
  · rw [run]
    exact h.callDepth_eq

theorem Machine.Ready.enter {functions : List FunctionDef} {depth : Nat} {machine : Machine}
    (h : machine.Ready functions depth) {opening : Frame → Frame}
    (subset : (opening machine.frame).functions ⊆ machine.frame.functions) :
    (machine.enter opening).Ready functions depth :=
  ⟨fun _ mem => h.functions_subset (functions_enter subset mem), h.callDepth_eq⟩

theorem Machine.Ready.close {functions : List FunctionDef} {depth : Nat} {machine : Machine}
    (h : machine.Ready functions depth) : machine.close.Ready functions depth := by
  refine ⟨fun _ mem => h.functions_subset (functions_close mem), ?_⟩
  rw [close_console]
  exact h.callDepth_eq

theorem Machine.Ready.declareFunction {functions : List FunctionDef} {depth : Nat}
    {machine : Machine} (h : machine.Ready functions depth) (name : String) {callee : Callee}
    (known : ∀ function, callee = .user function → function ∈ functions) :
    (Step.left (Machine.declareFunction name callee machine)).Ready functions depth := by
  refine ⟨fun function mem => ?_, ?_⟩
  · rcases functions_declareFunction mem with old | new
    · exact h.functions_subset old
    · exact known function new
  · rcases machine.declareFunction_cases name callee with ⟨fault, run⟩ | ⟨bindings, _, run⟩
    · rw [run]
      exact h.callDepth_eq
    · rw [run]
      exact h.callDepth_eq

namespace Traced

open Step

variable {α β : Type} {functions : List FunctionDef} {limit depth calls : Nat}

/-- Evaluation of something with `depth` calls open, when at most `calls` may be opened: from every
machine that is ready the record keeps to its bounds, and the machine is ready again.  The
iterations are those outside all loops of the record. -/
def Bounded (functions : List FunctionDef) (limit depth calls iterations parts : Nat)
    (x : Traced α) : Prop :=
  ∀ machine, machine.Ready functions depth →
    (x machine).1.Within limit calls parts ∧ (x machine).1.iterations ≤ iterations ∧
      (left (x machine).2).Ready functions depth

namespace Bounded

variable {i j m n : Nat} {x : Traced α} {f : α → Traced β}

theorem weaken (h : Bounded functions limit depth calls i m x) (le : i ≤ j) (le' : m ≤ n) :
    Bounded functions limit depth calls j n x := by
  intro machine ready
  obtain ⟨within, few, ready'⟩ := h machine ready
  exact ⟨⟨Nat.le_trans within.parts_le le', within.loops, within.calls_le⟩,
    Nat.le_trans few le, ready'⟩

theorem bind (first : Bounded functions limit depth calls i m x)
    (next : ∀ a, Bounded functions limit depth calls j n (f a)) :
    Bounded functions limit depth calls (i + j) (m + n) (x >>= f) := by
  intro machine ready
  obtain ⟨within, few, ready'⟩ := first machine ready
  rcases h : x machine with ⟨t, ⟨answer, machine'⟩ | ⟨fault, machine'⟩⟩
  · rw [h] at within few ready'
    obtain ⟨within', few', ready''⟩ := next answer machine' ready'
    rw [bind_ok h]
    refine ⟨within.append within', ?_, ready''⟩
    rw [Trace.iterations_append]
    exact Nat.add_le_add few few'
  · rw [h] at within few ready'
    rw [bind_error h]
    exact ⟨⟨Nat.le_add_right_of_le within.parts_le, within.loops, within.calls_le⟩,
      Nat.le_add_right_of_le few, ready'⟩

theorem answer (a : α) : Bounded functions limit depth calls 0 0 (pure a) :=
  fun _ ready => ⟨⟨Nat.le_refl _, trivial, Nat.zero_le _⟩, Nat.le_refl _, ready⟩

/-- A single step has no parts. -/
theorem single {exec : Exec α}
    (h : ∀ machine, machine.Ready functions depth → (left (exec machine)).Ready functions depth) :
    Bounded functions limit depth calls 0 0 (Runner.step exec) :=
  fun machine ready => ⟨⟨Nat.le_refl _, trivial, Nat.zero_le _⟩, Nat.le_refl _, h machine ready⟩

theorem step {exec : Exec α} (h : KeepsSetting exec) :
    Bounded functions limit depth calls 0 0 (Runner.step exec) :=
  single fun machine ready => ready.of_setting (h machine)

theorem declare (table : StructTable) (name : String) (type : CType) :
    Bounded functions limit depth calls 0 0 (Runner.declare table name type) := by
  intro machine ready
  have ready' : (left (Machine.declareVariable table name type machine)).Ready functions depth :=
    ready.declareVariable table name type
  show (recordOf _ _).Within limit calls 0 ∧ (recordOf _ _).iterations ≤ 0 ∧ _
  unfold recordOf
  split
  · exact ⟨⟨Nat.le_refl _, trivial, Nat.zero_le _⟩, Nat.le_refl _, ready'⟩
  · exact ⟨⟨Nat.le_refl _, trivial, Nat.zero_le _⟩, Nat.le_refl _, ready'⟩

/-- Something between two changes of the machine that lead to another depth and back. -/
theorem between {depth' : Nat} {before after : Machine → Machine}
    (entering : ∀ machine, machine.Ready functions depth → (before machine).Ready functions depth')
    (leaving : ∀ machine, machine.Ready functions depth' → (after machine).Ready functions depth)
    (inside : Bounded functions limit depth' calls i n x) :
    Bounded functions limit depth calls i n (Runner.between before after x) := by
  intro machine ready
  obtain ⟨within, few, ready'⟩ := inside (before machine) (entering machine ready)
  have ending : (Trace.state (after (left (x (before machine)).2)) .nothing).Within limit calls 0 :=
    ⟨Nat.le_refl _, trivial, Nat.zero_le _⟩
  have record := within.append ending
  refine ⟨⟨record.parts_le, record.loops, record.calls_le⟩, ?_, ?_⟩
  · show (Trace.append _ _).iterations ≤ i
    rw [Trace.iterations_append]
    exact few
  · show (left (changing after (x (before machine)).2)).Ready functions depth
    rw [left_changing]
    exact leaving _ ready'

theorem part {calls' : Nat} (kind : Part) (few : kind = .loop → i ≤ limit)
    (deep : calls' + (if kind = .activation then 1 else 0) ≤ calls)
    (inside : Bounded functions limit depth calls' i n x) :
    Bounded functions limit depth calls (if kind = .iteration then 1 else 0) (n + 1)
      (Runner.part kind x) := by
  intro machine ready
  obtain ⟨within, few', ready'⟩ := inside machine ready
  refine ⟨⟨?_, ⟨fun h => Nat.le_trans few' (few h), within.loops, trivial⟩, ?_⟩, Nat.le_refl _,
    ready'⟩
  · exact Nat.succ_le_succ within.parts_le
  · have := within.calls_le
    show max (_ + _) 0 ≤ calls
    omega

/-- A part that is neither an iteration nor an open call. -/
theorem plain (kind : Part) (unrepeated : kind ≠ .iteration) (closed : kind ≠ .activation)
    (inside : Bounded functions limit depth calls 0 n x) :
    Bounded functions limit depth calls 0 (n + 1) (Runner.part kind x) := by
  have deep : calls + (if kind = .activation then 1 else 0) ≤ calls := by simp [closed]
  have record := part kind (fun _ => Nat.zero_le limit) deep inside
  rwa [if_neg unrepeated] at record

/-- The body of a called function, with one more call open and one less to go. -/
theorem asCall (inside : Bounded functions limit (depth + 1) calls 0 n x) :
    Bounded functions limit depth (calls + 1) 0 (n + 1) (Runner.asCall x) := by
  have framed : Bounded functions limit (depth + 1) calls 0 n
      (Runner.inFrame Frame.activation x) :=
    between (fun _ ready => ready.enter (Frame.functions_activation _))
      (fun _ ready => ready.close) inside
  have counted : Bounded functions limit depth calls 0 n
      (Runner.between (Machine.onConsole Console.deepen) (Machine.onConsole Console.exitCall)
        (Runner.inFrame Frame.activation x)) := by
    refine between (fun machine ready => ⟨ready.functions_subset, ?_⟩)
      (fun machine ready => ⟨ready.functions_subset, ?_⟩) framed
    · exact congrArg (· + 1) ready.callDepth_eq
    · exact congrArg (· - 1) ready.callDepth_eq
  exact part .activation nofun (Nat.le_refl _) counted

theorem ite {b : Bool} {y : Traced α} (yes : Bounded functions limit depth calls i n x)
    (no : Bounded functions limit depth calls i n y) :
    Bounded functions limit depth calls i n (if b then x else y) := by
  cases b with
  | true => exact yes
  | false => exact no

/-- A question about the machine, and what is done with the answer. -/
theorem ask {question : Machine → Except Fault α}
    (next : ∀ machine, machine.Ready functions depth → ∀ a, question machine = .ok a →
      Bounded functions limit depth calls i n (f a)) :
    Bounded functions limit depth calls i n (Runner.step (Exec.ask question) >>= f) := by
  intro machine ready
  cases asked : question machine with
  | error fault =>
    have run : (Runner.step (Exec.ask question) : Traced α) machine =
        (.state machine .nothing, .error fault machine) := by
      simp [Runner.step, ofExec, Exec.ask, asked, left]
    rw [bind_error run]
    exact ⟨⟨Nat.zero_le _, trivial, Nat.zero_le _⟩, Nat.zero_le _, ready⟩
  | ok a =>
    have run : (Runner.step (Exec.ask question) : Traced α) machine =
        (.state machine .nothing, .ok a machine) := by
      simp [Runner.step, ofExec, Exec.ask, asked, left]
    rw [bind_ok run]
    obtain ⟨within, few, ready'⟩ := next machine ready a asked machine ready
    exact ⟨⟨within.parts_le, within.loops, within.calls_le⟩, few, ready'⟩

/-! ### Loops -/

theorem proceed {next : Traced Flow} (flow : Flow)
    (h : Bounded functions limit depth calls i n next) :
    Bounded functions limit depth calls i n (Loop.proceed flow next) := by
  cases flow with
  | normal | continuing => exact h
  | breaking | returning _ => exact weaken (answer _) (Nat.zero_le _) (Nat.zero_le _)

theorem start (limits : Limits) (count : Nat) :
    Bounded functions limit depth calls 0 0 (Runner.step (Loop.start limits count)) :=
  step (Loop.keepsSetting_start limits count)

/-- An iteration, and what follows it. -/
theorem iteration (limits : Limits) (count : Nat) {b : Nat} {body next : Traced Flow}
    (hb : Bounded functions limit depth calls 0 b body)
    (hn : Bounded functions limit depth calls i n next) :
    Bounded functions limit depth calls (i + 1) (b + 1 + n)
      (Runner.step (Loop.start limits count) >>= fun _ =>
        Runner.part .iteration body >>= fun flow => Loop.proceed flow next) := by
  have running := bind (start limits count) fun _ =>
    bind (part .iteration nofun (by simp) hb) fun flow => proceed flow hn
  refine weaken running ?_ ?_
  · simp only [if_true]
    omega
  · omega

/-- A loop with `count` iterations left starts no more of them. -/
theorem repeatWhile (limits : Limits) {t b a : Nat} {test : Traced Bool} {body : Traced Flow}
    {after : Traced Unit} (ht : Bounded functions limit depth calls 0 t test)
    (hb : Bounded functions limit depth calls 0 b body)
    (ha : Bounded functions limit depth calls 0 a after) (count : Nat) :
    Bounded functions limit depth calls count ((count + 1) * t + count * (b + 1 + a))
      (Loop.repeatWhile limits test body after count) := by
  induction count with
  | zero =>
    have tested := bind ht fun more => ite (b := more)
      (bind (start limits 0) fun _ => answer Flow.normal) (answer Flow.normal)
    exact weaken tested (by omega) (by omega)
  | succ count ih =>
    have running := iteration limits (count + 1) hb (bind ha fun _ => ih)
    have tested := bind ht fun more => ite (b := more) running
      (weaken (answer Flow.normal) (Nat.zero_le _) (Nat.zero_le _))
    refine weaken tested ?_ ?_
    · omega
    · rw [Nat.succ_mul (count + 1) t, Nat.succ_mul count (b + 1 + a)]
      omega

theorem whileTrue (limits : Limits) {t b a : Nat} {test : Traced Bool} {body : Traced Flow}
    {after : Traced Unit} (ht : Bounded functions limits.loopLimit depth calls 0 t test)
    (hb : Bounded functions limits.loopLimit depth calls 0 b body)
    (ha : Bounded functions limits.loopLimit depth calls 0 a after) :
    Bounded functions limits.loopLimit depth calls 0 (Loop.parts limits.loopLimit t b a)
      (Loop.whileTrue limits test body after) :=
  part .loop (fun _ => Nat.le_refl _) (by simp) (repeatWhile limits ht hb ha limits.loopLimit)

/-- What follows a step that always fails is never run. -/
theorem refused {exec : Exec α} (kept : KeepsSetting exec)
    (fails : ∀ machine, ∃ fault machine', exec machine = .error fault machine') :
    Bounded functions limit depth calls 0 0 (Runner.step exec >>= f) := by
  intro machine ready
  obtain ⟨fault, machine', run⟩ := fails machine
  have ready' := ready.of_setting (kept machine)
  have record : (Runner.step exec : Traced α) machine =
      (.state machine' .nothing, .error fault machine') := by
    simp only [Runner.step, ofExec, run, left]
  rw [run] at ready'
  rw [bind_error record]
  exact ⟨⟨Nat.le_refl _, trivial, Nat.zero_le _⟩, Nat.le_refl _, ready'⟩

theorem afterFirst (limits : Limits) {t b : Nat} {test : Traced Bool} {body : Traced Flow}
    (ht : Bounded functions limits.loopLimit depth calls 0 t test)
    (hb : Bounded functions limits.loopLimit depth calls 0 b body) :
    Bounded functions limits.loopLimit depth calls 0 (Loop.parts limits.loopLimit t b 0)
      (Loop.afterFirst limits test body) := by
  have inside : Bounded functions limits.loopLimit depth calls limits.loopLimit
      ((limits.loopLimit + 1) * t + limits.loopLimit * (b + 1 + 0))
      (Runner.step (Loop.start limits limits.loopLimit) >>= fun _ =>
        Runner.part .iteration body >>= fun flow => Loop.proceed flow
          (Loop.repeatWhile limits test body (pure ()) (limits.loopLimit - 1))) := by
    cases budget : limits.loopLimit with
    | zero =>
      -- without a budget the first iteration is refused
      have fails (machine : Machine) : ∃ fault machine',
          Loop.start limits 0 machine = .error fault machine' := by
        simp [Loop.start, Exec.onConsole, Console.countIteration, budget]
      refine weaken (refused (Loop.keepsSetting_start limits 0) fails) ?_ ?_
      · exact Nat.le_refl _
      · exact Nat.zero_le _
    | succ count =>
      rw [budget] at ht hb
      have rest := repeatWhile limits ht hb (answer ()) count
      refine weaken (iteration limits (count + 1) hb rest) (Nat.le_refl _) ?_
      rw [Nat.succ_mul (count + 1) t, Nat.succ_mul count (b + 1 + 0)]
      omega
  exact part .loop (fun _ => Nat.le_refl _) (by simp) inside

end Bounded

/-! ## Evaluation -/

/-- The rules of evaluation keep to the bounds. -/
def budgetedParts (table : StructTable) (limits : Limits) (functions : List FunctionDef)
    (depth calls : Nat) : Congruence Traced Traced table limits limits where
  rel parts x _ := Bounded functions limits.loopLimit depth calls 0 parts x
  known callee := ∀ function, callee = .user function → function ∈ functions
  weaken h le := h.weaken (Nat.le_refl _) le
  answer a := .answer a
  sequence first next := first.bind next
  step primitive := .step primitive.keepsSetting
  check result _ _ h := .ask fun _ _ a ok => h a ok
  declare name type := .declare table name type
  lookup name _ _ h := by
    refine .ask fun machine ready callee found => h callee fun function isUser => ?_
    subst isUser
    exact ready.functions_subset (machine.mem_functions_of_functionOf found)
  part kind plain h := h.plain kind (by rintro rfl; simp at plain) (by rintro rfl; simp at plain)
  statement stmt h := by
    have moved := (Bounded.step (Exec.keepsSetting_setLine stmt.line)).bind fun _ => h
    have same := moved.weaken (Nat.le_refl _) (Nat.le_of_eq (Nat.zero_add _))
    exact same.plain (.statement stmt) nofun nofun
  inFrame h := h.between (fun _ ready => ready.enter (Frame.functions_block _))
    fun _ ready => ready.close
  whileTrue ht hb ha := .whileTrue limits ht hb ha
  afterFirst ht hb := .afterFirst limits ht hb

open Congruence in
/-- A call keeps to its bounds when as many calls are left as may be opened. -/
theorem bounded_callWithin (table : StructTable) (limits : Limits)
    (functions : List FunctionDef) (count : Nat) : ∀ depth,
    (budgetedParts table limits functions depth count).CallsRelated
      (callParts functions limits.loopLimit count) (callWithin ⟨table, limits⟩ count)
      (callWithin ⟨table, limits⟩ count) := by
  induction count with
  | zero =>
    intro depth function arguments _
    exact callWithin_zero (C := budgetedParts table limits functions depth 0) function arguments
  | succ count ih =>
    intro depth function arguments known
    refine callWithin_succ (C := budgetedParts table limits functions depth (count + 1)) function
      arguments (.step (Exec.keepsSetting_ask _))
      (fun line => .step (Exec.keepsSetting_setLine line)) fun params body found => ?_
    have size := partsAll_le_sum (known function rfl) found limits.loopLimit
      (callParts functions limits.loopLimit count)
    have inside := callBody (ih (depth + 1)) params body
    have called := Bounded.asCall inside
    exact called.weaken (Nat.le_refl _) (Nat.succ_le_succ size)

/-- The rules of a run keep to the bounds. -/
def budgeted (table : StructTable) (limits : Limits) (functions : List FunctionDef)
    (depth : Nat) : RunCongruence Traced Traced table limits limits where
  toCongruence := budgetedParts table limits functions depth (limits.maxCallDepth - depth)
  call := callParts functions limits.loopLimit (limits.maxCallDepth - depth)
  library _ := nofun
  setLine line := .step (Exec.keepsSetting_setLine line)
  bindFunction name _ known := .single fun _ ready => ready.declareFunction name known
  withCalls h := by
    refine .ask fun machine ready count asked => ?_
    have exact : count = limits.maxCallDepth - depth := by
      cases asked
      rw [Machine.callsLeft, ready.callDepth_eq]
    rw [exact]
    exact h _ _ (bounded_callWithin table limits functions _ depth)

theorem bounded_execute (table : StructTable) (limits : Limits) (program : Program) :
    Bounded program.functions limits.loopLimit 0 limits.maxCallDepth 0
      (program.parts limits.loopLimit
        (callParts program.functions limits.loopLimit limits.maxCallDepth))
      (program.execute ⟨table, limits⟩) :=
  RunCongruence.execute (C := budgeted table limits program.functions 0) program
    fun function mem other same => by cases same; exact mem

theorem bounded_eval (env : Env) (expr : Expr) (machine : Machine) :
    ((expr.eval env : Traced Value) machine).1.Within env.limits.loopLimit (machine.callsLeft env)
      (expr.parts (machine.callBound env)) := by
  let C := budgeted env.structs env.limits machine.functions machine.console.callDepth
  have bounded : C.rel (expr.parts C.call) (expr.eval env) (expr.eval env) :=
    C.withCalls fun _ _ h => EvalCongruence.eval h expr
  exact (bounded machine ⟨List.Subset.refl _, rfl⟩).1

theorem bounded_exec (env : Env) (stmt : Stmt) (machine : Machine) :
    ((stmt.exec env : Traced Flow) machine).1.Within env.limits.loopLimit (machine.callsLeft env)
      (stmt.parts env.limits.loopLimit (machine.callBound env)) := by
  let C := budgeted env.structs env.limits machine.functions machine.console.callDepth
  have bounded : C.rel (stmt.parts env.limits.loopLimit C.call) (stmt.exec env) (stmt.exec env) :=
    C.withCalls fun _ _ h => Congruence.exec h stmt
  exact (bounded machine ⟨List.Subset.refl _, rfl⟩).1

end Traced

/-! ## Termination within budgets -/

/-- A bound on the parts of a run of a program. -/
def Program.bound (limits : Limits) (program : Program) : Nat :=
  program.parts limits.loopLimit
    (callParts program.functions limits.loopLimit limits.maxCallDepth)

theorem Program.watch_within (structs : StructTable) (config : Config) (input : String)
    (program : Program) :
    (program.watch structs config input).1.Within config.limits.loopLimit
      config.limits.maxCallDepth (program.bound config.limits) := by
  unfold watch
  cases Image.create config.regions with
  | error fault => exact ⟨Nat.zero_le _, trivial, Nat.zero_le _⟩
  | ok image =>
    have ready : (Machine.start image (Console.start input.toList)).Ready program.functions 0 :=
      ⟨List.nil_subset _, rfl⟩
    obtain ⟨within, -⟩ := Traced.bounded_execute structs config.limits program _ ready
    exact within.state _

end FlatC

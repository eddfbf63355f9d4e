import FlatC.Proofs.Eval.Visible

/-!
# Evaluation in frames that show the same names

Evaluation looks at a frame only for the meaning of a name, for the cursor of the stack and for the
scopes that a call can see.  So it goes the same way in two frames that agree on these, however many
scopes they have: it gives the same answers and faults and leaves the same memory.  On the way it
may be on different lines, since no step goes by the line.

* `Frame.Padded` compares two frames that differ by empty scopes around the innermost;
* `Frame.Seeing` and `Frame.Declaring` are the relations of frames that expressions and statements
  cannot tell apart;
* `Machine.Parallel` and `Parallel` compare machines and steps, and `evaluatingInParallel` and
  `executingInParallel` are the rules of evaluation;
* `parallel_callWithin` says that calls do not depend on the frame of the caller either.
-/

namespace FlatC

open Step

/-! ## Frames -/

namespace Frame

/-- The binding of a name in a list of scopes, the innermost first. -/
def lookup? (scopes : List Scope) (name : String) : Option Binding :=
  scopes.findSome? fun scope => scope.bindings.find? name

/-- Two frames that are the same, or have the same innermost scope inside a function, with scopes
around it that show the same names. -/
inductive Padded : Frame → Frame → Prop where
  | same (frame : Frame) : Padded frame frame
  | inside {frame frame' : Frame}
      (bindings : frame'.scope.bindings = frame.scope.bindings)
      (base : frame'.scope.base = frame.scope.base)
      (top : frame'.scope.top = frame.scope.top)
      (inner : 1 < frame.scope.depth)
      (inner' : 1 < frame'.scope.depth)
      (names : ∀ name, lookup? frame'.outer name = lookup? frame.outer name)
      (program : programPart frame'.outer = programPart frame.outer) :
      Padded frame frame'

namespace Padded

variable {frame frame' : Frame}

theorem bindings (h : Padded frame frame') :
    frame'.scope.bindings = frame.scope.bindings := by
  cases h with
  | same => rfl
  | inside bindings => exact bindings

theorem base (h : Padded frame frame') : frame'.scope.base = frame.scope.base := by
  cases h with
  | same => rfl
  | inside _ base => exact base

theorem top (h : Padded frame frame') : frame'.scope.top = frame.scope.top := by
  cases h with
  | same => rfl
  | inside _ _ top => exact top

theorem find? (h : Padded frame frame') (name : String) :
    frame'.find? name = frame.find? name := by
  cases h with
  | same => rfl
  | inside bindings _ _ _ _ names =>
    have around := names name
    simp only [lookup?] at around
    simp only [Frame.find?, scopes, List.findSome?_cons, bindings, around]

theorem programScopes (h : Padded frame frame') :
    frame'.programScopes = frame.programScopes := by
  cases h with
  | same => rfl
  | inside _ _ _ inner inner' _ program =>
    rw [programScopes_of_inner inner, programScopes_of_inner inner', program]

theorem withTop (h : Padded frame frame') (top : Nat) :
    Padded (frame.withTop top) (frame'.withTop top) := by
  cases h with
  | same => exact .same _
  | inside bindings base _ inner inner' names program =>
    exact .inside bindings base rfl inner inner' names program

theorem bindSlot (h : Padded frame frame') (name : String) (type : CType) (address size : Nat) :
    Padded (frame.bindSlot name type address size) (frame'.bindSlot name type address size) := by
  cases h with
  | same => exact .same _
  | inside bindings base _ inner inner' names program =>
    refine .inside ?_ base rfl inner inner' names program
    show frame'.scope.bindings.bind name _ = frame.scope.bindings.bind name _
    rw [bindings]

end Padded

/-- Blocks in frames inside a function are the same but for the scopes around them, if the frames
show the same names. -/
theorem padded_block {frame frame' : Frame} (inner : 0 < frame.scope.depth)
    (inner' : 0 < frame'.scope.depth) (top : frame'.scope.top = frame.scope.top)
    (names : ∀ name, frame'.find? name = frame.find? name)
    (program : frame'.programScopes = frame.programScopes) :
    Padded frame.block frame'.block :=
  .inside rfl top top (Nat.succ_lt_succ inner) (Nat.succ_lt_succ inner') names program

/-- A relation of frames that an expression cannot tell apart. -/
structure Seeing (Q : Frame → Frame → Prop) : Prop where
  top {frame frame' : Frame} : Q frame frame' → frame'.scope.top = frame.scope.top
  names {frame frame' : Frame} : Q frame frame' → ∀ name, frame'.find? name = frame.find? name
  program {frame frame' : Frame} : Q frame frame' → frame'.programScopes = frame.programScopes
  withTop {frame frame' : Frame} :
    Q frame frame' → ∀ top, Q (frame.withTop top) (frame'.withTop top)

/-- A relation of frames that a statement cannot tell apart. -/
structure Declaring (Q : Frame → Frame → Prop) : Prop extends Seeing Q where
  bindings {frame frame' : Frame} :
    Q frame frame' → frame'.scope.bindings = frame.scope.bindings
  base {frame frame' : Frame} : Q frame frame' → frame'.scope.base = frame.scope.base
  bindSlot {frame frame' : Frame} : Q frame frame' → ∀ name type address size,
    Q (frame.bindSlot name type address size) (frame'.bindSlot name type address size)
  block {frame frame' : Frame} : Q frame frame' → Q frame.block frame'.block

theorem Seeing.activation {Q : Frame → Frame → Prop} (seeing : Seeing Q) {frame frame' : Frame}
    (h : Q frame frame') : frame'.activation = frame.activation := by
  simp only [Frame.activation, programDepth, seeing.program h, seeing.top h]

theorem declaring_padded : Declaring Padded where
  top := Padded.top
  names := Padded.find?
  program := Padded.programScopes
  withTop := Padded.withTop
  bindings := Padded.bindings
  base := Padded.base
  bindSlot := Padded.bindSlot
  block h := by
    cases h with
    | same => exact .same _
    | inside bindings base top inner inner' names program =>
      have padded := Padded.inside bindings base top inner inner' names program
      exact padded_block (by omega) (by omega) top padded.find? padded.programScopes

end Frame

/-! ## Machines and steps -/

/-- The machines have the same memory, frames that are related, and the given frames waiting.  Their
consoles may be on different lines. -/
inductive Machine.Parallel (Q : Frame → Frame → Prop) :
    List Frame → List Frame → Machine → Machine → Prop where
  | mk (image : Image) (frame frame' : Frame) (openers openers' : List Frame) (console : Console)
      (line : Nat) (related : Q frame frame') :
      Parallel Q openers openers' ⟨image, frame, openers, console⟩
        ⟨image, frame', openers', console.setLine line⟩

/-- From parallel machines two steps end alike, and leave parallel machines. -/
def Parallel {α : Type} (Q : Frame → Frame → Prop) (x y : Exec α) : Prop :=
  ∀ openers openers', Follows (Machine.Parallel Q openers openers') (fun _ => True) x y

section Rules

variable {α β : Type} {Q : Frame → Frame → Prop} {x y : Exec α} {f g : α → Exec β}

theorem parallel_pure (a : α) : Parallel Q (pure a) (pure a) :=
  fun _ _ => follows_pure a

theorem parallel_throw (fault : Fault) : Parallel Q (throw fault : Exec α) (throw fault) :=
  fun _ _ => follows_throw fault

theorem parallel_bind (first : Parallel Q x y) (next : ∀ a, Parallel Q (f a) (g a)) :
    Parallel Q (x >>= f) (y >>= g) :=
  fun openers openers' =>
    follows_bind (first openers openers') fun a => next a openers openers'

/-! ### Single steps -/

theorem parallel_ask {question : Machine → Except Fault α}
    (same : ∀ {openers openers' machine machine'},
      Machine.Parallel Q openers openers' machine machine' →
        question machine = question machine') :
    Parallel Q (Exec.ask question) (Exec.ask question) :=
  fun _ _ _ _ parallel => .of_refined parallel (.of_eq (same parallel))

theorem parallel_of (result : Except Fault α) : Parallel Q (Exec.of result) (Exec.of result) :=
  fun _ _ _ _ parallel => .of_refined parallel (.same result)

theorem parallel_onImage (step : Store α) :
    Parallel Q (Exec.onImage step) (Exec.onImage step) := by
  rintro openers openers' _ _ ⟨image, frame, frame', _, _, console, line, related⟩
  unfold Exec.onImage
  dsimp only
  cases step image with
  | ok a image => exact .ok a (.mk image frame frame' openers openers' console line related)
  | error fault image =>
    exact .error fault (.mk image frame frame' openers openers' console line related)

/-- A change of the console that keeps consoles the same but for their lines. -/
theorem parallel_console {change change' : Console → Console}
    (moves : ∀ console line, ∃ line',
      change' (console.setLine line) = (change console).setLine line') :
    Parallel Q (Exec.console change) (Exec.console change') := by
  rintro openers openers' _ _ ⟨image, frame, frame', _, _, console, line, related⟩
  obtain ⟨line', moved⟩ := moves console line
  have parallel := Machine.Parallel.mk image frame frame' openers openers' (change console) line'
    related
  rw [← moved] at parallel
  exact .ok () parallel

/-- Moving to a line keeps machines parallel, whatever the lines are. -/
theorem parallel_setLine (line line' : Nat) :
    Parallel Q (Exec.setLine line) (Exec.setLine line') :=
  parallel_console fun _ _ => ⟨line', rfl⟩

/-- It does so too if only one of them moves. -/
theorem follows_setLine_then {openers openers' : List Frame} {seen : Fault → Prop} (line : Nat)
    (h : Follows (Machine.Parallel Q openers openers') seen x y) :
    Follows (Machine.Parallel Q openers openers') seen x (Exec.setLine line >>= fun _ => y) := by
  rintro _ _ ⟨image, frame, frame', _, _, console, before, related⟩
  exact h _ _ (.mk image frame frame' openers openers' console line related)

/-- What follows a look at the line may find different lines. -/
theorem parallel_line {f g : Nat → Exec α} (next : ∀ line line', Parallel Q (f line) (g line')) :
    Parallel Q (Exec.ask (fun machine => .ok machine.console.line) >>= f)
      (Exec.ask (fun machine => .ok machine.console.line) >>= g) := by
  rintro openers openers' _ _ ⟨image, frame, frame', _, _, console, line, related⟩
  exact next console.line line openers openers' _ _
    (.mk image frame frame' openers openers' console line related)

theorem parallel_start (limits : Limits) (count : Nat) :
    Parallel Q (Loop.start limits count) (Loop.start limits count) := by
  rintro openers openers' _ _ ⟨image, frame, frame', _, _, console, line, related⟩
  have counted := Machine.Parallel.mk image frame frame' openers openers' console.addIteration line
    related
  simp only [Loop.start, Exec.onConsole, Console.countIteration]
  by_cases more : limits.loopLimit - count < limits.loopLimit
  · simp only [if_pos more]
    exact .ok () counted
  · simp only [if_neg more]
    exact .error _ counted

/-- Reading input does not depend on the line. -/
theorem parallel_read {step : Exec α} (read : Console → α × Console)
    (reads : ∀ machine, step machine =
      .ok (read machine.console).1 { machine with console := (read machine.console).2 })
    (moves : ∀ console line,
      read (console.setLine line) = ((read console).1, (read console).2.setLine line)) :
    Parallel Q step step := by
  rintro openers openers' _ _ ⟨image, frame, frame', _, _, console, line, related⟩
  have parallel := Machine.Parallel.mk image frame frame' openers openers' (read console).2 line
    related
  rw [reads, reads]
  simp only [moves]
  exact .ok _ parallel

theorem parallel_nextWord : Parallel Q Scan.nextWord Scan.nextWord := by
  refine parallel_read Console.nextWord (fun _ => rfl) fun console line => ?_
  unfold Console.nextWord Console.setLine
  dsimp only
  split <;> rfl

theorem parallel_nextChar : Parallel Q Scan.nextChar Scan.nextChar := by
  refine parallel_read Console.nextChar (fun _ => rfl) fun console line => ?_
  unfold Console.nextChar Console.setLine
  dsimp only
  split <;> rfl

end Rules

/-! ### Names -/

/-- If every fault counts, nothing is left open. -/
theorem Refined.eq {α : Type} {x y : Except Fault α} (h : Refined (fun _ => True) x y) : x = y := by
  cases h with
  | same => rfl
  | unseen _ unseen => exact absurd trivial unseen

section Names

variable {Q : Frame → Frame → Prop} {openers openers' : List Frame} {machine machine' : Machine}

theorem Machine.Parallel.resolve (seeing : Frame.Seeing Q)
    (parallel : Machine.Parallel Q openers openers' machine machine') (table : StructTable)
    (name : String) : machine.resolve table name = machine'.resolve table name := by
  obtain ⟨image, frame, frame', _, _, console, line, related⟩ := parallel
  simp only [Machine.resolve, Frame.find, seeing.names related name]

theorem Machine.Parallel.functionOf (seeing : Frame.Seeing Q)
    (parallel : Machine.Parallel Q openers openers' machine machine') (table : StructTable)
    (name : String) : machine.functionOf table name = machine'.functionOf table name := by
  simp only [Machine.functionOf, parallel.resolve seeing table name]

/-- Questions of evaluation have the same answer in frames that show the same names. -/
theorem Machine.Parallel.question {α : Type} (seeing : Frame.Seeing Q)
    (parallel : Machine.Parallel Q openers openers' machine machine') {table : StructTable}
    {question : Machine → Except Fault α} (asked : Machine.Question table question) :
    question machine = question machine' := by
  cases asked with
  | var name => simp only [Machine.valueOf, parallel.resolve seeing table name]
  | typeOf expr =>
    have functions (name : String) := parallel.functionOf seeing table name
    have types (name : String) : machine.frame.typeOf name = machine'.frame.typeOf name := by
      obtain ⟨_, _, _, _, _, _, _, related⟩ := parallel
      simp only [Frame.typeOf, Frame.find, seeing.names related name]
    exact (Expr.typeIn_refined types (fun name => .of_eq (functions name)) expr).eq
  | text v =>
    obtain ⟨_, _, _, _, _, _, _, _⟩ := parallel
    rfl
  | length v =>
    obtain ⟨_, _, _, _, _, _, _, _⟩ := parallel
    rfl
  | render pieces arguments =>
    obtain ⟨_, _, _, _, _, _, _, _⟩ := parallel
    rfl

end Names

/-! ### Frames -/

section Frames

variable {α : Type} {Q S : Frame → Frame → Prop} {x y : Exec α}

/-- Closing parallel frames gives their openers the same cursor. -/
theorem Machine.Parallel.close (declaring : Frame.Declaring S) (seeing : Frame.Seeing Q)
    {opener opener' : Frame} {openers openers' : List Frame} {machine machine' : Machine}
    (related : Q opener opener')
    (parallel : Parallel S (opener :: openers) (opener' :: openers') machine machine') :
    Parallel Q openers openers' machine.close machine'.close := by
  obtain ⟨image, frame, frame', _, _, console, line, inside⟩ := parallel
  have cursor : frame'.cursorAfter image.policy = frame.cursorAfter image.policy := by
    cases image.policy with
    | reclaim => exact declaring.base inside
    | growOnly => exact declaring.top inside
  simp only [Machine.close, cursor]
  exact .mk image _ _ openers openers' console line (seeing.withTop related _)

/-- What ends alike between two changes of the machine, ends alike with them. -/
theorem followed_between {R T : Machine → Machine → Prop} {seen : Fault → Prop}
    {before after : Machine → Machine} {machine machine' : Machine}
    (leaving : ∀ {inside inside' : Machine}, T inside inside' → R (after inside) (after inside'))
    (h : Followed T seen (x (before machine)) (y (before machine'))) :
    Followed R seen (Runner.between before after x machine)
      (Runner.between before after y machine') := by
  simp only [Runner.between]
  generalize x (before machine) = ended, y (before machine') = ended' at h
  cases h with
  | ok a inside => exact .ok a (leaving inside)
  | error fault inside => exact .error fault (leaving inside)
  | unseen _ unseen => exact .unseen _ unseen

/-- What runs in parallel in a frame of its own, does so seen from outside. -/
theorem parallel_inFrame (declaring : Frame.Declaring S) (seeing : Frame.Seeing Q)
    {opening : Frame → Frame}
    (opens : ∀ {frame frame'}, Q frame frame' → S (opening frame) (opening frame'))
    (h : Parallel S x y) :
    Parallel Q (Runner.inFrame opening x) (Runner.inFrame opening y) := by
  rintro openers openers' _ _ ⟨image, frame, frame', _, _, console, line, related⟩
  have entered := Machine.Parallel.mk image (opening frame) (opening frame') (frame :: openers)
    (frame' :: openers') console line (opens related)
  exact followed_between (fun inside => inside.close declaring seeing related) (h _ _ _ _ entered)

/-- A call is counted alike, and opens the same frame. -/
theorem parallel_asCall (seeing : Frame.Seeing Q) (h : Parallel Frame.Padded x y) :
    Parallel Q (Runner.asCall x) (Runner.asCall y) := by
  have opens {frame frame' : Frame} (related : Q frame frame') :
      Frame.Padded frame.activation frame'.activation := by
    rw [seeing.activation related]
    exact .same _
  have called := parallel_inFrame Frame.declaring_padded seeing opens h
  rintro openers openers' _ _ ⟨image, frame, frame', _, _, console, line, related⟩
  have counted := Machine.Parallel.mk image frame frame' openers openers' console.deepen line
    related
  refine followed_between (fun inside => ?_) (called _ _ _ _ counted)
  obtain ⟨image, frame, frame', _, _, console, line, related⟩ := inside
  exact .mk image frame frame' openers openers' console.exitCall line related

end Frames

/-! ### Declarations -/

section Declarations

variable {Q : Frame → Frame → Prop}

/-- Slots are planned by the names of the scope and by the cursor. -/
theorem Machine.Parallel.planVariable (declaring : Frame.Declaring Q)
    {openers openers' : List Frame} {machine machine' : Machine}
    (parallel : Parallel Q openers openers' machine machine')
    (table : StructTable) (name : String) (type : CType) :
    machine.planVariable table name type = machine'.planVariable table name type := by
  obtain ⟨image, frame, frame', _, _, console, line, related⟩ := parallel
  simp only [Machine.planVariable, Machine.placeSlot, Frame.slotAddress,
    declaring.bindings related, declaring.top related]

theorem parallel_declareVariable (declaring : Frame.Declaring Q) (table : StructTable)
    (name : String) (type : CType) :
    Parallel Q (Machine.declareVariable table name type)
      (Machine.declareVariable table name type) := by
  refine parallel_bind (parallel_ask fun parallel =>
    parallel.planVariable declaring table name type) fun slot => ?_
  refine parallel_bind (parallel_onImage _) fun _ => ?_
  refine parallel_bind (parallel_ask fun parallel => ?_) fun value => ?_
  · obtain ⟨_, _, _, _, _, _, _, _⟩ := parallel
    rfl
  · refine parallel_bind ?_ fun _ => parallel_pure value
    rintro openers openers' _ _ ⟨image, frame, frame', _, _, console, line, related⟩
    exact .ok _ (.mk image _ _ openers openers' console line (declaring.bindSlot related _ _ _ _))

end Declarations

/-! ## Evaluation -/

/-- Primitive steps run in parallel. -/
def steppingInParallel {Q : Frame → Frame → Prop} (seeing : Frame.Seeing Q) (table : StructTable) :
    AbortingRules table where
  holds exec := Parallel Q exec exec
  memory := Image.keepingShape
  answer := parallel_pure
  fault _ := parallel_throw _
  sequence := parallel_bind
  ask asked := parallel_ask fun parallel => parallel.question seeing asked
  onImage _ := parallel_onImage _
  print _ := parallel_console fun _ line => ⟨line, rfl⟩
  nextWord := parallel_nextWord
  nextChar := parallel_nextChar
  abort _ := parallel_throw _
  abortStore := Image.keepsShape_abort
  element := Image.keepsShape_element

/-- The rules of expressions. -/
def evaluatingInParallel {Q : Frame → Frame → Prop} (seeing : Frame.Seeing Q)
    (table : StructTable) (limits : Limits) : EvalCongruence Exec Exec table limits limits where
  rel _ x y := Parallel Q x y
  known _ := True
  weaken h _ := h
  answer := parallel_pure
  sequence := parallel_bind
  step := (steppingInParallel seeing table).primitive
  lookup name _ _ h :=
    parallel_bind (parallel_ask fun parallel => parallel.functionOf seeing table name)
      fun callee => h callee trivial
  part _ _ h := h

/-- The rules of loops. -/
def loopingInParallel (Q : Frame → Frame → Prop) (limits : Limits) :
    LoopRules Exec Exec limits where
  rel := Parallel Q
  answer := parallel_pure
  sequence := parallel_bind
  start := parallel_start limits
  part _ _ h := h

/-- The rules of statements. -/
def executingInParallel {Q : Frame → Frame → Prop} (declaring : Frame.Declaring Q)
    (table : StructTable) (limits : Limits) : Congruence Exec Exec table limits limits where
  toEvalCongruence := evaluatingInParallel declaring.toSeeing table limits
  check result _ _ h := by
    cases result with
    | ok a => exact h a rfl
    | error fault => exact parallel_throw fault
  declare := parallel_declareVariable declaring table
  statement stmt h := parallel_bind (parallel_setLine stmt.line stmt.line) fun _ => h
  inFrame := parallel_inFrame declaring declaring.toSeeing declaring.block
  whileTrue := (loopingInParallel Q limits).whileTrue
  afterFirst := (loopingInParallel Q limits).afterFirst

/-- A call runs in parallel from all frames that expressions cannot tell apart: it is executed in
the same frame, and its caller goes on from the same cursor. -/
theorem parallel_callWithin (env : Env) (left : Nat) : ∀ {Q : Frame → Frame → Prop},
    Frame.Seeing Q → ∀ (function : FunctionDef) (arguments : List Value),
      Parallel Q (callWithin env left function arguments)
        (callWithin env left function arguments) := by
  induction left with
  | zero =>
    intro Q _ function arguments
    refine parallel_bind (parallel_of _) fun body => ?_
    exact parallel_bind (parallel_of _) fun params => parallel_of _
  | succ left ih =>
    intro Q seeing function arguments
    refine parallel_bind (parallel_of _) fun body => ?_
    refine parallel_bind (parallel_of _) fun params => ?_
    refine parallel_line fun line line' => ?_
    have calls : (executingInParallel Frame.declaring_padded env.structs env.limits).CallsRelated 0
        (callWithin env left) (callWithin env left) :=
      fun function arguments _ => ih Frame.declaring_padded.toSeeing function arguments
    have inside := Congruence.callBody calls params body
    refine parallel_bind (parallel_asCall seeing inside) fun flow => ?_
    exact parallel_bind (parallel_setLine line line') fun _ => parallel_of _

theorem parallel_evalCalls (env : Env) (left : Nat) {Q : Frame → Frame → Prop}
    (seeing : Frame.Seeing Q) :
    (evaluatingInParallel seeing env.structs env.limits).CallsRelated 0 (callWithin env left)
      (callWithin env left) :=
  fun function arguments _ => parallel_callWithin env left seeing function arguments

theorem parallel_calls (env : Env) (left : Nat) {Q : Frame → Frame → Prop}
    (declaring : Frame.Declaring Q) :
    (executingInParallel declaring env.structs env.limits).CallsRelated 0 (callWithin env left)
      (callWithin env left) :=
  parallel_evalCalls env left declaring.toSeeing

end FlatC

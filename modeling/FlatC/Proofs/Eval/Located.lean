import FlatC.Proofs.Eval.Lockstep

/-!
# The line of a failure

A failure is reported at the line that the console is on.  A statement moves the console to its line
when it is entered, and a call that succeeds moves it back; nothing else does.  So what is reported
is the line of the statement in which the failure occurs only if nothing has been executed inside
this statement before.  A loop that evaluates its test or its last expression after its body is on
the line where the body was left.

Whoever runs a program can keep track of the statement that it is in.  The runner of this file does,
and finds the line that is reported.

* `Position` is where a run is: outside all statements, or in a statement that may have executed
  others inside it;
* `Located` is the runner that carries a position along, and `Program.locate` a run by it;
* `Located.Follows` says that it runs what the machine alone runs, and that the console is always on
  the line that its position shows;
* `failures_reported_at_shown_line` says this of the line of a failure.
-/

namespace FlatC

open Step

/-! ## Steps that stay on their line -/

/-- The line that a failure would be reported at now. -/
def Machine.line (machine : Machine) : Nat :=
  machine.console.line

/-- A step that leaves the console on its line. -/
abbrev KeepsLine {α : Type} (exec : Exec α) : Prop :=
  Keeps Machine.line exec

theorem Exec.keepsLine_onImage {α : Type} (step : Store α) : KeepsLine (onImage step) := by
  rintro ⟨image, frame, openers, console⟩
  unfold onImage
  simp only
  cases step image <;> rfl

theorem Loop.keepsLine_start (limits : Limits) (count : Nat) :
    KeepsLine (Loop.start limits count) := by
  intro machine
  simp only [Loop.start, Exec.onConsole, Console.countIteration]
  by_cases more : limits.loopLimit - count < limits.loopLimit
  · simp only [if_pos more]
    rfl
  · simp only [if_neg more]
    rfl

theorem Scan.keepsLine_nextWord : KeepsLine Scan.nextWord := by
  intro machine
  show (Console.nextWord machine.console).2.line = _
  simp only [Console.nextWord]
  split <;> rfl

theorem Scan.keepsLine_nextChar : KeepsLine Scan.nextChar := by
  intro machine
  show (Console.nextChar machine.console).2.line = _
  unfold Console.nextChar
  split <;> rfl

/-- Primitive steps leave the console on its line. -/
def keepingLine (table : StructTable) : AbortingRules table where
  holds exec := KeepsLine exec
  memory := Image.keepingShape
  answer := keeps_pure
  fault _ := keeps_throw _
  sequence := keeps_bind
  ask _ := Exec.keeps_ask _
  onImage _ := Exec.keepsLine_onImage _
  print _ := keeps_modify fun _ => rfl
  nextWord := Scan.keepsLine_nextWord
  nextChar := Scan.keepsLine_nextChar
  abort _ := keeps_throw _
  abortStore := Image.keepsShape_abort
  element := Image.keepsShape_element

theorem Machine.keepsLine_declareVariable (table : StructTable) (name : String) (type : CType) :
    KeepsLine (declareVariable table name type) := by
  refine keeps_bind (Exec.keeps_ask _) fun slot => ?_
  refine keeps_bind (Exec.keepsLine_onImage _) fun _ => ?_
  refine keeps_bind (Exec.keeps_ask _) fun value => ?_
  exact keeps_bind (keeps_modify fun _ => rfl) fun _ => keeps_pure value

/-! ## Positions -/

/-- A statement that is being executed. -/
structure Place where
  stmt : Stmt
  /-- The last statement that was executed inside it, if there was one. -/
  last : Option Stmt
deriving Repr

/-- The last statement that was entered: one inside it, or the statement itself. -/
def Place.shown (place : Place) : Stmt :=
  place.last.getD place.stmt

/-- Where a run is. -/
inductive Position where
  /-- Outside all statements. -/
  | outside
  /-- In a statement, the innermost one. -/
  | inside (place : Place)
deriving Repr

namespace Position

/-- The position after a statement inside the present one has come to its end. -/
def passed : Position → Position → Position
  | .inside place, .inside nested => .inside { place with last := some nested.shown }
  | position, _ => position

/-- The line of the statement, and the line of the last one that was executed inside it. -/
def lines : Position → Option (Nat × Option Nat)
  | .outside => none
  | .inside place => some (place.stmt.line, place.last.map Stmt.line)

/-- The console is on the line of the statement that the position shows. -/
def Shows : Position → Machine → Prop
  | .outside, _ => True
  | .inside place, machine => machine.line = place.shown.line

/-- Both positions are outside, or in the same statement. -/
def Alike : Position → Position → Prop
  | .outside, .outside => True
  | .inside place, .inside place' => place'.stmt = place.stmt
  | _, _ => False

variable {p q r : Position} {machine machine' : Machine}

theorem alike_self (p : Position) : p.Alike p := by
  cases p with
  | outside => trivial
  | inside place => rfl

theorem of_lines {line : Nat} {inner : Option Nat} (h : p.lines = some (line, inner)) :
    ∃ stmt last, p = .inside ⟨stmt, last⟩ ∧ stmt.line = line ∧ last.map Stmt.line = inner := by
  cases p with
  | outside => cases h
  | inside place =>
    cases h
    exact ⟨place.stmt, place.last, rfl, rfl, rfl⟩

theorem Alike.eq_outside (h : Position.outside.Alike q) : q = .outside := by
  cases q with
  | outside => rfl
  | inside _ => cases h

theorem Alike.of_inside {place : Place} (h : (Position.inside place).Alike q) :
    ∃ place', q = .inside place' ∧ place'.stmt = place.stmt := by
  cases q with
  | outside => cases h
  | inside place' => exact ⟨place', rfl, h⟩

theorem Alike.trans (first : p.Alike q) (second : q.Alike r) : p.Alike r := by
  cases p with
  | outside =>
    rw [first.eq_outside] at second
    exact second
  | inside place =>
    obtain ⟨place', rfl, same⟩ := first.of_inside
    obtain ⟨place'', rfl, same'⟩ := second.of_inside
    exact same'.trans same

theorem Shows.of_line (h : p.Shows machine) (same : machine'.line = machine.line) :
    p.Shows machine' := by
  cases p with
  | outside => trivial
  | inside place => exact same.trans h

/-- A statement leaves the console on the line that it shows, and the one around it knows. -/
theorem Shows.passed {nested : Place} (shown : machine'.line = nested.shown.line) :
    p.Alike (p.passed (.inside nested)) ∧ (p.passed (.inside nested)).Shows machine' := by
  cases p with
  | outside => exact ⟨trivial, trivial⟩
  | inside place => exact ⟨rfl, shown⟩

end Position

/-! ## Running with a position -/

/-- Evaluation on a machine, with the position in the program. -/
abbrev Located : Type → Type := EStateM Fault (Position × Machine)

namespace Located

variable {α β : Type}

/-- Takes a step of the machine, and stays where it is. -/
def step (exec : Exec α) : Located α := fun (position, machine) =>
  match exec machine with
  | .ok answer machine => .ok answer (position, machine)
  | .error fault machine => .error fault (position, machine)

/-- Changes the machine before and after. -/
def between (before after : Machine → Machine) (inside : Located α) : Located α :=
  fun (position, machine) =>
    match inside (position, before machine) with
    | .ok answer (position, machine) => .ok answer (position, after machine)
    | .error fault (position, machine) => .error fault (position, after machine)

/-- Executes a statement, with nothing executed inside it yet.  If it fails, the run stays in it. -/
def statement (stmt : Stmt) (inside : Located α) : Located α := fun (position, machine) =>
  match inside (.inside ⟨stmt, none⟩, machine) with
  | .ok answer (nested, machine) => .ok answer (position.passed nested, machine)
  | .error fault state => .error fault state

/-- Executes the body of a function.  If it succeeds, the run is back in the statement of the
call. -/
def activation (inside : Located α) : Located α := fun (position, machine) =>
  match inside (position, machine) with
  | .ok answer (_, machine) => .ok answer (position, machine)
  | .error fault state => .error fault state

instance : Runner Located where
  step := step
  declare table name type := step (Machine.declareVariable table name type)
  between := between
  part kind inside :=
    match kind with
    | .statement stmt => statement stmt inside
    | .activation => activation inside
    | .expression | .block | .loop | .iteration | .call => inside

/-! ## The position shows the line -/

/-- Both ended alike.  The console is on the line that the position shows, and after an answer the
position is in the same statement as before. -/
inductive Ended (position : Position) :
    EStateM.Result Fault (Position × Machine) α → EStateM.Result Fault Machine α → Prop where
  | ok {position' : Position} {machine : Machine} (a : α) :
      position.Alike position' → position'.Shows machine →
      Ended position (.ok a (position', machine)) (.ok a machine)
  | error {position' : Position} {machine : Machine} (fault : Fault) :
      position'.Shows machine →
      Ended position (.error fault (position', machine)) (.error fault machine)

/-- From a position that shows the line of the console the two end alike. -/
def FollowsAt (position : Position) (x : Located α) (y : Exec α) : Prop :=
  ∀ machine, position.Shows machine → Ended position (x (position, machine)) (y machine)

/-- From every position that shows the line of the console the two end alike. -/
def Follows (x : Located α) (y : Exec α) : Prop :=
  ∀ position, FollowsAt position x y

variable {x : Located α} {y : Exec α} {f : α → Located β} {g : α → Exec β} {position : Position}

theorem followsAt_bind (first : FollowsAt position x y)
    (next : ∀ a position', position.Alike position' → FollowsAt position' (f a) (g a)) :
    FollowsAt position (x >>= f) (y >>= g) := by
  intro machine shows
  have ended := first machine shows
  show Ended position (EStateM.bind x f (position, machine)) (EStateM.bind y g machine)
  unfold EStateM.bind
  generalize x (position, machine) = located, y machine = plain at ended
  cases ended with
  | error fault shows' => exact .error fault shows'
  | @ok position' machine' a alike shows' =>
    have rest := next a position' alike machine' shows'
    simp only
    generalize f a (position', machine') = located', g a machine' = plain' at rest
    cases rest with
    | ok b alike' shows'' => exact .ok b (alike.trans alike') shows''
    | error fault shows'' => exact .error fault shows''

theorem follows_pure (a : α) : Follows (pure a) (pure a) :=
  fun position _ shows => .ok a position.alike_self shows

theorem follows_bind (first : Follows x y) (next : ∀ a, Follows (f a) (g a)) :
    Follows (x >>= f) (y >>= g) :=
  fun position => followsAt_bind (first position) fun a position' _ => next a position'

/-- A step that stays on its line stays in its statement. -/
theorem follows_step {exec : Exec α} (h : KeepsLine exec) :
    Follows (Runner.step exec) (Runner.step exec) := by
  intro position machine shows
  have same := h machine
  show Ended position (step exec (position, machine)) (exec machine)
  unfold step
  cases ended : exec machine with
  | ok a machine' =>
    rw [ended] at same
    simp only [ended]
    exact .ok a position.alike_self (shows.of_line same)
  | error fault machine' =>
    rw [ended] at same
    simp only [ended]
    exact .error fault (shows.of_line same)

/-- Outside all statements any step will do. -/
theorem followsAt_step_outside (exec : Exec α) :
    FollowsAt .outside (Runner.step exec) (Runner.step exec) := by
  intro machine _
  show Ended .outside (step exec (.outside, machine)) (exec machine)
  simp only [step]
  cases exec machine with
  | ok a machine' => exact .ok a (by trivial) (by trivial)
  | error fault machine' => exact .error fault (by trivial)

/-- A result that is known does not change the position either. -/
theorem follows_check (result : Except Fault α)
    (h : ∀ a, result = .ok a → Follows (f a) (g a)) :
    Follows (Runner.step (Exec.of result) >>= f) (Runner.step (Exec.of result) >>= g) := by
  intro position machine shows
  cases result with
  | ok a => exact h a rfl position machine shows
  | error fault => exact .error fault shows

theorem followsAt_between {before after : Machine → Machine}
    (before_line : ∀ machine, (before machine).line = machine.line)
    (after_line : ∀ machine, (after machine).line = machine.line)
    (h : FollowsAt position x y) :
    FollowsAt position (Runner.between before after x) (Runner.between before after y) := by
  intro machine shows
  have ended := h (before machine) (shows.of_line (before_line machine))
  show Ended position (between before after x (position, machine)) _
  simp only [between, Runner.between]
  generalize x (position, before machine) = located, y (before machine) = plain at ended
  cases ended with
  | @ok position' machine' a alike shows' =>
    exact .ok a alike (shows'.of_line (after_line machine'))
  | @error position' machine' fault shows' =>
    exact .error fault (shows'.of_line (after_line machine'))

theorem line_close (machine : Machine) : machine.close.line = machine.line := by
  unfold Machine.line
  rw [Machine.close_console]

theorem followsAt_inFrame (opening : Frame → Frame) (h : FollowsAt position x y) :
    FollowsAt position (Runner.inFrame opening x) (Runner.inFrame opening y) :=
  followsAt_between (fun _ => rfl) line_close h

/-- A statement moves to its own line first.  After that the console is on the line of the last
statement that was entered. -/
theorem follows_statement {x : Located Flow} {y : Exec Flow} (stmt : Stmt) (h : Follows x y) :
    Follows (Runner.part (.statement stmt) (Runner.step (Exec.setLine stmt.line) >>= fun _ => x))
      (Runner.part (.statement stmt) (Runner.step (Exec.setLine stmt.line) >>= fun _ => y)) := by
  intro position machine shows
  let entered := machine.onConsole (·.setLine stmt.line)
  show Ended position (statement stmt (step (Exec.setLine stmt.line) >>= fun _ => x)
    (position, machine)) (y entered)
  have moved : (step (Exec.setLine stmt.line) >>= fun _ => x) (.inside ⟨stmt, none⟩, machine) =
      x (.inside ⟨stmt, none⟩, entered) := rfl
  rw [statement, moved]
  have ended := h (.inside ⟨stmt, none⟩) entered rfl
  generalize x (.inside ⟨stmt, none⟩, entered) = located, y entered = plain at ended
  cases ended with
  | error fault shows' => exact .error fault shows'
  | @ok nested machine' a alike shows' =>
    obtain ⟨place, rfl, -⟩ := alike.of_inside
    obtain ⟨alike', shows''⟩ := Position.Shows.passed shows'
    exact .ok a alike' shows''

/-! ## Evaluation -/

/-- The rules of loops. -/
def followingLoops (limits : Limits) : LoopRules Located Exec limits where
  rel := Follows
  answer := follows_pure
  sequence := follows_bind
  start count := follows_step (Loop.keepsLine_start limits count)
  part kind member h := by
    rcases List.mem_cons.mp member with rfl | member
    · exact h
    · cases List.mem_singleton.mp member
      exact h

/-- The rules of evaluation. -/
def following (table : StructTable) (limits : Limits) :
    Congruence Located Exec table limits limits where
  rel _ := Follows
  known _ := True
  weaken h _ := h
  answer := follows_pure
  sequence := follows_bind
  step primitive := follows_step ((keepingLine table).primitive primitive)
  check result _ _ h := follows_check result h
  declare name type := follows_step (Machine.keepsLine_declareVariable table name type)
  lookup name _ _ h :=
    follows_bind (follows_step (Exec.keeps_ask _)) fun callee => h callee trivial
  part kind plain h := by
    cases kind with
    | expression | block | loop | iteration | call => exact h
    | statement _ | activation => simp at plain
  statement := follows_statement
  inFrame h position := followsAt_inFrame Frame.block (h position)
  whileTrue := (followingLoops limits).whileTrue
  afterFirst := (followingLoops limits).afterFirst

/-- A body that comes to its end gives the position of the call back; a body that fails leaves the
position of the failure. -/
theorem asCall_cases {inside : Located α} {inside' : Exec α} (h : Follows inside inside')
    {machine : Machine} (shows : position.Shows machine) :
    (∃ a machine', Runner.asCall inside (position, machine) = .ok a (position, machine') ∧
      Runner.asCall inside' machine = .ok a machine') ∨
    ∃ fault position' machine', position'.Shows machine' ∧
      Runner.asCall inside (position, machine) = .error fault (position', machine') ∧
      Runner.asCall inside' machine = .error fault machine' := by
  have counted : FollowsAt position
      (Runner.between (Machine.onConsole Console.deepen) (Machine.onConsole Console.exitCall)
        (Runner.inFrame Frame.activation inside))
      (Runner.between (Machine.onConsole Console.deepen) (Machine.onConsole Console.exitCall)
        (Runner.inFrame Frame.activation inside')) :=
    followsAt_between (fun _ => rfl) (fun _ => rfl) (followsAt_inFrame _ (h position))
  have ended := counted machine shows
  simp only [Runner.asCall, Runner.part, activation]
  generalize Runner.between (Machine.onConsole Console.deepen) (Machine.onConsole Console.exitCall)
      (Runner.inFrame Frame.activation inside) (position, machine) = located,
    Runner.between (Machine.onConsole Console.deepen) (Machine.onConsole Console.exitCall)
      (Runner.inFrame Frame.activation inside') machine = plain at ended
  cases ended with
  | ok a alike shows' => exact .inl ⟨a, _, rfl, rfl⟩
  | error fault shows' => exact .inr ⟨fault, _, _, shows', rfl, rfl⟩

/-- Moving to the line that the position shows brings the console back to it. -/
theorem followsAt_setLine {machine machine' : Machine} (shows : position.Shows machine)
    {f : Unit → Located α} {g : Unit → Exec α} (next : Follows (f ()) (g ())) :
    Ended position
      ((Runner.step (Exec.setLine machine.line) >>= f) (position, machine'))
      ((Runner.step (Exec.setLine machine.line) >>= g) machine') := by
  let back := machine'.onConsole (·.setLine machine.line)
  exact next position back (shows.of_line rfl)

/-- A call is over when its caller is back on its own line.  In between the console is on a line of
the called function. -/
theorem follows_call {inside : Located Flow} {inside' : Exec Flow} (h : Follows inside inside')
    (result : Flow → Except Fault Value) :
    Follows
      (Runner.step (Exec.ask fun machine => .ok machine.line) >>= fun line =>
        Runner.asCall inside >>= fun flow =>
          Runner.step (Exec.setLine line) >>= fun _ => Runner.step (Exec.of (result flow)))
      (Runner.step (Exec.ask fun machine => .ok machine.line) >>= fun line =>
        Runner.asCall inside' >>= fun flow =>
          Runner.step (Exec.setLine line) >>= fun _ => Runner.step (Exec.of (result flow))) := by
  intro position machine shows
  have asked : (Runner.step (Exec.ask fun machine => .ok machine.line) : Located Nat)
      (position, machine) = .ok machine.line (position, machine) := rfl
  have asked' : (Runner.step (Exec.ask fun machine => .ok machine.line) : Exec Nat) machine =
      .ok machine.line machine := rfl
  rw [bind_of_ok asked, bind_of_ok asked']
  rcases asCall_cases h shows with
    ⟨flow, machine', done, done'⟩ | ⟨fault, position', machine', shows', failed, failed'⟩
  · rw [bind_of_ok done, bind_of_ok done']
    exact followsAt_setLine shows (follows_step (Exec.keeps_of _))
  · rw [bind_of_error failed, bind_of_error failed']
    exact .error fault shows'

open Congruence in
/-- Calls follow one another however many of them may still be opened. -/
theorem follows_callWithin (env : Env) (left : Nat) :
    (following env.structs env.limits).CallsRelated 0 (callWithin env left)
      (callWithin env left) := by
  induction left with
  | zero =>
    intro function arguments _
    exact callWithin_zero (C := following env.structs env.limits) function arguments
  | succ left ih =>
    intro function arguments _
    refine follows_bind (follows_step (Exec.keeps_of _)) fun body => ?_
    refine follows_bind (follows_step (Exec.keeps_of _)) fun params => ?_
    exact follows_call (callBody ih params body) function.result

/-! ## Programs -/

theorem follows_exec (env : Env) (stmt : Stmt) :
    Follows (stmt.exec env : Located Flow) (stmt.exec env : Exec Flow) := by
  refine follows_bind (follows_step (Exec.keeps_ask _)) fun left => ?_
  exact Congruence.exec (follows_callWithin env left) stmt

theorem follows_callee (env : Env) (callee : Callee) (arguments : List Value) :
    Follows (callee.call env arguments : Located Value)
      (callee.call env arguments : Exec Value) := by
  refine follows_bind (follows_step (Exec.keeps_ask _)) fun left => ?_
  exact EvalCongruence.callWith (follows_callWithin env left) callee trivial arguments

theorem followsAt_bind_outside (first : FollowsAt .outside x y)
    (next : ∀ a, FollowsAt .outside (f a) (g a)) : FollowsAt .outside (x >>= f) (y >>= g) := by
  refine followsAt_bind first fun a position' alike => ?_
  rw [alike.eq_outside]
  exact next a

theorem followsAt_bindAll (functions : List LibraryFunction) :
    FollowsAt .outside (bindAll functions) (bindAll functions) := by
  induction functions with
  | nil => exact follows_pure () .outside
  | cons function rest ih => exact followsAt_bind_outside (followsAt_step_outside _) fun _ => ih

theorem followsAt_declareFunctions (functions : List FunctionDef) :
    FollowsAt .outside (declareFunctions functions) (declareFunctions functions) := by
  induction functions with
  | nil => exact follows_pure () .outside
  | cons function rest ih =>
    refine followsAt_bind_outside (followsAt_step_outside _) fun _ => ?_
    exact followsAt_bind_outside (followsAt_step_outside _) fun _ => ih

theorem followsAt_executeGlobals (env : Env) (globals : List Stmt) :
    FollowsAt .outside (executeGlobals env globals) (executeGlobals env globals) := by
  induction globals with
  | nil => exact follows_pure () .outside
  | cons stmt rest ih => exact followsAt_bind_outside (follows_exec env stmt .outside) fun _ => ih

/-- A located run of a program is the run of it. -/
theorem followsAt_execute (env : Env) (program : Program) :
    FollowsAt .outside (program.execute env) (program.execute env) := by
  refine followsAt_bind_outside (followsAt_bindAll _) fun _ => ?_
  refine followsAt_inFrame Frame.block (followsAt_bind_outside ?_ fun _ => ?_)
  · refine followsAt_bind_outside (followsAt_declareFunctions _) fun _ => ?_
    exact followsAt_executeGlobals env program.globals
  · refine followsAt_bind_outside (followsAt_step_outside _) fun main => ?_
    refine followsAt_bind_outside (follows_callee env main [] .outside) fun status => ?_
    exact follows_pure _ .outside

end Located

/-- A run of a program on an input: where it ended, and its outcome. -/
def Program.locate (structs : StructTable) (config : Config) (input : String) (program : Program) :
    Position × Outcome :=
  let console := Console.start input.toList
  match Image.create config.regions with
  | .error fault => (.outside, .ofFault fault console)
  | .ok image =>
    let execute : Located Int := program.execute ⟨structs, config.limits⟩
    match execute (.outside, Machine.start image console) with
    | .ok status (position, machine) => (position, ⟨.finished status, machine.console⟩)
    | .error fault (position, machine) => (position, .ofFault fault machine.console)

/-- A failure is reported at the line of the console. -/
theorem Outcome.line_of_failed {fault : Fault} {console : Console} {failure : Failure}
    (h : (Outcome.ofFault fault console).ending = .failed failure) :
    failure.line = console.line :=
  congrArg Failure.line (Ending.ofFault_eq_failed h)

/-- **The line of a failure.**  A located run has the outcome of the run.  A failure inside a
statement, the innermost one of the innermost call, is reported at the line of that statement if no
other statement was executed inside it before, and otherwise at the line of the last one that was. -/
theorem failures_reported_at_shown_line (structs : StructTable) (config : Config) (input : String)
    (program : Program) :
    (program.locate structs config input).2 = program.run structs config input ∧
      ∀ failure stmt last, (program.run structs config input).ending = .failed failure →
        (program.locate structs config input).1 = .inside ⟨stmt, last⟩ →
        (last = none → failure.line = stmt.line) ∧
          ∀ inner, last = some inner → failure.line = inner.line := by
  unfold Program.locate Program.run
  cases Image.create config.regions with
  | error fault => exact ⟨rfl, fun _ _ _ _ located => nomatch located⟩
  | ok image =>
    have ended := Located.followsAt_execute ⟨structs, config.limits⟩ program
      (Machine.start image (Console.start input.toList)) trivial
    simp only
    generalize (program.execute ⟨structs, config.limits⟩ : Located Int)
        (.outside, Machine.start image (Console.start input.toList)) = located,
      (program.execute ⟨structs, config.limits⟩ : Exec Int)
        (Machine.start image (Console.start input.toList)) = plain at ended
    cases ended with
    | ok status alike shows => exact ⟨rfl, fun _ _ _ failed => nomatch failed⟩
    | @error position machine fault shows =>
      refine ⟨rfl, fun failure stmt last failed located => ?_⟩
      simp only at located
      subst located
      have reported : failure.line = (Place.mk stmt last).shown.line :=
        (Outcome.line_of_failed failed).trans shows
      exact ⟨fun fresh => by rw [reported, fresh]; rfl, fun inner after => by rw [reported, after]; rfl⟩

/-- A program that fails inside a call: the divisor of the called function is zero. -/
def dividesByZero : Program :=
  { functions :=
      [⟨"quotient", .int, [⟨"n", .int⟩],
          some
            [.ifElse 2 (.var "n") [] [.expression 3 (.assign .plain (.var "n") (.number .zero))],
              .returnValue 4 (some (.binary .div (.number (.ofNat 1)) (.var "n")))], 1⟩,
        ⟨"main", .int, [],
          some
            [.block 6 [.expression 7 (.call "quotient" [.number (.ofNat 1)])],
              .returnValue 8 (some (.call "quotient" [.number .zero]))], 5⟩]
    globals := [] }

/-- The failure is reported at the line of the statement in the called function that divides. -/
theorem dividesByZero_reported_where_it_divides :
    ∃ failure stmt,
      (dividesByZero.run .empty ⟨⟨4, 16, 32, .reclaim⟩, {}⟩ "").ending = .failed failure ∧
      (dividesByZero.locate .empty ⟨⟨4, 16, 32, .reclaim⟩, {}⟩ "").1 = .inside ⟨stmt, none⟩ ∧
      failure.line = stmt.line ∧ stmt.line = 4 := by
  obtain ⟨-, reported⟩ := failures_reported_at_shown_line .empty ⟨⟨4, 16, 32, .reclaim⟩, {}⟩ ""
    dividesByZero
  have failed : (dividesByZero.run .empty ⟨⟨4, 16, 32, .reclaim⟩, {}⟩ "").ending =
      .failed ⟨.arithmetic .divisionByZero, 4⟩ := by decide +kernel
  have lines : (dividesByZero.locate .empty ⟨⟨4, 16, 32, .reclaim⟩, {}⟩ "").1.lines =
      some (4, none) := by decide +kernel
  obtain ⟨stmt, last, located, line, inner⟩ := Position.of_lines lines
  rw [Option.map_eq_none_iff] at inner
  subst inner
  exact ⟨_, stmt, failed, located, (reported _ _ _ failed located).1 rfl, line⟩

/-- A program that fails in the second test of a loop: the body has made the divisor zero. -/
def drainsDivisor : Program :=
  { functions :=
      [⟨"main", .int, [],
          some
            [.declare 2 "x" .int (some (.number (.ofNat 1))),
              .whileLoop 3 (.binary .div (.number (.ofNat 1)) (.var "x"))
                [.expression 4 (.assign .plain (.var "x") (.number .zero))]], 1⟩]
    globals := [] }

/-- The loop stands on line 3, but its failing test is reported at line 4, where its body was
left. -/
theorem drainsDivisor_reported_in_loop_body :
    (drainsDivisor.run .empty ⟨⟨4, 16, 32, .reclaim⟩, {}⟩ "").ending =
        .failed ⟨.arithmetic .divisionByZero, 4⟩ ∧
      (drainsDivisor.locate .empty ⟨⟨4, 16, 32, .reclaim⟩, {}⟩ "").1.lines = some (3, some 4) := by
  constructor <;> decide +kernel

end FlatC

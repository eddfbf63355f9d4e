import FlatC.Proofs.Eval.Lockstep
import FlatC.Proofs.Scope.Declare

/-!
# Watched runs

A watched run takes the same steps as a run, and keeps a record of them: every state of the
machine, every slot that was claimed for a variable, and the parts of the run, each with what
happened inside it.

* `Trace` is the record, with what can be read off it: `Trace.parts` counts the parts,
  `Trace.openCalls` the calls that were open at once, `Trace.LoopsWithin` bounds the iterations of
  each loop, `Trace.states` and `Trace.slots` list states and slots;
* `Traced` is the runner that keeps the record;
* `Traced.forgetting` says that it runs everything as `Exec` does;
* `Program.watch` is a watched run of a program.
-/

namespace FlatC

/-- A record of a run. -/
inductive Trace where
  | nothing
  /-- The machine got into a state. -/
  | state (machine : Machine) (rest : Trace)
  /-- A variable was declared. -/
  | declared (slot : Slot) (rest : Trace)
  /-- A part of the run, and what happened inside it. -/
  | part (kind : Part) (inside rest : Trace)

namespace Trace

/-! ## Reading a record -/

/-- One record after another. -/
def append : Trace → Trace → Trace
  | nothing, later => later
  | state machine rest, later => state machine (rest.append later)
  | declared slot rest, later => declared slot (rest.append later)
  | part kind inside rest, later => part kind inside (rest.append later)

/-- All states, in order. -/
def states : Trace → List Machine
  | nothing => []
  | state machine rest => machine :: rest.states
  | declared _ rest => rest.states
  | part _ inside rest => inside.states ++ rest.states

/-- The slots of all variables that were declared, in order. -/
def slots : Trace → List Slot
  | nothing => []
  | state _ rest => rest.slots
  | declared slot rest => slot :: rest.slots
  | part _ inside rest => inside.slots ++ rest.slots

/-- The number of all parts. -/
def parts : Trace → Nat
  | nothing => 0
  | state _ rest | declared _ rest => rest.parts
  | part _ inside rest => inside.parts + 1 + rest.parts

/-- The number of iterations, those inside other parts not counted. -/
def iterations : Trace → Nat
  | nothing => 0
  | state _ rest | declared _ rest => rest.iterations
  | part kind _ rest => (if kind = .iteration then 1 else 0) + rest.iterations

/-- No loop has started more than `limit` iterations. -/
def LoopsWithin (limit : Nat) : Trace → Prop
  | nothing => True
  | state _ rest | declared _ rest => rest.LoopsWithin limit
  | part kind inside rest =>
    (kind = .loop → inside.iterations ≤ limit) ∧ inside.LoopsWithin limit ∧ rest.LoopsWithin limit

/-- The greatest number of calls that were open at once. -/
def openCalls : Trace → Nat
  | nothing => 0
  | state _ rest | declared _ rest => rest.openCalls
  | part kind inside rest =>
    max (inside.openCalls + if kind = .activation then 1 else 0) rest.openCalls

variable (t later : Trace)

@[simp] theorem states_append : (t.append later).states = t.states ++ later.states := by
  induction t with
  | nothing => rfl
  | state machine rest ih => simp [append, states, ih]
  | declared slot rest ih => simp [append, states, ih]
  | part kind inside rest _ ih => simp [append, states, ih]

@[simp] theorem slots_append : (t.append later).slots = t.slots ++ later.slots := by
  induction t with
  | nothing => rfl
  | state machine rest ih => simp [append, slots, ih]
  | declared slot rest ih => simp [append, slots, ih]
  | part kind inside rest _ ih => simp [append, slots, ih]

@[simp] theorem parts_append : (t.append later).parts = t.parts + later.parts := by
  induction t with
  | nothing => simp [append, parts]
  | state machine rest ih => simp [append, parts, ih]
  | declared slot rest ih => simp [append, parts, ih]
  | part kind inside rest _ ih => simp [append, parts, ih, Nat.add_assoc]

@[simp] theorem iterations_append :
    (t.append later).iterations = t.iterations + later.iterations := by
  induction t with
  | nothing => simp [append, iterations]
  | state machine rest ih => simp [append, iterations, ih]
  | declared slot rest ih => simp [append, iterations, ih]
  | part kind inside rest _ ih => simp [append, iterations, ih, Nat.add_assoc]

@[simp] theorem loopsWithin_append (limit : Nat) :
    (t.append later).LoopsWithin limit ↔ t.LoopsWithin limit ∧ later.LoopsWithin limit := by
  induction t with
  | nothing => simp [append, LoopsWithin]
  | state machine rest ih => simp [append, LoopsWithin, ih]
  | declared slot rest ih => simp [append, LoopsWithin, ih]
  | part kind inside rest _ ih => simp [append, LoopsWithin, ih, and_assoc]

@[simp] theorem openCalls_append :
    (t.append later).openCalls = max t.openCalls later.openCalls := by
  induction t with
  | nothing => simp [append, openCalls]
  | state machine rest ih => simp [append, openCalls, ih]
  | declared slot rest ih => simp [append, openCalls, ih]
  | part kind inside rest _ ih => simp [append, openCalls, ih, Nat.max_assoc]

end Trace

/-! ## Watching -/

/-- A watched step of the machine. -/
def Traced (α : Type) : Type :=
  Machine → Trace × EStateM.Result Fault Machine α

namespace Traced

open Step

variable {α β : Type}

/-- Runs one thing after another, unless the first one fails. -/
def andThen (x : Traced α) (f : α → Traced β) : Traced β := fun machine =>
  match x machine with
  | (t, .ok answer machine) => (t.append (f answer machine).1, (f answer machine).2)
  | (t, .error fault machine) => (t, .error fault machine)

instance : Monad Traced where
  pure answer := fun machine => (.nothing, .ok answer machine)
  bind := andThen

theorem bind_ok {x : Traced α} {f : α → Traced β} {machine machine' : Machine} {t : Trace}
    {answer : α} (h : x machine = (t, .ok answer machine')) :
    (x >>= f) machine = (t.append (f answer machine').1, (f answer machine').2) := by
  show andThen x f machine = _
  rw [andThen, h]

theorem bind_error {x : Traced α} {f : α → Traced β} {machine machine' : Machine} {t : Trace}
    {fault : Fault} (h : x machine = (t, .error fault machine')) :
    (x >>= f) machine = (t, .error fault machine') := by
  show andThen x f machine = _
  rw [andThen, h]

/-- A step of the machine, and the state it leaves behind. -/
def ofExec (exec : Exec α) : Traced α := fun machine =>
  (.state (left (exec machine)) .nothing, exec machine)

/-- The record of a declaration: the slot if it succeeded, and the state it left behind. -/
def recordOf (plan : Except Fault (Nat × Nat)) (result : EStateM.Result Fault Machine Value) :
    Trace :=
  match plan, result with
  | .ok (address, size), .ok _ machine => .declared ⟨address, size⟩ (.state machine .nothing)
  | _, result => .state (left result) .nothing

theorem recordOf_error (plan : Except Fault (Nat × Nat)) (fault : Fault) (machine : Machine) :
    recordOf plan (.error fault machine) = .state machine .nothing := by
  unfold recordOf
  split <;> simp_all [left]

/-- A declaration with its record. -/
def declare (table : StructTable) (name : String) (type : CType) : Traced Value := fun machine =>
  let result := Machine.declareVariable table name type machine
  (recordOf (machine.planVariable table name type) result, result)

/-- A result with its state changed. -/
def changing (after : Machine → Machine) :
    EStateM.Result Fault Machine α → EStateM.Result Fault Machine α
  | .ok answer machine => .ok answer (after machine)
  | .error fault machine => .error fault (after machine)

theorem left_changing (after : Machine → Machine) (result : EStateM.Result Fault Machine α) :
    left (changing after result) = after (left result) := by
  cases result <;> rfl

/-- Something between two changes of the machine, with the states they lead to. -/
def between (before after : Machine → Machine) (inside : Traced α) : Traced α := fun machine =>
  let (t, result) := inside (before machine)
  (.state (before machine) (t.append (.state (after (left result)) .nothing)),
    changing after result)

instance : Runner Traced where
  step := ofExec
  declare := declare
  between := between
  part kind inside := fun machine =>
    (.part kind (inside machine).1 .nothing, (inside machine).2)

/-! ## Forgetting the record -/

/-- The watched step does what the step does. -/
def Runs (x : Traced α) (y : Exec α) : Prop :=
  ∀ machine, (x machine).2 = y machine

namespace Runs

variable {x : Traced α} {y : Exec α} {f : α → Traced β} {g : α → Exec β}

theorem bind (first : Runs x y) (next : ∀ a, Runs (f a) (g a)) : Runs (x >>= f) (y >>= g) := by
  intro machine
  have start := first machine
  rcases h : x machine with ⟨t, ⟨answer, machine'⟩ | ⟨fault, machine'⟩⟩
  · rw [h] at start
    rw [Traced.bind_ok h, bind_of_ok start.symm]
    exact next answer machine'
  · rw [h] at start
    rw [Traced.bind_error h, bind_of_error start.symm]

theorem step (exec : Exec α) : Runs (Runner.step exec) (Runner.step exec) :=
  fun _ => rfl

theorem declare (table : StructTable) (name : String) (type : CType) :
    Runs (Runner.declare table name type) (Runner.declare table name type) :=
  fun _ => rfl

theorem between (before after : Machine → Machine) (inside : Runs x y) :
    Runs (Runner.between before after x) (Runner.between before after y) := by
  intro machine
  have same := inside (before machine)
  show changing after (x (before machine)).2 = match y (before machine) with
    | .ok answer machine => .ok answer (after machine)
    | .error fault machine => .error fault (after machine)
  rw [same]
  cases y (before machine) <;> rfl

theorem part (kind : Part) (inside : Runs x y) :
    Runs (Runner.part kind x) (Runner.part kind y) :=
  inside

end Runs

/-- Watching changes nothing about evaluation. -/
def forgetting (table : StructTable) (limits : Limits) : Lockstep Traced Exec table limits where
  rel := Runs
  answer _ := fun _ => rfl
  sequence := Runs.bind
  step _ := Runs.step _
  check result _ _ h := by
    cases result with
    | ok a => exact fun machine => h a rfl machine
    | error fault => exact fun _ => rfl
  declare := Runs.declare table
  bindFunction _ _ := Runs.step _
  part := Runs.part
  inFrame h := Runs.between _ _ h
  asCall h := Runs.part .activation (Runs.between _ _ (Runs.between _ _ h))

end Traced

/-! ## Watched programs -/

/-- A watched run of a program on an input: its record and its outcome. -/
def Program.watch (structs : StructTable) (config : Config) (input : String) (program : Program) :
    Trace × Outcome :=
  let console := Console.start input.toList
  match Image.create config.regions with
  | .error fault => (.nothing, .ofFault fault console)
  | .ok image =>
    let execute : Traced Int := program.execute ⟨structs, config.limits⟩
    let machine := Machine.start image console
    (.state machine (execute machine).1, .ofResult (execute machine).2)

/-- A watched run has the outcome of the run. -/
theorem Program.watch_outcome (structs : StructTable) (config : Config) (input : String)
    (program : Program) :
    (program.watch structs config input).2 = program.run structs config input := by
  unfold watch run
  cases Image.create config.regions with
  | error fault => rfl
  | ok image =>
    have same := (Traced.forgetting structs config.limits).execute program
    simp only
    rw [same]

end FlatC

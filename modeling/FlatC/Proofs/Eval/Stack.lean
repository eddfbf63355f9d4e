import FlatC.Proofs.Eval.Trace
import FlatC.Proofs.Scope.Apart

/-!
# The stack of a run

Every state of every run is one that frames and declarations lead to.  So all that holds of the
stack in such states holds at every point of every run, also where the run has just failed.

* `Traced.Stays` says that watched steps stay among these states, and `Traced.staying` that all
  rules of a run do.
-/

namespace FlatC

namespace Traced

open Step Machine

variable {α β : Type} {table : StructTable} {shape : Shape}

/-- From every state that can be reached, all states that follow can be reached too, the last one
with the slots of the record. -/
def Stays (table : StructTable) (shape : Shape) (x : Traced α) : Prop :=
  ∀ slots machine, Reached table shape slots machine →
    (∀ state ∈ (x machine).1.states, ∃ slots', Reached table shape slots' state) ∧
      Reached table shape (slots ++ (x machine).1.slots) (left (x machine).2)

namespace Stays

variable {x : Traced α} {f : α → Traced β}

theorem answer (a : α) : Stays table shape (pure a) := by
  intro slots machine reached
  exact ⟨nofun, by simpa [pure, Trace.slots, left] using reached⟩

theorem bind (first : Stays table shape x) (next : ∀ a, Stays table shape (f a)) :
    Stays table shape (x >>= f) := by
  intro slots machine reached
  obtain ⟨states, ending⟩ := first slots machine reached
  rcases h : x machine with ⟨t, ⟨answer, machine'⟩ | ⟨fault, machine'⟩⟩
  · rw [h] at states ending
    obtain ⟨states', ending'⟩ := next answer _ machine' ending
    rw [bind_ok h]
    refine ⟨fun state mem => ?_, ?_⟩
    · rw [Trace.states_append, List.mem_append] at mem
      rcases mem with early | late
      · exact states state early
      · exact states' state late
    · rw [Trace.slots_append, ← List.append_assoc]
      exact ending'
  · rw [h] at states ending
    rw [bind_error h]
    exact ⟨states, ending⟩

/-- A single step has one state. -/
theorem single {exec : Exec α}
    (h : ∀ slots machine, Reached table shape slots machine →
      Reached table shape slots (left (exec machine))) :
    Stays table shape (Runner.step exec) := by
  intro slots machine reached
  have ending := h slots machine reached
  refine ⟨fun state mem => ?_, ?_⟩
  · rw [List.mem_singleton.mp mem]
    exact ⟨slots, ending⟩
  · show Reached table shape (slots ++ []) _
    rwa [List.append_nil]

theorem step {exec : Exec α} (h : KeepsSetting exec) : Stays table shape (Runner.step exec) := by
  refine single fun slots machine reached => ?_
  exact reached.of_setting (h machine)

theorem check (result : Except Fault α) (h : ∀ a, result = .ok a → Stays table shape (f a)) :
    Stays table shape (Runner.step (Exec.of result) >>= f) := by
  cases result with
  | error fault =>
    intro slots machine reached
    exact step (Exec.keepsSetting_of (.error fault : Except Fault α)) slots machine reached
  | ok a =>
    intro slots machine reached
    obtain ⟨states, ending⟩ := h a rfl slots machine reached
    refine ⟨fun state mem => ?_, ending⟩
    rcases List.mem_cons.mp mem with rfl | later
    · exact ⟨slots, reached⟩
    · exact states state later

theorem declare (name : String) (type : CType) :
    Stays table shape (Runner.declare table name type) := by
  intro slots machine reached
  show (∀ state ∈ (recordOf (machine.planVariable table name type)
    (declareVariable table name type machine)).states, _) ∧
    Reached table shape (slots ++ (recordOf (machine.planVariable table name type)
      (declareVariable table name type machine)).slots)
      (left (declareVariable table name type machine))
  rcases machine.declareVariable_cases table name type with
    ⟨fault, machine', run, kept⟩ | ⟨value, image, address, size, plan, _, run⟩
  · have ending : Reached table shape slots machine' := reached.of_setting kept
    rw [run, recordOf_error]
    refine ⟨fun state mem => ?_, ?_⟩
    · rw [List.mem_singleton.mp mem]
      exact ⟨slots, ending⟩
    · show Reached table shape (slots ++ []) machine'
      rwa [List.append_nil]
  · have ending := reached.declared plan run
    rw [run, plan]
    refine ⟨fun state mem => ?_, ending⟩
    rw [List.mem_singleton.mp mem]
    exact ⟨_, ending⟩

/-- Something between two changes of the machine. -/
theorem between {before after : Machine → Machine}
    (entering : ∀ slots machine, Reached table shape slots machine →
      Reached table shape slots (before machine))
    (leaving : ∀ slots machine, Reached table shape slots machine →
      Reached table shape slots (after machine))
    (inside : Stays table shape x) : Stays table shape (Runner.between before after x) := by
  intro slots machine reached
  have entered := entering slots machine reached
  obtain ⟨states, ending⟩ := inside slots (before machine) entered
  have left_ending := leaving _ _ ending
  refine ⟨fun state mem => ?_, ?_⟩
  · have cases : state = before machine ∨ state ∈ (x (before machine)).1.states ∨
        state = after (left (x (before machine)).2) := by
      simpa [Runner.between, Traced.between, Trace.states] using mem
    rcases cases with rfl | during | rfl
    · exact ⟨slots, entered⟩
    · exact states state during
    · exact ⟨_, left_ending⟩
  · have slots_eq : ((Runner.between before after x : Traced α) machine).1.slots =
        (x (before machine)).1.slots := by
      simp [Runner.between, Traced.between, Trace.slots]
    have state_eq : left ((Runner.between before after x : Traced α) machine).2 =
        after (left (x (before machine)).2) := by
      simp only [Runner.between, Traced.between]
      exact left_changing after _
    rwa [slots_eq, state_eq]

theorem part (kind : Part) (inside : Stays table shape x) :
    Stays table shape (Runner.part kind x) := by
  intro slots machine reached
  obtain ⟨states, ending⟩ := inside slots machine reached
  refine ⟨fun state mem => ?_, ?_⟩
  · exact states state (by simpa [Runner.part, Trace.states] using mem)
  · simpa [Runner.part, Trace.slots] using ending

theorem inFrame {opening : Frame → Frame}
    (entering : ∀ slots machine, Reached table shape slots machine →
      Reached table shape slots (machine.enter opening))
    (inside : Stays table shape x) : Stays table shape (Runner.inFrame opening x) :=
  between entering (fun _ _ reached => reached.close) inside

/-- Counting calls leaves the stack alone. -/
theorem asCall (inside : Stays table shape x) : Stays table shape (Runner.asCall x) := by
  refine part .activation (between ?_ ?_ (inFrame (fun _ _ reached => reached.activation) inside))
  · exact fun _ _ reached => reached.other rfl rfl rfl
  · exact fun _ _ reached => reached.other rfl rfl rfl

end Stays

/-- The rules of evaluation stay among the states that can be reached. -/
def staying (table : StructTable) (shape : Shape) (limits : Limits) :
    Lockstep Traced Traced table limits where
  rel x _ := Stays table shape x
  answer a := .answer a
  sequence := .bind
  step elementary := .step elementary.keepsSetting
  check result _ _ h := .check result h
  declare := .declare
  bindFunction name callee := .single fun _ _ reached => reached.bound name callee
  part := .part
  inFrame h := .inFrame (fun _ _ reached => reached.block) h
  asCall := .asCall

theorem stays_execute (table : StructTable) (shape : Shape) (limits : Limits)
    (program : Program) : Stays table shape (program.execute ⟨table, limits⟩) :=
  (staying table shape limits).execute program

end Traced

/-! ## Runs -/

/-- A run starts in a state that can be reached. -/
theorem Machine.Reached.of_create {regions : Regions} {image : Image} (table : StructTable)
    (created : Image.create regions = .ok image) (console : Console) :
    Reached table image.shape [] (Machine.start image console) ∧ image.policy = regions.policy := by
  obtain ⟨-, isBlank⟩ := Image.of_create created
  have shape := Image.shape_blank regions
  rw [← isBlank] at shape
  refine ⟨.start console rfl ?_, congrArg Shape.policy shape⟩
  rw [shape]
  exact Nat.le_add_right _ _

namespace Program

variable (table : StructTable) (config : Config) (input : String) (program : Program)

theorem watch_tidyStack :
    ∀ machine ∈ (program.watch table config input).1.states, machine.TidyStack table := by
  intro machine mem
  unfold watch at mem
  cases created : Image.create config.regions with
  | error fault =>
    rw [created] at mem
    cases mem
  | ok image =>
    simp only [created] at mem
    obtain ⟨reached, -⟩ := Machine.Reached.of_create table created (Console.start input.toList)
    obtain ⟨states, -⟩ := Traced.stays_execute table image.shape config.limits program _ _ reached
    rcases List.mem_cons.mp mem with rfl | later
    · exact reached.wellStacked.tidyStack
    · obtain ⟨slots, reached'⟩ := states machine later
      exact reached'.wellStacked.tidyStack

theorem watch_slots_apart (grows : config.regions.policy = .growOnly) :
    (program.watch table config input).1.slots.Pairwise Slot.Apart := by
  unfold watch
  cases created : Image.create config.regions with
  | error fault => exact List.Pairwise.nil
  | ok image =>
    obtain ⟨reached, policy⟩ :=
      Machine.Reached.of_create table created (Console.start input.toList)
    obtain ⟨-, ending⟩ := Traced.stays_execute table image.shape config.limits program _ _ reached
    obtain ⟨ordered, -⟩ := ending.ordered (policy.trans grows)
    rw [List.nil_append] at ordered
    simp only [Trace.slots]
    exact ordered.imp Or.inl

end Program

/-- In every state that frames and declarations lead to, and at every point of every run, the
frames lie on the stack one above the other, the variables of all open frames are apart, and an
assignment to one of them changes no other.  If the stack only grows, the slots of all variables
that were ever declared are apart. -/
theorem live_variables_never_overlap (table : StructTable) :
    (∀ shape slots machine, Machine.Reached table shape slots machine →
      machine.TidyStack table ∧
      (machine.image.policy = .growOnly → slots.Pairwise Slot.Apart)) ∧
    (∀ config input (program : Program),
      (∀ machine ∈ (program.watch table config input).1.states, machine.TidyStack table) ∧
      (config.regions.policy = .growOnly →
        (program.watch table config input).1.slots.Pairwise Slot.Apart)) := by
  refine ⟨fun shape slots machine reached => ⟨reached.wellStacked.tidyStack, fun grows => ?_⟩,
    fun config input program => ⟨?_, ?_⟩⟩
  · have policy : shape.policy = .growOnly := by
      rw [← reached.shape_eq]
      exact grows
    exact (reached.ordered policy).1.imp Or.inl
  · exact program.watch_tidyStack table config input
  · exact program.watch_slots_apart table config input

/-- A program with a block that declares the name of an outer variable again, and a call inside. -/
def shadowing : Program :=
  { functions :=
      [⟨"twice", .int, [⟨"n", .int⟩],
          some [.returnValue 2 (some (.binary .add (.var "n") (.var "n")))], 1⟩,
        ⟨"main", .int, [],
          some
            [.declare 4 "n" .int (some (.number (.ofNat 3))),
              .block 5 [.declare 6 "n" .char none,
                .expression 7 (.assign .plain (.var "n") (.call "twice" [.number (.ofNat 4)]))],
              .returnValue 8 (some (.var "n"))], 3⟩]
    globals := [] }

/-- On a stack that only grows it claims three slots, and the outer variable keeps its value. -/
theorem shadowing_variables_never_overlap :
    let config : Config := ⟨⟨4, 16, 32, .growOnly⟩, ⟨1, 2⟩⟩
    let machine := (Machine.start (.blank config.regions) (.start [])).enter Frame.block
    (shadowing.run .empty config "").ending = .finished 3 ∧
    (shadowing.watch .empty config "").1.slots = [⟨20, 4⟩, ⟨24, 1⟩, ⟨28, 4⟩] ∧
    (shadowing.watch .empty config "").1.slots.Pairwise Slot.Apart ∧
    (∀ state ∈ (shadowing.watch .empty config "").1.states, state.TidyStack .empty) ∧
    machine.TidyStack .empty := by
  intro config machine
  obtain ⟨reached, watched⟩ := live_variables_never_overlap .empty
  obtain ⟨states, slots⟩ := watched config "" shadowing
  have start : Machine.Reached .empty (Image.blank config.regions).shape [] machine :=
    .block (.start _ rfl (by decide +kernel))
  exact ⟨by decide +kernel, by decide +kernel, slots rfl, states, (reached _ _ _ start).1⟩

end FlatC

import FlatC.Proofs.Eval.Visible
import FlatC.Proofs.Image.Wider

/-!
# Runs with a larger stack

A run with more room for its stack does what it did with less, step by step, as far as that run got:
every access that was in bounds reads the same bytes, every slot and every allocation lies where it
lay, and no step goes on after a fault of an earlier one.

* `Machine.Wider` compares two machines that differ in the size of their stacks;
* `widening` are the rules of evaluation from which it follows for programs;
* `run_unchanged_by_larger_stack` is the statement about runs.
-/

namespace FlatC

open Step

/-- The second machine is the first with more bytes at the end of its memory. -/
def Machine.Wider (small large : Machine) : Prop :=
  ∃ image, small.image.Wider image ∧ large = { small with image := image }

/-! ## Questions -/

namespace Machine.Wider

variable {small large : Machine}

theorem image (h : small.Wider large) : small.image.Wider large.image := by
  obtain ⟨image, wider, rfl⟩ := h
  exact wider

theorem frame (h : small.Wider large) : large.frame = small.frame := by
  obtain ⟨image, wider, rfl⟩ := h
  rfl

theorem console (h : small.Wider large) : large.console = small.console := by
  obtain ⟨image, wider, rfl⟩ := h
  rfl

theorem resolve (h : small.Wider large) (table : StructTable) (name : String) :
    Refined CleanExit (small.resolve table name) (large.resolve table name) := by
  unfold Machine.resolve
  rw [h.frame]
  refine .bind (.same _) fun binding _ => ?_
  split
  · exact .bind (h.image.read table _ _) fun _ _ => .same _
  · exact .same _

theorem valueOf (h : small.Wider large) (table : StructTable) (name : String) :
    Refined CleanExit (small.valueOf table name) (large.valueOf table name) :=
  .bind (h.resolve table name) fun _ _ => .same _

theorem functionOf (h : small.Wider large) (table : StructTable) (name : String) :
    Refined CleanExit (small.functionOf table name) (large.functionOf table name) :=
  .bind (h.resolve table name) fun _ _ => .same _

/-- Every question of evaluation has the same answer in the larger machine. -/
theorem question (h : small.Wider large) {table : StructTable} {α : Type}
    {question : Machine → Except Fault α} (asked : Machine.Question table question) :
    Refined CleanExit (question small) (question large) := by
  cases asked with
  | var name => exact h.valueOf table name
  | typeOf expr =>
    refine Expr.typeIn_refined (fun name => ?_) (fun name => h.functionOf table name) expr
    rw [h.frame]
  | text v => exact h.image.valueText v
  | length v => exact h.image.valueLength v
  | render pieces arguments => exact h.image.render pieces arguments

/-- A slot that fits the smaller stack has the same place on the larger one. -/
theorem placeSlot (h : small.Wider large) (table : StructTable) (type : CType) :
    Refined CleanExit (small.placeSlot table type) (large.placeSlot table type) := by
  have longer := h.image.size_le
  unfold Machine.placeSlot
  rw [h.frame]
  split
  · exact .unseen _ nofun
  · refine .bind (.same _) fun size _ => .bind (.same _) fun elementSize _ => ?_
    refine .bind (.same _) fun address _ => ?_
    by_cases fits : address + size ≤ small.image.size
    · simp only [if_pos fits, if_pos (Nat.le_trans fits longer)]
      exact .same _
    · simp only [if_neg fits]
      exact .unseen _ nofun

theorem planVariable (h : small.Wider large) (table : StructTable) (name : String) (type : CType) :
    Refined CleanExit (small.planVariable table name type)
      (large.planVariable table name type) := by
  unfold Machine.planVariable
  rw [h.frame]
  exact .guarded _ (.guarded _ (h.placeSlot table type))

end Machine.Wider

/-! ## Steps -/

namespace Exec

variable {α : Type}

theorem follows_ask {question : Machine → Except Fault α}
    (h : ∀ {small large : Machine}, small.Wider large →
      Refined CleanExit (question small) (question large)) :
    Follows Machine.Wider CleanExit (ask question) (ask question) :=
  fun _ _ wider => .of_refined wider (h wider)

theorem follows_onImage {step : Store α} (h : Follows Image.Wider CleanExit step step) :
    Follows Machine.Wider CleanExit (onImage step) (onImage step) := by
  rintro small large ⟨image, wider, rfl⟩
  have followed := h small.image image wider
  unfold onImage
  dsimp only
  generalize step small.image = ended, step image = ended' at followed
  cases followed with
  | ok a wider' => exact .ok a ⟨_, wider', rfl⟩
  | error fault wider' => exact .error fault ⟨_, wider', rfl⟩
  | unseen _ unseen => exact .unseen _ unseen

theorem follows_onConsole (step : ConsoleStep α) :
    Follows Machine.Wider CleanExit (onConsole step) (onConsole step) := by
  rintro small large ⟨image, wider, rfl⟩
  unfold onConsole
  dsimp only
  cases step small.console with
  | ok a console => exact .ok a ⟨image, wider, rfl⟩
  | error fault console => exact .error fault ⟨image, wider, rfl⟩

theorem follows_console (change : Console → Console) :
    Follows Machine.Wider CleanExit (Exec.console change) (Exec.console change) :=
  follows_modify fun _ _ ⟨image, wider, same⟩ => ⟨image, wider, by rw [same]; rfl⟩

/-- Steps of evaluation on the smaller machine are followed by those on the larger one. -/
def widening (table : StructTable) : AbortingRules table where
  holds step := Follows Machine.Wider CleanExit step step
  memory := Image.widening
  answer := follows_pure
  fault _ := follows_throw _
  sequence := follows_bind
  ask asked := follows_ask fun wider => wider.question asked
  onImage := follows_onImage
  print text := follows_console _
  nextWord := by
    rintro small large ⟨image, wider, rfl⟩
    exact .ok _ ⟨image, wider, rfl⟩
  nextChar := by
    rintro small large ⟨image, wider, rfl⟩
    exact .ok _ ⟨image, wider, rfl⟩
  abort _ := follows_throw _
  abortStore _ := follows_throw _
  element _ _ := Image.follows_query fun wider => wider.elementAt _ _ _

theorem follows_elementary {table : StructTable} {limits : Limits} {exec : Exec α}
    (h : Elementary table limits exec) : Follows Machine.Wider CleanExit exec exec := by
  cases h with
  | primitive primitive => exact (widening table).primitive primitive
  | line =>
    refine follows_ask fun {small large} wider => .of_eq ?_
    rw [wider.console]
  | setLine line => exact follows_console _
  | function name => exact follows_ask fun wider => wider.functionOf table name
  | start left => exact follows_onConsole _
  | callsLeft =>
    refine follows_ask fun {small large} wider => .of_eq ?_
    show Except.ok (limits.maxCallDepth - small.console.callDepth) = _
    rw [← wider.console]
    rfl

theorem follows_between {before after : Machine → Machine} {x y : Exec α}
    (entering : ∀ {small large : Machine}, small.Wider large → (before small).Wider (before large))
    (leaving : ∀ {small large : Machine}, small.Wider large → (after small).Wider (after large))
    (h : Follows Machine.Wider CleanExit x y) :
    Follows Machine.Wider CleanExit (Runner.between before after x)
      (Runner.between before after y) := by
  intro small large wider
  have followed := h _ _ (entering wider)
  simp only [Runner.between]
  generalize x (before small) = ended, y (before large) = ended' at followed
  cases followed with
  | ok a wider' => exact .ok a (leaving wider')
  | error fault wider' => exact .error fault (leaving wider')
  | unseen _ unseen => exact .unseen _ unseen

end Exec

namespace Machine.Wider

variable {small large : Machine}

theorem enter (h : small.Wider large) (opening : Frame → Frame) :
    (small.enter opening).Wider (large.enter opening) := by
  obtain ⟨image, wider, rfl⟩ := h
  exact ⟨image, wider, rfl⟩

theorem close (h : small.Wider large) : small.close.Wider large.close := by
  obtain ⟨image, wider, rfl⟩ := h
  have policy : image.policy = small.image.policy := by
    obtain ⟨bytes, -, rfl⟩ := wider
    rfl
  unfold Machine.close
  dsimp only
  split
  · exact ⟨image, wider, rfl⟩
  · rw [policy]
    exact ⟨image, wider, rfl⟩

theorem onConsole (h : small.Wider large) (change : Console → Console) :
    (small.onConsole change).Wider (large.onConsole change) := by
  obtain ⟨image, wider, rfl⟩ := h
  exact ⟨image, wider, rfl⟩

theorem bindSlot (h : small.Wider large) (name : String) (type : CType) (address size : Nat) :
    Wider { small with frame := small.frame.bindSlot name type address size }
      { large with frame := large.frame.bindSlot name type address size } := by
  obtain ⟨image, wider, rfl⟩ := h
  exact ⟨image, wider, rfl⟩

end Machine.Wider

theorem Exec.follows_inFrame {α : Type} (opening : Frame → Frame) {x y : Exec α}
    (h : Follows Machine.Wider CleanExit x y) :
    Follows Machine.Wider CleanExit (Runner.inFrame opening x) (Runner.inFrame opening y) :=
  follows_between (fun wider => wider.enter opening) (fun wider => wider.close) h

namespace Machine

theorem follows_declareVariable (table : StructTable) (name : String) (type : CType) :
    Follows Wider CleanExit (declareVariable table name type)
      (declareVariable table name type) := by
  have planned := Exec.follows_ask fun wider => wider.planVariable table name type
  refine follows_bind planned fun slot => ?_
  refine follows_bind (Exec.follows_onImage (Image.widening.fill _ _ 0)) fun _ => ?_
  have reading := Exec.follows_ask fun wider => wider.image.read table slot.1 type
  refine follows_bind reading fun value => ?_
  refine follows_bind (follows_modify fun _ _ wider => wider.bindSlot _ _ _ _) fun _ => ?_
  exact follows_pure value

theorem follows_declareFunction (name : String) (callee : Callee) :
    Follows Wider CleanExit (declareFunction name callee) (declareFunction name callee) := by
  rintro small large ⟨image, wider, rfl⟩
  unfold declareFunction
  dsimp only
  split
  · exact .ok _ ⟨image, wider, rfl⟩
  · exact .error _ ⟨image, wider, rfl⟩

end Machine

/-! ## Programs -/

/-- Evaluation on the smaller machine is followed by evaluation on the larger one. -/
def widening (table : StructTable) (limits : Limits) : Lockstep Exec Exec table limits where
  rel := Follows Machine.Wider CleanExit
  answer := follows_pure
  sequence := follows_bind
  step := Exec.follows_elementary
  check result _ _ h := by
    cases result with
    | ok a => exact fun small large wider => h a rfl small large wider
    | error fault => exact fun _ _ wider => .error fault wider
  declare := Machine.follows_declareVariable table
  bindFunction := Machine.follows_declareFunction
  part _ h := h
  inFrame := Exec.follows_inFrame Frame.block
  asCall h :=
    Exec.follows_between (fun wider => wider.onConsole _) (fun wider => wider.onConsole _)
      (Exec.follows_inFrame Frame.activation h)

theorem Machine.wider_start {small large : Image} (h : small.Wider large) (console : Console) :
    (Machine.start small console).Wider (Machine.start large console) := by
  obtain ⟨bytes, starts, rfl⟩ := id h
  exact ⟨_, h, rfl⟩

/-- A fault that ends a run well is a request to end it. -/
theorem Outcome.cleanExit_of_finished {fault : Fault} {console : Console} {status : Int}
    (h : (Outcome.ofFault fault console).ending = .finished status) : CleanExit fault :=
  Ending.isCleanExit_of_finished h

/-- An execution that ends well has the outcome of the one that follows it. -/
theorem Outcome.ofResult_of_followed {small large : EStateM.Result Fault Machine Int}
    (h : Followed Machine.Wider CleanExit small large) {status : Int}
    (ended : (Outcome.ofResult small).ending = .finished status) :
    Outcome.ofResult large = Outcome.ofResult small := by
  cases h with
  | ok status wider => rw [ofResult, ofResult, wider.console]
  | error fault wider => rw [ofResult, ofResult, wider.console]
  | unseen _ unseen => exact absurd (cleanExit_of_finished ended) unseen

theorem Image.not_cleanExit_of_create {regions : Regions} {fault : Fault}
    (h : Image.create regions = .error fault) : ¬ CleanExit fault := by
  unfold Image.create at h
  split at h <;> cases h
  exact nofun

/-- A run that ends normally, or by a request to end with success, has the same outcome with every
larger stack that fits the address space: the same status, output, rest of the input, line and
counts. -/
theorem run_unchanged_by_larger_stack (structs : StructTable) (regions : Regions)
    (limits : Limits) (input : String) (program : Program) (stackSize : Nat) (status : Int)
    (le : regions.stackSize ≤ stackSize)
    (valid : Image.layoutFault? { regions with stackSize := stackSize } = none)
    (ended : (program.run structs ⟨regions, limits⟩ input).ending = .finished status) :
    program.run structs ⟨{ regions with stackSize := stackSize }, limits⟩ input =
      program.run structs ⟨regions, limits⟩ input := by
  unfold Program.run at ended ⊢
  cases created : Image.create regions with
  | error fault =>
    rw [created] at ended
    exact absurd (Outcome.cleanExit_of_finished ended) (Image.not_cleanExit_of_create created)
  | ok image =>
    obtain ⟨-, rfl⟩ := Image.of_create created
    have larger : Image.create { regions with stackSize := stackSize } =
        .ok (Image.blank { regions with stackSize := stackSize }) := by
      rw [Image.create, valid]
    simp only [created, larger] at ended ⊢
    have followed := (widening structs limits).execute program _ _
      (Machine.wider_start (Image.wider_blank regions le) (Console.start input.toList))
    exact Outcome.ofResult_of_followed followed ended

/-- A program that keeps a letter on the heap, prints the text it makes there, and asks to end. -/
def boxed : Program :=
  { functions :=
      [⟨"main", .int, [],
          some
            [.declare 2 "box" .charPointer
                (some (.call "calloc" [.number (.ofNat 2), .number (.ofNat 1)])),
              .expression 3 (.assign .plain (.index (.var "box") (.number (.ofNat 0)))
                (.number (.ofNat 97))),
              .expression 4 (.call "printf" [.text "\"%s\"", .var "box"]),
              .expression 5 (.call "exit" [.number (.ofNat 0)])], 1⟩]
    globals := [] }

/-- The four bytes of its one variable are just enough of a stack for it, so every larger stack
gives the same outcome. -/
theorem boxed_unchanged_by_larger_stack :
    (boxed.run .empty ⟨⟨8, 32, 4, .growOnly⟩, ⟨1, 1⟩⟩ "").ending = .finished 0 ∧
    (boxed.run .empty ⟨⟨8, 32, 4, .growOnly⟩, ⟨1, 1⟩⟩ "").console.output = "a" ∧
    boxed.run .empty ⟨⟨8, 32, 4096, .growOnly⟩, ⟨1, 1⟩⟩ "" =
      boxed.run .empty ⟨⟨8, 32, 4, .growOnly⟩, ⟨1, 1⟩⟩ "" := by
  have ending : (boxed.run .empty ⟨⟨8, 32, 4, .growOnly⟩, ⟨1, 1⟩⟩ "").ending = .finished 0 := by
    decide +kernel
  refine ⟨ending, by decide +kernel, ?_⟩
  exact run_unchanged_by_larger_stack .empty ⟨8, 32, 4, .growOnly⟩ ⟨1, 1⟩ "" boxed 4096 0
    (by decide) (by decide) ending

end FlatC

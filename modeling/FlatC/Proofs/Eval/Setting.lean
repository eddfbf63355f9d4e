import FlatC.Eval.Loop
import FlatC.Proofs.Eval.Primitive
import FlatC.Proofs.Image.Shape

/-!
# The setting of a run

Primitive steps work on the contents of memory and on the console.  They leave everything else
alone: the shape of memory, the frames and the open calls.

* `Setting` is what these steps leave alone;
* `keepingSetting` are the rules from which it follows, and `Primitive.keepsSetting` says so.
-/

namespace FlatC

/-- What a run looks like from outside its memory and its console. -/
structure Setting where
  shape : Shape
  frame : Frame
  openers : List Frame
  callDepth : Nat

/-- The setting of a machine. -/
def Machine.setting (machine : Machine) : Setting :=
  ⟨machine.image.shape, machine.frame, machine.openers, machine.console.callDepth⟩

/-- A step that leaves the setting alone. -/
abbrev KeepsSetting {α : Type} (step : Exec α) : Prop :=
  Step.Keeps Machine.setting step

open Step

namespace Exec

variable {α : Type}

theorem keeps_of {τ : Type} {view : Machine → τ} (result : Except Fault α) :
    Keeps view (of result) := by
  intro machine
  cases result <;> rfl

theorem keeps_ask {τ : Type} {view : Machine → τ} (question : Machine → Except Fault α) :
    Keeps view (ask question) := by
  intro machine
  unfold ask
  cases question machine <;> rfl

theorem keepsSetting_of (result : Except Fault α) : KeepsSetting (of result) :=
  keeps_of result

theorem keepsSetting_ask (question : Machine → Except Fault α) : KeepsSetting (ask question) :=
  keeps_ask question

theorem keepsSetting_onImage {step : Store α} (h : Image.KeepsShape step) :
    KeepsSetting (onImage step) := by
  intro machine
  have shape := h machine.image
  unfold onImage Machine.setting
  cases result : step machine.image with
  | ok answer image =>
    rw [result] at shape
    simp only [left, result] at shape ⊢
    rw [shape]
  | error fault image =>
    rw [result] at shape
    simp only [left, result] at shape ⊢
    rw [shape]

theorem keepsSetting_onConsole {step : ConsoleStep α} (h : Step.Keeps Console.callDepth step) :
    KeepsSetting (onConsole step) := by
  intro machine
  have depth := h machine.console
  unfold onConsole Machine.setting
  cases result : step machine.console with
  | ok answer console =>
    rw [result] at depth
    simp only [left, result] at depth ⊢
    rw [depth]
  | error fault console =>
    rw [result] at depth
    simp only [left, result] at depth ⊢
    rw [depth]

theorem keepsSetting_console {change : Console → Console}
    (h : ∀ console, (change console).callDepth = console.callDepth) :
    KeepsSetting (Exec.console change) := by
  intro machine
  show Setting.mk _ _ _ (change machine.console).callDepth = _
  rw [h]
  rfl

theorem keepsSetting_setLine (line : Nat) : KeepsSetting (setLine line) :=
  keepsSetting_console fun _ => rfl

end Exec

theorem Loop.keepsSetting_start (limits : Limits) (count : Nat) :
    KeepsSetting (Loop.start limits count) := by
  refine Exec.keepsSetting_onConsole fun console => ?_
  unfold Console.countIteration
  split <;> rfl

theorem Scan.keepsSetting_nextWord : KeepsSetting nextWord := by
  intro machine
  show Setting.mk _ _ _ (Console.nextWord machine.console).2.callDepth = _
  unfold Console.nextWord
  simp only
  split <;> rfl

theorem Scan.keepsSetting_nextChar : KeepsSetting nextChar := by
  intro machine
  show Setting.mk _ _ _ (Console.nextChar machine.console).2.callDepth = _
  unfold Console.nextChar
  split <;> rfl

theorem Image.keepsShape_abort {α : Type} (fault : OverflowFault) :
    KeepsShape (throw (.overflow fault) : Store α) :=
  keeps_throw _

theorem Image.keepsShape_element {table : StructTable} (array position : Value) :
    KeepsShape (query (array.elementAt table position)) :=
  keepsShape_query _

/-- Steps of evaluation leave the setting alone. -/
def keepingSetting (table : StructTable) : AbortingRules table where
  holds step := KeepsSetting step
  memory := Image.keepingShape
  answer := keeps_pure
  fault _ := keeps_throw _
  sequence := keeps_bind
  ask _ := Exec.keepsSetting_ask _
  onImage := Exec.keepsSetting_onImage
  print _ := Exec.keepsSetting_console fun _ => rfl
  nextWord := Scan.keepsSetting_nextWord
  nextChar := Scan.keepsSetting_nextChar
  abort _ := keeps_throw _
  abortStore := Image.keepsShape_abort
  element := Image.keepsShape_element

theorem Primitive.keepsSetting {table : StructTable} {α : Type} {step : Exec α}
    (h : Primitive table step) : KeepsSetting step :=
  (keepingSetting table).primitive h

end FlatC

import FlatC.Proofs.Eval.Setting
import FlatC.Proofs.Image.Reported

/-!
# Steps that do not stop the machine

A machine whose memory is ample can read and print, look names up and call its library: none of that
computes an address beyond the address space, whatever the values are that it is done with.

* `Machine.Question.reported` says that questions about a machine are answered or refused;
* `Exec.Reports` is said of steps that do not stop a machine with ample memory, and `reportingSteps`
  are the rules from which it follows for the library.
-/

namespace FlatC

open Step

/-! ## Questions -/

namespace CType

theorem upToOperands_unaryResult (op : UnaryOp) (t : CType) :
    UpToOperands (CType.unaryResult op t) := by
  unfold unaryResult
  split
  · exact t.upToOperands_dereferenced
  · exact upToOperands_unary op t

theorem upToOperands_fieldType (table : StructTable) (t : CType) (name : String) :
    UpToOperands (t.fieldType table name) := by
  unfold fieldType
  split
  · exact (table.upToOperands_field _ name).andThen fun field => trivial
  · trivial

end CType

theorem Frame.upToOperands_find (frame : Frame) (name : String) :
    UpToOperands (frame.find name) := by
  unfold find
  split
  · trivial
  · trivial

theorem Frame.upToOperands_declareFunction (frame : Frame) (name : String) (callee : Callee) :
    UpToOperands (frame.declareFunction name callee) := by
  have bound : UpToOperands (frame.scope.bindings.declareFunction name callee) := by
    unfold Bindings.declareFunction
    split
    · trivial
    · trivial
    · repeat' split
      all_goals trivial
  exact bound.andThen fun bindings => trivial

namespace Machine

variable (table : StructTable) (machine : Machine) (name : String)

theorem reported_resolve : Reported (machine.resolve table name) := by
  refine (machine.frame.upToOperands_find name).reported.andThen fun binding => ?_
  split
  · exact (machine.image.reported_read table _ _).andThen fun value => trivial
  · trivial

theorem reported_valueOf : Reported (machine.valueOf table name) := by
  refine (machine.reported_resolve table name).andThen fun resolved => ?_
  cases resolved with
  | value value => trivial
  | function callee => exact Fault.isReported_type _

theorem reported_functionOf : Reported (machine.functionOf table name) := by
  refine (machine.reported_resolve table name).andThen fun resolved => ?_
  cases resolved with
  | value value => exact Fault.isReported_type _
  | function callee => trivial

end Machine

theorem Expr.reported_typeIn (table : StructTable) (machine : Machine) :
    ∀ expr : Expr, Reported (expr.typeIn table machine)
  | .number _ | .text _ | .cast _ _ | .sizeofType _ | .sizeofExpr _ => trivial
  | .var name => (machine.frame.upToOperands_find name).reported.andThen fun _ => trivial
  | .binary op left right => by
    unfold typeIn
    split
    · trivial
    · refine (left.reported_typeIn table machine).andThen fun s => ?_
      refine (right.reported_typeIn table machine).andThen fun t => ?_
      exact (CType.upToOperands_binary op s t).reported
  | .unary op operand =>
    (operand.reported_typeIn table machine).andThen fun t =>
      (CType.upToOperands_unaryResult op t).reported
  | .assign _ target _ => target.reported_typeIn table machine
  | .conditional _ whenTrue _ => whenTrue.reported_typeIn table machine
  | .call function _ => (machine.reported_functionOf table function).andThen fun _ => trivial
  | .index array position => by
    refine (array.reported_typeIn table machine).andThen fun s => ?_
    refine (position.reported_typeIn table machine).andThen fun t => ?_
    refine (CType.upToOperands_binary .add s t).reported.andThen fun pointer => ?_
    exact pointer.upToOperands_pointee.reported
  | .member object field =>
    (object.reported_typeIn table machine).andThen fun t =>
      (t.upToOperands_fieldType table field).reported
  | .arrow pointer field => by
    refine (pointer.reported_typeIn table machine).andThen fun t => ?_
    refine t.upToOperands_pointee.reported.andThen fun object => ?_
    exact (object.upToOperands_fieldType table field).reported

namespace Print

theorem reported_directiveText (image : Image) (precision : Option Nat) (letter : Char)
    (argument : Value) : Reported (directiveText image precision letter argument) := by
  unfold directiveText
  dsimp only
  split
  case h_7 =>
    split
    · exact image.reported_readText argument.toAddress
    · exact Fault.isReported_type _
  case h_9 => exact Fault.isReported_type _
  all_goals
    split
    · trivial
    · exact Fault.isReported_type _

theorem reported_render (image : Image) (pieces : List Piece) (arguments : List Value) :
    Reported (render image pieces arguments) := by
  fun_induction render image pieces arguments with
  | case1 => trivial
  | case2 _ _ _ ih => exact ih.andThen fun _ => trivial
  | case3 => exact Fault.isReported_type _
  | case4 _ _ _ _ _ ih =>
    refine (reported_directiveText ..).andThen fun text => ?_
    exact ih.andThen fun others => trivial

end Print

/-- All questions about a machine are answered or refused. -/
theorem Machine.Question.reported {table : StructTable} {α : Type}
    {question : Machine → Except Fault α} (asked : Question table question) (machine : Machine) :
    Reported (question machine) := by
  cases asked with
  | var name => exact machine.reported_valueOf table name
  | typeOf expr => exact expr.reported_typeIn table machine
  | text v => exact v.reported_readText machine.image
  | length v => exact v.reported_textLength machine.image
  | render pieces arguments => exact Print.reported_render machine.image pieces arguments

/-! ## Steps -/

namespace Exec

/-- The step keeps memory ample and does not stop the machine. -/
abbrev Reports {α : Type} (exec : Exec α) : Prop :=
  Upholds (fun machine => machine.image.Ample) (fun _ => True) Fault.IsReported exec

variable {α : Type}

theorem reports_ask {question : Machine → Except Fault α}
    (h : ∀ machine, Reported (question machine)) : Reports (ask question) := by
  intro machine ample
  unfold ask
  cases asked : question machine with
  | ok a => exact ⟨ample, trivial⟩
  | error fault => exact ⟨ample, (h machine).fault asked⟩

theorem reports_onImage {step : Store α} (h : Image.Reports step) : Reports (onImage step) := by
  intro machine ample
  have ending := h machine.image ample
  cases ran : step machine.image with
  | ok a image =>
    rw [onImage_of_ok ran]
    rwa [ran] at ending
  | error fault image =>
    rw [onImage_of_error ran]
    rwa [ran] at ending

theorem reports_onConsole {step : ConsoleStep α}
    (h : ∀ console fault console', step console = .error fault console' → fault.IsReported) :
    Reports (onConsole step) := by
  rintro ⟨image, frame, openers, console⟩ ample
  cases ran : step console with
  | ok a console' =>
    simp only [onConsole, ran]
    exact ⟨ample, trivial⟩
  | error fault console' =>
    simp only [onConsole, ran]
    exact ⟨ample, h console fault console' ran⟩

/-- A step that leaves memory alone and cannot fail. -/
theorem reports_of_ok {exec : Exec α}
    (h : ∀ machine, ∃ a machine', exec machine = .ok a machine' ∧ machine'.image = machine.image) :
    Reports exec := by
  intro machine ample
  obtain ⟨a, machine', ran, same⟩ := h machine
  have ample' : machine'.image.Ample := by rwa [same]
  rw [ran]
  exact ⟨ample', trivial⟩

end Exec

/-- Steps on ample memory do not stop the machine. -/
def reportingSteps (table : StructTable) : ExecRules table where
  holds exec := Exec.Reports exec
  memory := Image.reporting
  answer _ := upholds_pure trivial
  fault reported := upholds_throw reported
  sequence first next := upholds_bind first fun a _ => next a
  ask asked := Exec.reports_ask asked.reported
  onImage := Exec.reports_onImage
  print _ := Exec.reports_of_ok fun _ => ⟨_, _, rfl, rfl⟩
  nextWord := Exec.reports_of_ok fun _ => ⟨_, _, rfl, rfl⟩
  nextChar := Exec.reports_of_ok fun _ => ⟨_, _, rfl, rfl⟩

end FlatC

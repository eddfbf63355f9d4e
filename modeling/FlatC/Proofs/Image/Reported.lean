import FlatC.Image.Create
import FlatC.Proofs.Image.Shape
import FlatC.Proofs.Value.Modest

/-!
# Memory that does not stop the machine

All that is computed with addresses of memory is kept in 32 bits.  If memory ends a word before the
address space does, these computations never leave them: neither reads and writes nor walks over the
heap stop the machine, whatever the bytes of memory are.

* `Image.Ample` is said of such memory;
* `Image.Ample.question` says that the questions about it are answered or refused;
* `Image.reporting` are the rules from which it follows for each operation.
-/

namespace FlatC

open Step

namespace Image

/-! ## Reading -/

section Reading

variable (table : StructTable) (image : Image) (address : Nat)

theorem reported_checkBounds (size : Nat) : Reported (image.checkBounds address size) := by
  unfold checkBounds
  split
  · trivial
  · exact nofun

theorem reported_checkReadable (size : Nat) : Reported (image.checkReadable address size) := by
  unfold checkReadable
  split
  · exact nofun
  · exact image.reported_checkBounds address size

theorem reported_checkWritable (size : Nat) : Reported (image.checkWritable address size) := by
  refine (image.reported_checkReadable address size).andThen fun _ => ?_
  split
  · exact nofun
  · trivial

theorem reported_readWord : Reported (image.readWord address) :=
  (image.reported_checkBounds address wordSize).andThen fun _ => trivial

theorem reported_readUnsigned (size : Nat) : Reported (image.readUnsigned address size) := by
  have bytes : Reported (image.readBytes address size) :=
    (image.reported_checkReadable address size).andThen fun _ => trivial
  exact bytes.andThen fun _ => trivial

theorem reported_read (type : CType) : Reported (image.read table address type) := by
  cases type with
  | int | float | pointer _ => exact (image.reported_readUnsigned address 4).andThen fun _ => trivial
  | char => exact (image.reported_readUnsigned address 1).andThen fun _ => trivial
  | array _ _ | struct _ =>
    refine (table.upToOperands_sizeOf _).reported.andThen fun size => ?_
    exact (image.reported_checkReadable address size).andThen fun _ => trivial
  | void | function => exact nofun

theorem reported_textStop : Reported (image.textStop address) := by
  refine (image.reported_checkReadable address 1).andThen fun _ => ?_
  split
  · trivial
  · exact nofun

theorem reported_textLength : Reported (image.textLength address) :=
  (image.reported_textStop address).andThen fun _ => trivial

theorem reported_readText : Reported (image.readText address) := by
  have bytes : Reported (image.textBytes address) :=
    (image.reported_textStop address).andThen fun _ => trivial
  exact bytes.andThen fun _ => trivial

end Reading

end Image

namespace Value

variable {table : StructTable} (v : Value) (image : Image)

theorem reported_deref : Reported (v.deref table image) :=
  v.type.upToOperands_dereferenced.reported.andThen fun type =>
    image.reported_read table v.toAddress type

theorem reported_member (field : String) : Reported (v.member table field image) := by
  unfold member
  split
  · exact (table.upToOperands_field _ field).reported.andThen fun field =>
      image.reported_read table _ field.type
  · exact nofun

theorem reported_arrow (field : String) : Reported (v.arrow table field image) :=
  (v.reported_deref image).andThen fun object => object.reported_member image field

theorem Arises.reported_elementAt {written : List CType} {array position : Value}
    (modest : CType.Modest table written) (base : array.Arises table written)
    (offset : position.Arises table written) : Reported (array.elementAt table position image) :=
  (base.computed_plus modest offset).andThen fun place => place.reported_deref image

theorem reported_textAddress : Reported v.textAddress := by
  unfold textAddress
  split
  · trivial
  · exact nofun

theorem reported_readText : Reported (v.readText image) := by
  have bytes : Reported (v.textBytes image) := by
    refine v.reported_textAddress.andThen fun address => ?_
    exact (image.reported_textStop address).andThen fun _ => trivial
  exact bytes.andThen fun _ => trivial

theorem reported_textLength : Reported (v.textLength image) :=
  v.reported_textAddress.andThen fun address => image.reported_textLength address

end Value

namespace Image

/-! ## The heap -/

/-- Memory ends at least a word before the address space does, and the stack starts inside it. -/
structure Ample (image : Image) : Prop where
  stack : image.stackBottom ≤ image.size
  free : image.size + wordSize ≤ wordRange

variable {image : Image}

/-- A tag is refused, or its words are read, if the second one has an address. -/
theorem reported_blockAt_of_fits {tag : Nat} (fits : tag < image.stackBottom → tag + 4 < wordRange) :
    Reported (image.blockAt tag) := by
  unfold blockAt
  split
  · exact Fault.isReported_memory _
  · rename_i inHeap
    rw [checkedWord_of_lt (fits (by omega))]
    refine (image.reported_readWord (tag + 4)).andThen fun word => ?_
    dsimp only
    split
    · trivial
    · exact Fault.isReported_memory _

/-- That is a matter of the bounds of the regions alone. -/
theorem Ample.of_shape {image' : Image} (h : image.Ample) (kept : image'.shape = image.shape) :
    image'.Ample := by
  have size : image'.size = image.size := congrArg Shape.size kept
  have stackBottom : image'.stackBottom = image.stackBottom := congrArg Shape.stackBottom kept
  refine ⟨?_, ?_⟩
  · rw [size, stackBottom]
    exact h.stack
  · rw [size]
    exact h.free

namespace Ample

variable (ample : image.Ample)

include ample

theorem reported_blockAt (tag : Nat) : Reported (image.blockAt tag) := by
  refine reported_blockAt_of_fits fun inside => ?_
  have := ample.stack
  have := ample.free
  simp only [wordSize] at this
  omega

/-- A walk that has ended early has done so with a fault that is reported. -/
theorem reported_walkFrom (left tag : Nat) :
    ∀ fault, (image.walkFrom left tag).fault = some fault → fault.IsReported := by
  induction left generalizing tag with
  | zero => exact nofun
  | succ left ih =>
    intro fault ended
    rw [walkFrom] at ended
    split at ended
    · cases ended
    · have block := ample.reported_blockAt tag
      split at ended
      · rename_i refused
        cases ended
        exact block.fault refused
      · exact ih _ fault ended

theorem reported_firstFit (size : Nat) : Reported (image.firstFit size) := by
  unfold firstFit
  dsimp only
  split
  · trivial
  · split
    · rename_i ended
      exact ample.reported_walkFrom _ _ _ ended
    · exact nofun

theorem reported_releasePlan (address : Nat) : Reported (image.releasePlan address) := by
  unfold releasePlan
  split
  · exact nofun
  refine (ample.reported_blockAt _).andThen fun block => ?_
  refine (image.reported_readWord _).andThen fun link => ?_
  split
  · trivial
  split
  · exact nofun
  refine (ample.reported_blockAt _).andThen fun before => ?_
  split
  · exact nofun
  · trivial

/-- All questions are answered or refused. -/
theorem question {α : Type} {question : Image → Except Fault α} (asked : Question question) :
    Reported (question image) := by
  cases asked with
  | deref table v => exact v.reported_deref image
  | member table v field => exact v.reported_member image field
  | arrow table v field => exact v.reported_arrow image field
  | blockAt tag => exact ample.reported_blockAt tag
  | firstFit size => exact ample.reported_firstFit size
  | releasePlan address => exact ample.reported_releasePlan address

end Ample

/-! ## Operations -/

/-- The step keeps memory ample and does not stop the machine. -/
abbrev Reports {α : Type} (step : Store α) : Prop :=
  Upholds Ample (fun _ => True) Fault.IsReported step

/-- It need only be shown how the step ends, if it leaves the shape of memory alone. -/
theorem reports_of_keepsShape {α : Type} {step : Store α} (kept : KeepsShape step)
    (reported : ∀ image fault image', image.Ample → step image = .error fault image' →
      fault.IsReported) : Reports step := by
  intro image ample
  have shape := kept image
  cases ended : step image with
  | ok a image' =>
    rw [ended] at shape
    exact ⟨ample.of_shape shape, trivial⟩
  | error fault image' =>
    rw [ended] at shape
    exact ⟨ample.of_shape shape, reported image fault image' ample ended⟩

theorem reports_query {α : Type} {question : Image → Except Fault α}
    (h : ∀ image, image.Ample → Reported (question image)) : Reports (query question) := by
  refine reports_of_keepsShape (keepsShape_query question) fun image fault image' ample failed => ?_
  unfold query at failed
  split at failed
  · cases failed
  · rename_i refused
    cases failed
    exact (h image ample).fault refused

/-- A change of bytes behind a check is refused if the check is. -/
theorem reports_checked {step : Store Unit} {check : Image → Except Fault Unit}
    {change : Image → Image} (kept : KeepsShape step)
    (is : ∀ image, step image =
      match check image with
      | .ok _ => .ok () (change image)
      | .error fault => .error fault image)
    (h : ∀ image, Reported (check image)) : Reports step := by
  refine reports_of_keepsShape kept fun image fault image' _ failed => ?_
  rw [is] at failed
  split at failed
  · cases failed
  · rename_i refused
    cases failed
    exact (h image).fault refused

theorem reports_intern (text : List Char) : Reports (intern text) := by
  refine reports_of_keepsShape (keepsShape_intern text) fun image _ _ _ failed => ?_
  unfold intern at failed
  dsimp only at failed
  split at failed
  · cases failed
  · split at failed
    · cases failed
      exact Fault.isReported_memory _
    · cases failed

/-- Operations on ample memory do not stop the machine. -/
def reporting : StoreRules where
  holds step := Reports step
  answer _ := upholds_pure trivial
  fault reported := upholds_throw reported
  sequence first next := upholds_bind first fun a _ => next a
  ask asked := reports_query fun _ ample => ample.question asked
  atStackBottom h := fun image => h image.stackBottom image
  write _ _ := reports_checked (keepsShape_write _ _) (fun _ => rfl)
    fun image => image.reported_checkWritable _ _
  fill _ _ _ := reports_checked (keepsShape_fill _ _ _) (fun _ => rfl)
    fun image => image.reported_checkWritable _ _
  writeWord _ _ := reports_checked (keepsShape_writeWord _ _) (fun _ => rfl)
    fun image => image.reported_checkBounds _ _
  intern := reports_intern
  addLive _ := upholds_modify fun _ ample => ⟨ample.stack, ample.free⟩
  removeLive _ := upholds_modify fun _ ample => ⟨ample.stack, ample.free⟩

end Image

end FlatC

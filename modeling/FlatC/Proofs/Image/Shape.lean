import FlatC.Image.Create
import FlatC.Proofs.Image.Operation

/-!
# The shape of memory

No operation moves the bounds of a region, grows or shrinks the image or changes its stack policy.
That holds of every step that a program can ask for, whatever the heap looks like and however the
step ends.

* `Shape` is what all operations leave alone, and `Image.shape` that of an image;
* `Image.keepingShape` are the rules from which it follows for each operation.
-/

namespace FlatC

/-- The bounds of the regions, and the stack policy. -/
structure Shape where
  size : Nat
  heapBottom : Nat
  stackBottom : Nat
  policy : StackPolicy
deriving DecidableEq, Repr

namespace Image

/-- The shape of an image. -/
def shape (image : Image) : Shape :=
  ⟨image.size, image.heapBottom, image.stackBottom, image.policy⟩

theorem shape_put (image : Image) (address : Nat) (data : List UInt8) :
    (image.put address data).shape = image.shape := by
  simp [shape, put, size]

theorem shape_filled (image : Image) (address size : Nat) (byte : UInt8) :
    (image.filled address size byte).shape = image.shape := by
  simp [shape, filled, Image.size]

theorem shape_blank (regions : Regions) :
    (blank regions).shape =
      ⟨regions.readOnlySize + regions.heapSize + regions.stackSize, regions.readOnlySize,
        regions.readOnlySize + regions.heapSize, regions.policy⟩ := by
  unfold blank
  rw [shape_put, shape_put]
  simp [shape, size]

/-- A step that leaves the shape of memory alone. -/
abbrev KeepsShape {α : Type} (step : Store α) : Prop :=
  Step.Keeps shape step

open Step

theorem keepsShape_query {α : Type} (question : Image → Except Fault α) :
    KeepsShape (query question) := by
  intro image
  unfold query
  cases question image <;> rfl

theorem keepsShape_write (address : Nat) (data : List UInt8) : KeepsShape (write address data) := by
  intro image
  unfold write
  cases image.checkWritable address data.length with
  | ok _ => exact shape_put ..
  | error fault => rfl

theorem keepsShape_fill (address size : Nat) (byte : UInt8) :
    KeepsShape (fill address size byte) := by
  intro image
  unfold fill
  cases image.checkWritable address size with
  | ok _ => exact shape_filled ..
  | error fault => rfl

theorem keepsShape_writeWord (address word : Nat) : KeepsShape (writeWord address word) := by
  intro image
  unfold writeWord
  cases image.checkBounds address wordSize with
  | ok _ => exact shape_put ..
  | error fault => rfl

theorem keepsShape_intern (text : List Char) : KeepsShape (intern text) := by
  intro image
  simp only [intern]
  cases image.literalAddress? (Text.literalBody text) with
  | some address => rfl
  | none =>
    by_cases full : image.readOnlyAvailable < (Text.literalBody text).length + 1
    · simp only [full, if_true, left]
    · simp only [full, if_false, left]
      exact shape_put image _ _

/-- Operations leave the shape of memory alone. -/
def keepingShape : StoreRules where
  holds step := KeepsShape step
  answer := keeps_pure
  fault _ := keeps_throw _
  sequence := keeps_bind
  ask _ := keepsShape_query _
  atStackBottom h := keeps_bind keeps_get fun image => h image.stackBottom
  write := keepsShape_write
  fill := keepsShape_fill
  writeWord := keepsShape_writeWord
  intern := keepsShape_intern
  addLive _ := keeps_modify fun _ => rfl
  removeLive _ := keeps_modify fun _ => rfl

end Image

end FlatC

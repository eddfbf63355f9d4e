import FlatC.Heap.Release
import FlatC.Library.Call
import FlatC.Proofs.Value.Computed

/-!
# What memory operations are made of

Every step that a program can take on memory is a sequence of a few kinds of steps: questions about
the image, writes of bytes and words, new literals, and changes to the record of live allocations.
So a property of these steps that sequences keep is one of all operations.  Two of them may stop the
machine, an assignment that computes its value and the choice of an element.  They are left to those
who know more about their operands.

* `Image.Question` lists the questions;
* `StoreRules` is a property with its rules;
* `StoreRules.unary`, `StoreRules.allocate`, `StoreRules.release` and the like are the statements
  about the operations.
-/

namespace FlatC

/-- A question that an operation asks about an image. -/
inductive Image.Question : {α : Type} → (Image → Except Fault α) → Prop where
  | deref (table : StructTable) (v : Value) : Question (v.deref table)
  | member (table : StructTable) (v : Value) (field : String) : Question (v.member table field)
  | arrow (table : StructTable) (v : Value) (field : String) : Question (v.arrow table field)
  | blockAt (tag : Nat) : Question fun image => image.blockAt tag
  | firstFit (size : Nat) : Question fun image => image.firstFit size
  | releasePlan (address : Nat) : Question fun image => image.releasePlan address

open Image

/-- A property of steps on memory that single steps have and that sequences keep. -/
structure StoreRules where
  holds {α : Type} : Store α → Prop
  answer {α : Type} (a : α) : holds (pure a)
  fault {α : Type} {fault : Fault} : fault.IsReported → holds (throw fault : Store α)
  sequence {α β : Type} {x : Store α} {f : α → Store β} :
    holds x → (∀ a, holds (f a)) → holds (x >>= f)
  ask {α : Type} {question : Image → Except Fault α} : Question question → holds (query question)
  /-- The end of the heap is the same in every image that a step may start from. -/
  atStackBottom {α : Type} {f : Nat → Store α} :
    (∀ bottom, holds (f bottom)) → holds (get >>= fun image => f image.stackBottom)
  write (address : Nat) (data : List UInt8) : holds (write address data)
  fill (address size : Nat) (byte : UInt8) : holds (fill address size byte)
  writeWord (address word : Nat) : holds (writeWord address word)
  intern (text : List Char) : holds (intern text)
  addLive (address : Nat) : holds (addLive address)
  removeLive (address : Nat) : holds (removeLive address)

namespace StoreRules

variable (R : StoreRules) {α : Type}

theorem choose {c : Prop} [Decidable c] {x y : Store α} (yes : R.holds x) (no : R.holds y) :
    R.holds (if c then x else y) := by
  split
  · exact yes
  · exact no

/-- A step behind a check that may end it with a fault. -/
theorem guarded {c : Prop} [Decidable c] {fault : Fault} (reported : fault.IsReported)
    {next : PUnit → Store α} (h : R.holds (next ⟨⟩)) :
    R.holds (if c then throw fault >>= next else next ⟨⟩) := by
  split
  · exact R.fault reported
  · exact h

theorem of {P : α → Prop} {result : Except Fault α} (h : EndsWith P Fault.IsReported result) :
    R.holds (Store.of result) := by
  cases result with
  | ok a => exact R.answer a
  | error fault => exact R.fault h

/-- The faults of operands are reported. -/
theorem upTo {P : α → Prop} {result : Except Fault α} (h : EndsWith P Fault.IsOfOperands result) :
    R.holds (Store.of result) :=
  R.of h.reported

/-! ## Operators -/

theorem store (address : Nat) (value : Value) : R.holds (store address value) := by
  unfold Image.store
  cases stored? value with
  | some data => exact R.write address data
  | none => exact R.fault (Fault.isReported_type _)

theorem storeAs (value : Value) (address : Nat) (type : CType) :
    R.holds (value.storeAs address type) :=
  R.sequence (R.upTo (value.computed_implicit type)) fun converted => R.store address converted

theorem stepBy {op : UnaryOp} (step : op.isStep) (table : StructTable) (v : Value) :
    R.holds (v.stepBy table op) := by
  unfold Value.stepBy
  cases v.address with
  | none => exact R.fault (Fault.isReported_type _)
  | some address =>
    refine R.sequence (R.upTo (Value.endsWith_stepped step table v)) fun updated => ?_
    exact R.sequence (R.store address updated) fun _ => R.answer _

theorem unary (table : StructTable) (op : UnaryOp) (v : Value) : R.holds (v.unary table op) := by
  cases op
  case deref => exact R.ask (.deref table v)
  case addressOf => exact R.upTo v.computed_addressOf
  case preInc | preDec | postInc | postDec => exact R.stepBy rfl table v
  case neg | plus | not | bitNot => exact R.upTo (v.computed_plainUnary _)

/-- An assignment has the property if the computation of its value has. -/
theorem assign {table : StructTable} {op : AssignOp} {target source : Value}
    (computed : R.holds (Store.of (target.assigned table op source))) :
    R.holds (target.assign table op source) := by
  unfold Value.assign
  cases target.address with
  | none => exact R.fault (Fault.isReported_type _)
  | some address =>
    refine R.choose ?_ (R.fault (Fault.isReported_type _))
    refine R.sequence computed fun assigned => ?_
    exact R.sequence (R.store address assigned.1) fun _ => R.answer _

/-! ## The allocator -/

theorem markBlock (tag length : Nat) (free : Bool) : R.holds (markBlock tag length free) :=
  R.writeWord _ _

theorem linkBack (following tag : Nat) : R.holds (linkBack following tag) := by
  refine R.atStackBottom (f := fun bottom => if following < bottom then _ else _) fun bottom => ?_
  exact R.choose (R.writeWord _ _) (R.answer _)

theorem carve (block : Block) (size : Nat) : R.holds (carve block size) := by
  refine R.choose ?_ (R.markBlock _ _ _)
  refine R.sequence (R.markBlock _ _ _) fun _ => ?_
  refine R.sequence (R.writeWord _ _) fun _ => ?_
  exact R.sequence (R.markBlock _ _ _) fun _ => R.linkBack _ _

theorem allocate (size : Int) : R.holds (allocate size) := by
  unfold Image.allocate
  refine R.guarded (Fault.isReported_memory _) (R.guarded (Fault.isReported_memory _) ?_)
  refine R.sequence (R.ask (.firstFit _)) fun block => ?_
  refine R.sequence (R.carve _ _) fun _ => ?_
  exact R.sequence (R.addLive _) fun _ => R.answer _

theorem allocateZeroed (size : Int) : R.holds (LibraryFunction.allocateZeroed size) := by
  refine R.sequence (R.allocate size) fun pointer => ?_
  exact R.sequence (R.fill _ _ _) fun _ => R.answer _

theorem mergeBefore (block : Block) (before : Option Block) :
    R.holds (mergeBefore block before) := by
  unfold Image.mergeBefore
  cases before with
  | none => exact R.answer _
  | some before =>
    refine R.choose ?_ (R.answer _)
    exact R.sequence (R.markBlock _ _ _) fun _ => R.answer _

theorem mergeAfter (block : Block) : R.holds (mergeAfter block) := by
  refine R.atStackBottom (f := fun bottom => if block.stop < bottom then _ else _) fun bottom => ?_
  refine R.choose ?_ (R.answer _)
  refine R.sequence (R.ask (.blockAt _)) fun after => ?_
  refine R.choose ?_ (R.answer _)
  exact R.sequence (R.markBlock _ _ _) fun _ => R.answer _

theorem release (address : Nat) : R.holds (release address) := by
  refine R.sequence (R.ask (.releasePlan address)) fun plan => ?_
  refine R.sequence (R.removeLive _) fun _ => ?_
  refine R.sequence (R.markBlock _ _ _) fun _ => ?_
  refine R.sequence (R.mergeBefore _ _) fun merged => ?_
  exact R.sequence (R.mergeAfter merged) fun _ => R.linkBack _ _

end StoreRules

end FlatC

import FlatC.Proofs.CType.Arising
import FlatC.Proofs.Value.PointerOverflow
import FlatC.Proofs.Value.Range

/-!
# Operators on modest types

What operators make of values in range is in range again, and its type arises from those of the
operands.  As long as no such type is of nearly the size of the address space, 64 bits hold every
sum and every difference, so no operator stops the machine.

* `Value.Arises` is said of the values that a program can get to, and `Value.Arises.binary` and the
  like say that operators lead to no others;
* `Value.Arises.computed_binary` and `Value.Arises.reported_assigned` say that all faults are
  reported.
-/

namespace FlatC

/-- What is added to a pointer or an array is of a whole type, and so is what is subtracted from one
unless it is a pointer or an array as well. -/
theorem CType.whole_of_binary {s t u : CType} (pointer : s.isPointerLike = true)
    (typed : binary .add s t = .ok u ∨ binary .add t s = .ok u ∨
      binary .sub s t = .ok u ∧ t.isPointerLike = false) : t = .int ∨ t = .char := by
  simp only [binary_eq_ok, binary?, pointerBinary?] at typed
  cases s <;> cases pointer <;> cases t <;>
    simp_all [isArithmetic, isPointerLike, isWhole, BinaryOp.isCommutative]

namespace Value

/-- The value is in the range of its type, and the type arises from those that are written. -/
structure Arises (table : StructTable) (written : List CType) (v : Value) : Prop where
  inRange : v.InRange
  type : CType.Arises table written v.type

namespace Arises

variable {table : StructTable} {written : List CType} {v w r : Value} {target : CType}
  {F : Fault → Prop}

/-! ## Values that operators lead to -/

theorem rvalue (x : Binary64) (h : CType.Arises table written target) :
    (Value.rvalue x target).Arises table written :=
  ⟨inRange_rvalue x target, h⟩

theorem toRvalue (h : v.Arises table written) : v.toRvalue.Arises table written :=
  ⟨h.inRange, h.type⟩

theorem of_isRvalue (rvalue : v.IsRvalue target) (h : CType.Arises table written target) :
    v.Arises table written := by
  obtain ⟨x, rfl⟩ := rvalue
  exact Arises.rvalue x h

/-- A computed value is in range, so its type is all that is left to be said. -/
theorem of_computed {result : Except Fault Value} (computed : Computed F result)
    (found : result = .ok r) (h : CType.Arises table written r.type) : r.Arises table written :=
  ⟨ranged_of_computed computed r found, h⟩

theorem read {image : Image} {address : Nat} (h : CType.Arises table written target)
    (found : image.read table address target = .ok r) : r.Arises table written := by
  refine ⟨Image.ranged_read target r found, ?_⟩
  rwa [Image.type_read found]

theorem binary {op : BinaryOp} (left : v.Arises table written) (right : w.Arises table written)
    (found : Value.binary table op v w = .ok r) : r.Arises table written :=
  of_computed (computed_binary table op v w) found (left.type.binary right.type (type_binary found))

theorem deref {image : Image} (h : v.Arises table written)
    (found : v.deref table image = .ok r) : r.Arises table written :=
  ⟨ranged_deref image r found, h.type.dereferenced (type_deref found)⟩

theorem member {image : Image} {field : String} (h : v.Arises table written)
    (found : v.member table field image = .ok r) : r.Arises table written :=
  ⟨ranged_member field image r found, h.type.fieldType (type_member found)⟩

theorem arrow {image : Image} {field : String} (h : v.Arises table written)
    (found : v.arrow table field image = .ok r) : r.Arises table written := by
  obtain ⟨object, reached, found⟩ := bind_eq_ok.mp found
  exact (h.deref reached).member found

theorem elementAt {image : Image} (array : v.Arises table written) (position : w.Arises table written)
    (found : v.elementAt table w image = .ok r) : r.Arises table written := by
  obtain ⟨place, moved, found⟩ := bind_eq_ok.mp found
  have sum : Value.binary table .add v w = .ok place := moved
  exact (array.binary position sum).deref found

theorem unary {op : UnaryOp} {image image' : Image} (h : v.Arises table written)
    (found : v.unary table op image = .ok r image') : r.Arises table written :=
  ⟨yields_unary op h.inRange image r image' found, h.type.unary (type_unary found).1⟩

theorem cast (h : CType.Arises table written target) (found : v.cast target = .ok r) :
    r.Arises table written :=
  of_isRvalue (isRvalue_cast found) h

/-- An assignment yields its right operand, or a value of the type of its target. -/
theorem assign {op : AssignOp} {image image' : Image} (place : v.Arises table written)
    (source : w.Arises table written) (found : v.assign table op w image = .ok r image') :
    r.Arises table written := by
  have yielded := yields_assign table op v w image r image' found
  refine ⟨inRange_yielded source.inRange yielded, ?_⟩
  cases op with
  | plain =>
    rw [eq_of_assign_plain found]
    exact source.type
  | compound op =>
    rw [(type_assign found).1]
    exact place.type

/-! ## Sums and differences -/

/-- A pointer or an array whose elements have a size points at them, and they are modest. -/
theorem points (modest : CType.Modest table written) (h : v.Arises table written)
    (pointer : v.type.isPointerLike = true) {s : Nat} (sized : v.stepSize table = .ok s) :
    v.Points table v.toAddress s ∧ s + wordSize ≤ wordRange := by
  simp only [stepSize, pointer, if_true] at sized
  obtain ⟨target, reached, sized⟩ := bind_eq_ok.mp sized
  have reached : v.type.pointee? = some target := by
    unfold CType.pointee at reached
    split at reached <;> cases reached
    assumption
  exact ⟨points_of_inRange h.inRange reached sized, modest target (h.type.pointee reached) s sized⟩

/-- Moving a pointer forward is not aborted. -/
theorem forward_eq_ok (modest : CType.Modest table written) (h : v.Arises table written)
    (pointer : v.type.isPointerLike = true) {n : Int} (integer : w.Integer n) {s : Nat}
    (sized : v.stepSize table = .ok s) : ∃ sum, v.forward w s = .ok sum := by
  obtain ⟨points, small⟩ := h.points modest pointer sized
  simp only [wordSize] at small
  have bound : s < wordRange := by omega
  rw [points.forward_eq integer (integer.fitsLong_mul bound)]
  exact ⟨_, checkedLong_of_fits (integer.fitsLong_add points.inSpace bound)⟩

/-- Neither is moving it backward. -/
theorem backward_eq_ok (modest : CType.Modest table written) (h : v.Arises table written)
    (pointer : v.type.isPointerLike = true) {n : Int} (integer : w.Integer n) {s : Nat}
    (sized : v.stepSize table = .ok s) : ∃ difference, v.backward w (max s 1) = .ok difference := by
  obtain ⟨points, small⟩ := h.points modest pointer sized
  simp only [wordSize] at small
  have bound : s < wordRange := by omega
  have kept : ¬ LeavesLong v.toAddress s n := by
    rintro ⟨rfl, -⟩
    exact absurd small (by decide)
  rw [points.backward_eq integer (integer.fitsLong_mul_unit bound)]
  exact ⟨_, checkedLong_of_fits ((integer.fitsLong_sub_unit_iff points.inSpace bound).mpr kept)⟩

theorem computed_plus (modest : CType.Modest table written) (left : v.Arises table written)
    (right : w.Arises table written) : Computed Fault.IsReported (v.plus table w) := by
  refine (CType.upToOperands_binary ..).reported.bindOk fun type typed => ?_
  split
  · rename_i pointer
    obtain ⟨n, integer⟩ := exists_integer (CType.whole_of_binary pointer (.inl typed)) right.inRange
    refine (upToOperands_stepSize table v).reported.bindOk fun s sized => ?_
    obtain ⟨sum, moved⟩ := left.forward_eq_ok modest pointer integer sized
    rw [moved]
    exact isComputed_rvalue ..
  · split
    · rename_i pointer
      have whole := CType.whole_of_binary pointer (.inr (.inl typed))
      obtain ⟨n, integer⟩ := exists_integer whole left.inRange
      refine (upToOperands_stepSize table w).reported.bindOk fun s sized => ?_
      obtain ⟨sum, moved⟩ := right.forward_eq_ok modest pointer integer sized
      rw [moved]
      exact isComputed_rvalue ..
    · exact isComputed_rvalue ..

theorem computed_minus (modest : CType.Modest table written) (left : v.Arises table written)
    (right : w.Arises table written) : Computed Fault.IsReported (v.minus table w) := by
  refine (CType.upToOperands_binary ..).reported.bindOk fun type typed => ?_
  split
  · rename_i pointer
    refine (upToOperands_stepSize table v).reported.bindOk fun s sized => ?_
    split
    · exact isComputed_rvalue ..
    · rename_i other
      have whole := CType.whole_of_binary pointer (.inr (.inr ⟨typed, by simpa using other⟩))
      obtain ⟨n, integer⟩ := exists_integer whole right.inRange
      obtain ⟨difference, moved⟩ := left.backward_eq_ok modest pointer integer sized
      simp only [moved]
      exact isComputed_rvalue ..
  · exact isComputed_rvalue ..

/-! ## Operators that do not stop the machine -/

/-- No operator stops the machine. -/
theorem computed_binary (modest : CType.Modest table written) (left : v.Arises table written)
    (right : w.Arises table written) (op : BinaryOp) :
    Computed Fault.IsReported (Value.binary table op v w) :=
  computed_binary_of (fun _ operands => operands.isReported) (left.computed_plus modest right)
    (left.computed_minus modest right) op

theorem reported_assigned (modest : CType.Modest table written) (target : v.Arises table written)
    (source : w.Arises table written) (op : AssignOp) : Reported (v.assigned table op w) :=
  (Value.endsWith_assigned (fun _ operands => operands.isReported) op fun binaryOp =>
    target.computed_binary modest source binaryOp).forget

end Arises

end Value

end FlatC

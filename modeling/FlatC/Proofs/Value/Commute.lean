import FlatC.Proofs.Number.Whole
import FlatC.Proofs.Value.ResultType

/-!
# Operands in the other order

The table of result types has a column for pointers on the left only; a pointer on the right is
looked up as if it stood on the left.  The operators on values have two branches for a sum with a
pointer, and look at each side in turn when a pointer is compared.  For the operators that the table
calls commutative this makes no difference, whatever the types of the operands are.

* `BinaryOp.mirrored` turns a comparison around with its operands;
* `CType.binary?_comm` and `CType.binary?_mirrored` are about the types of results;
* `Alike` says that two computations answer the same or both fail, and `Value.plus_comm`,
  `Value.compare_comm` and the like that operators do so in both orders;
* `Value.operators_commute` puts them together.
-/

namespace FlatC

/-- The operator that says the same of its operands in the other order. -/
def BinaryOp.mirrored : BinaryOp → BinaryOp
  | .lt => .gt
  | .le => .ge
  | .gt => .lt
  | .ge => .le
  | op => op

/-! ## Types -/

namespace CType

variable {op : BinaryOp} {l r t : CType}

/-- A comparison has the same result type as the one it is turned into. -/
theorem binary?_mirrored (op : BinaryOp) (l r : CType) :
    binary? op.mirrored l r = binary? op l r := by
  cases op <;> rfl

/-- Two pointers are combined by comparisons and logical operators alone, and these treat both
alike. -/
theorem pointerBinary?_comm (commutative : op.isCommutative = true) (left : l.isPointerLike = true)
    (right : r.isPointerLike = true) : pointerBinary? op l r = pointerBinary? op r l := by
  have scalar {t : CType} (pointer : t.isPointerLike = true) :
      t.isWhole = false ∧ t.isScalar = true := by
    cases t with
    | pointer _ | array _ _ => exact ⟨rfl, rfl⟩
    | _ => cases pointer
  obtain ⟨notWholeL, scalarL⟩ := scalar left
  obtain ⟨notWholeR, scalarR⟩ := scalar right
  have same : r.decay.same l.decay = l.decay.same r.decay := same_comm ..
  have void : (l.decay.isVoidPointer || r.decay.isVoidPointer) =
      (r.decay.isVoidPointer || l.decay.isVoidPointer) := Bool.or_comm ..
  unfold pointerBinary?
  cases op <;> cases commutative <;>
    simp only [notWholeL, notWholeR, scalarL, scalarR, left, right, same, Bool.or_assoc, void,
      Bool.false_eq_true, if_false]

theorem arithmeticBinary?_comm (op : BinaryOp) (l r : CType) :
    arithmeticBinary? op l r = arithmeticBinary? op r l := by
  rw [arithmeticBinary?, arithmeticBinary?, Bool.or_comm l.isFloat]

/-- With a pointer on one side, the table asks only what stands on the other. -/
theorem pointerBinary?_eq_none (notArithmetic : r.isArithmetic = false)
    (notPointer : r.isPointerLike = false) : pointerBinary? op l r = none := by
  have notWhole : r.isWhole = false := by
    cases r with
    | int | char => cases notArithmetic
    | _ => rfl
  have notScalar : r.isScalar = false := by rw [isScalar, notArithmetic, notPointer]; rfl
  unfold pointerBinary?
  cases op <;> simp only [notWhole, notPointer, notScalar, Bool.false_and, Bool.and_false,
    Bool.false_eq_true, if_false]

/-- The operands of a commutative operator may be swapped without changing the type of the result,
or whether there is one. -/
theorem binary?_comm (commutative : op.isCommutative = true) (l r : CType) :
    binary? op l r = binary? op r l := by
  have apart {t : CType} (arithmetic : t.isArithmetic = true) : t.isPointerLike = false := by
    cases t with
    | int | char | float => rfl
    | _ => cases arithmetic
  unfold binary?
  cases al : l.isArithmetic <;> cases ar : r.isArithmetic
  case true.true => simp only [if_true, arithmeticBinary?_comm op l r]
  case true.false =>
    simp only [if_true, if_false, commutative, Bool.true_and, Bool.false_eq_true]
  case false.true =>
    simp only [if_true, if_false, commutative, Bool.true_and, Bool.false_eq_true]
  case false.false =>
    simp only [if_false, Bool.false_eq_true]
    cases pl : l.isPointerLike <;> cases pr : r.isPointerLike
    case true.true => simp only [if_true, pointerBinary?_comm commutative pl pr]
    case true.false => simp [pointerBinary?_eq_none ar pr]
    case false.true => simp [pointerBinary?_eq_none al pl]
    case false.false => rfl

/-- There is no sum of two pointers. -/
theorem binary?_add_pointers (left : l.isPointerLike = true) (right : r.isPointerLike = true) :
    binary? .add l r = none := by
  cases l <;> cases left <;> cases r <;> cases right <;> rfl

theorem pointerBinary?_eq_some (found : pointerBinary? op l r = some t) :
    t = l.decay ∨ t = .int := by
  unfold pointerBinary? at found
  grind

/-- Only operands of type `float` give a result of that type. -/
theorem isFloat_of_binary? (found : binary? op l r = some t) (left : l.isFloat = false)
    (right : r.isFloat = false) : t.isFloat = false := by
  have decayed (s : CType) : s.decay.isFloat = s.isFloat := view_decay isFloat (fun _ _ _ => rfl) s
  have pointer {s s' : CType} (notFloat : s.isFloat = false)
      (found : pointerBinary? op s s' = some t) : t.isFloat = false := by
    obtain rfl | rfl := pointerBinary?_eq_some found
    · rw [decayed, notFloat]
    · rfl
  unfold binary? at found
  split at found
  · split at found
    · unfold arithmeticBinary? at found
      simp only [left, right, Bool.or_self, Bool.false_eq_true, if_false, ite_self,
        Option.some.injEq] at found
      rw [← found]
      rfl
    · split at found
      · exact pointer right found
      · cases found
  · split at found
    · exact pointer left found
    · cases found

end CType

/-! ## Values -/

/-- The two computations give the same answer, or both give none. -/
def Alike {α : Type} (x y : Except Fault α) : Prop :=
  ∀ a, x = .ok a ↔ y = .ok a

namespace Alike

variable {α β : Type} {x y z : Except Fault α} {f g : α → Except Fault β}

theorem refl (x : Except Fault α) : Alike x x :=
  fun _ => Iff.rfl

theorem error (fault fault' : Fault) : Alike (.error fault : Except Fault α) (.error fault') :=
  fun _ => ⟨nofun, nofun⟩

/-- Of a sequence, the second parts matter for the answers that the first parts have. -/
theorem bind (first : Alike x y) (next : ∀ a, x = .ok a → Alike (f a) (g a)) :
    Alike (x >>= f) (y >>= g) := by
  intro b
  rw [bind_eq_ok, bind_eq_ok]
  constructor
  · rintro ⟨a, found, rest⟩
    exact ⟨a, (first a).mp found, (next a found b).mp rest⟩
  · rintro ⟨a, found, rest⟩
    have found' := (first a).mpr found
    exact ⟨a, found', (next a found' b).mpr rest⟩

end Alike

/-- The type of a commutative operation does not depend on the order of the operands. -/
theorem CType.binary_comm {op : BinaryOp} (commutative : op.isCommutative = true) (l r : CType) :
    Alike (binary op l r) (binary op.mirrored r l) := by
  intro t
  rw [binary_eq_ok, binary_eq_ok, binary?_mirrored, binary?_comm commutative]

/-- Two numbers are equal in either order. -/
theorem Binary64.numEq_comm (x y : Binary64) : x.numEq y = y.numEq x := by
  rw [Bool.eq_iff_iff, numEq_iff, numEq_iff]
  simp only [and_comm]

namespace Value

variable {table : StructTable} {op : BinaryOp}

theorem combine_comm {onWhole : Int → Int → Int} (comm : ∀ a b, onWhole a b = onWhole b a)
    (onFloat : Binary64 → Binary64 → Binary64) {type : CType} (notFloat : type.isFloat = false)
    (v w : Value) : v.combine w type onWhole onFloat = w.combine v type onWhole onFloat := by
  simp only [combine, notFloat, comm v.whole w.whole, Bool.false_eq_true, if_false]

theorem mixesPointer_comm (v w : Value) : v.mixesPointer w = w.mixesPointer v :=
  Bool.or_comm ..

theorem relation?_mirrored (op : BinaryOp) (x y : Binary64) :
    relation? op x y = relation? op.mirrored y x := by
  cases op
  case eq | ne => simp only [relation?, BinaryOp.mirrored, Binary64.numEq_comm x y]
  all_goals rfl

/-- A sum with a pointer counts in the elements of the pointer, on whichever side it is. -/
theorem plus_comm {v w : Value} (left : v.type.isFloat = false) (right : w.type.isFloat = false) :
    Alike (v.plus table w) (w.plus table v) := by
  have typed : Alike (CType.binary .add v.type w.type) (CType.binary .add w.type v.type) :=
    CType.binary_comm rfl v.type w.type
  refine typed.bind fun type found => ?_
  have notFloat := CType.isFloat_of_binary? (CType.binary_eq_ok.mp found) left right
  cases pv : v.type.isPointerLike <;> cases pw : w.type.isPointerLike
  case true.true =>
    rw [CType.binary_eq_ok, CType.binary?_add_pointers pv pw] at found
    cases found
  case true.false =>
    simp only [if_true, if_false, Bool.false_eq_true]
    exact .refl _
  case false.true =>
    simp only [if_true, if_false, Bool.false_eq_true]
    exact .refl _
  case false.false =>
    simp only [if_false, Bool.false_eq_true, combine_comm Int.add_comm Binary64.add notFloat v w]
    exact .refl _

theorem times_comm {v w : Value} (left : v.type.isFloat = false) (right : w.type.isFloat = false) :
    Alike (v.times w) (w.times v) := by
  have typed : Alike (CType.binary .mul v.type w.type) (CType.binary .mul w.type v.type) :=
    CType.binary_comm rfl v.type w.type
  refine typed.bind fun type found => ?_
  have notFloat := CType.isFloat_of_binary? (CType.binary_eq_ok.mp found) left right
  rw [combine_comm Int.mul_comm Binary64.mul notFloat v w]
  exact .refl _

/-- A comparison says the same as the one that it is turned into.  Next to a pointer, only the null
constant is compared on either side. -/
theorem compare_comm (commutative : op.isCommutative = true) (v w : Value) :
    Alike (compare op v w) (compare op.mirrored w v) := by
  refine (CType.binary_comm commutative v.type w.type).bind fun type _ => ?_
  rw [mixesPointer_comm w v, ← relation?_mirrored]
  cases v.mixesPointer w with
  | true => exact .error _ _
  | false =>
    cases relation? op v.number w.number with
    | none => exact .error _ _
    | some result => exact .refl _

theorem logical_comm (logical : op.isLogical = true) (v w : Value) :
    Alike (Value.logical op v w) (Value.logical op w v) := by
  have typed : Alike (CType.binary op v.type w.type) (CType.binary op w.type v.type) := by
    cases op <;> cases logical <;> exact CType.binary_comm rfl v.type w.type
  refine typed.bind fun type _ => ?_
  rw [Bool.and_comm v.isTrue, Bool.or_comm v.isTrue]
  exact .refl _

theorem bitPattern_comm (commutative : op.isCommutative = true) (bits : op.isBitwise = true)
    (a b : BitVec 32) : bitPattern op a b = bitPattern op b a := by
  cases op <;> cases commutative <;> cases bits
  case bitAnd => exact BitVec.and_comm a b
  case bitOr => exact BitVec.or_comm a b
  case bitXor => exact BitVec.xor_comm a b

theorem bitwise_comm (commutative : op.isCommutative = true) (bits : op.isBitwise = true)
    (v w : Value) : Alike (bitwise op v w) (bitwise op w v) := by
  have typed : Alike (CType.binary op v.type w.type) (CType.binary op w.type v.type) := by
    cases op <;> cases commutative <;> cases bits <;> exact CType.binary_comm rfl v.type w.type
  refine typed.bind fun type _ => ?_
  rw [bitPattern_comm commutative bits]
  exact .refl _

/-- **Operands of a commutative operator may be swapped.**  The commutative operators are the sum,
the product, all comparisons, `&&`, `||`, `&`, `|` and `^`; a comparison by order is turned around
with its operands, and the others stay.  The type of the result is the same in both orders, or there
is none in either.  Two values that are not of type `float`, whether they name places in memory or
not, give the same value in both orders, with its type and in all bits of its number, or fail in
both. -/
theorem operators_commute (table : StructTable) (op : BinaryOp)
    (commutative : op.isCommutative = true) :
    (∀ l r : CType, CType.binary? op l r = CType.binary? op r l) ∧
      ∀ v w : Value, v.type ≠ .float → w.type ≠ .float →
        Alike (v.binary table op w) (w.binary table op.mirrored v) := by
  have notFloat {t : CType} (other : t ≠ .float) : t.isFloat = false := by
    cases t with
    | float => exact absurd rfl other
    | _ => rfl
  refine ⟨CType.binary?_comm commutative, fun v w left right => ?_⟩
  cases op
  case add => exact plus_comm (notFloat left) (notFloat right)
  case mul => exact times_comm (notFloat left) (notFloat right)
  case eq | ne | lt | le | gt | ge => exact compare_comm rfl v w
  case and | or => exact logical_comm rfl v w
  case bitAnd | bitOr | bitXor => exact bitwise_comm rfl rfl v w
  case sub | div | mod | shiftLeft | shiftRight => cases commutative

/-- Three elements of type `int` behind the address 8, counted from either side, is the address 20,
and it comes after the null pointer, which comes before it. -/
theorem pointer_moved_from_either_side :
    let pointer := pointerTo 8 (.pointer .int)
    let count := literal (.ofNat 3)
    let null := pointerTo 0 .voidPointer
    BinaryOp.add.isCommutative = true ∧ BinaryOp.lt.isCommutative = true ∧
      pointer.type ≠ .float ∧ count.type ≠ .float ∧ null.type ≠ .float ∧
      pointer.binary .empty .add count = .ok (pointerTo 20 (.pointer .int)) ∧
      count.binary .empty .add pointer = .ok (pointerTo 20 (.pointer .int)) ∧
      null.binary .empty .lt pointer = .ok (ofBool true) ∧
      pointer.binary .empty .gt null = .ok (ofBool true) := by
  intro pointer count null
  have answered {x : Except Fault Value} {v : Value} (found : x.toOption = some v) : x = .ok v := by
    cases x with
    | ok w => cases found; rfl
    | error _ => cases found
  have pointerTyped : pointer.type ≠ .float := by decide
  have countTyped : count.type ≠ .float := by decide +kernel
  have nullTyped : null.type ≠ .float := by decide
  have sum : pointer.binary .empty .add count = .ok (pointerTo 20 (.pointer .int)) :=
    answered (by decide +kernel)
  have below : null.binary .empty .lt pointer = .ok (ofBool true) := answered (by decide +kernel)
  obtain ⟨-, swapped⟩ := operators_commute .empty .add rfl
  obtain ⟨-, turned⟩ := operators_commute .empty .lt rfl
  exact ⟨rfl, rfl, pointerTyped, countTyped, nullTyped, sum,
    (swapped pointer count pointerTyped countTyped _).mp sum, below,
    (turned null pointer nullTyped pointerTyped _).mp below⟩

end Value
end FlatC

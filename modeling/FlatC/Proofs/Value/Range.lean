import FlatC.Image.Create
import FlatC.Proofs.Number.Single
import FlatC.Proofs.Number.Whole
import FlatC.Proofs.Value.Computed

/-!
# Values in the range of their types

Whoever makes a value fits its number to its type first, and what has been fitted stays as it is
when it is fitted again.  So every value is in the range of its type, whatever operations it comes
from: a whole number between the bounds of the type, or a number of single precision for `float`.

* `CType.bounds?` are the bounds of a type whose values are whole, and `CType.Holds` is the numbers
  in the range of a type;
* `CType.holds_fit` and `CType.holds_iff_fit_eq` say that these are the numbers that fitting gives
  and leaves alone;
* `Value.Made` is the values that operations make of one another, and `Value.Made.inRange` says that
  they are in range.
-/

namespace FlatC

/-! ## Ranges -/

namespace CType

/-- The least and the greatest value of a type whose values are whole numbers. -/
def bounds? : CType → Option (Int × Int)
  | .int => some (-2147483648, 2147483647)
  | .char => some (-128, 127)
  | .pointer _ | .array .. | .struct _ => some (0, 4294967295)
  | .float | .void | .function => none

/-- The number is in the range of the type. -/
def Holds (type : CType) (x : Binary64) : Prop :=
  match type.bounds? with
  | some (least, greatest) => ∃ n, least ≤ n ∧ n ≤ greatest ∧ x.IsWhole n
  | none => type = .float → x.toSingle = x

variable {type : CType} {x : Binary64}

/-- The whole number of a number in the range of a type, between bounds that all types share. -/
theorem Holds.whole (h : type.Holds x) (whole : type.bounds?.isSome) :
    ∃ n, -2147483648 ≤ n ∧ n ≤ 4294967295 ∧ x.IsWhole n := by
  cases type with
  | int | char | pointer _ | array _ _ | struct _ =>
    obtain ⟨n, lower, upper, isWhole⟩ := h
    exact ⟨n, by omega, by omega, isWhole⟩
  | float | void | function => cases whole

/-- A number that has been fitted to a type is in its range. -/
theorem holds_fit (type : CType) (x : Binary64) : type.Holds (type.fit x) := by
  cases type with
  | int =>
    obtain ⟨n, isWhole⟩ := Binary64.isWhole_wrap wordRange true x
    have lower : -(wordRange / 2 : Int) ≤ n.bmod wordRange := Int.le_bmod (by decide)
    have upper : n.bmod wordRange < (wordRange + 1 : Int) / 2 := Int.bmod_lt (by decide)
    rw [if_pos rfl] at isWhole
    exact ⟨_, lower, Int.le_of_lt_add_one upper, isWhole⟩
  | char =>
    obtain ⟨n, isWhole⟩ := Binary64.isWhole_wrap byteRange true x
    have lower : -(byteRange / 2 : Int) ≤ n.bmod byteRange := Int.le_bmod (by decide)
    have upper : n.bmod byteRange < (byteRange + 1 : Int) / 2 := Int.bmod_lt (by decide)
    rw [if_pos rfl] at isWhole
    exact ⟨_, lower, Int.le_of_lt_add_one upper, isWhole⟩
  | pointer _ | array _ _ | struct _ =>
    obtain ⟨n, isWhole⟩ := Binary64.isWhole_wrap wordRange false x
    have lower : 0 ≤ n % wordRange := Int.emod_nonneg n (by decide)
    have upper : n % wordRange < wordRange := Int.emod_lt_of_pos n (by decide)
    exact ⟨_, lower, Int.le_of_lt_add_one upper, isWhole⟩
  | float => exact fun _ => x.toSingle_toSingle
  | void | function => exact nofun

/-- Fitting leaves a number alone that is in the range of the type. -/
theorem Holds.fit_eq (h : type.Holds x) : type.fit x = x := by
  cases type with
  | int | char =>
    obtain ⟨n, lower, upper, isWhole⟩ := h
    refine isWhole.wrap_eq ?_
    simp only [if_true, wordRange, byteRange]
    exact Int.bmod_eq_of_le (by omega) (by omega)
  | pointer _ | array _ _ | struct _ =>
    obtain ⟨n, lower, upper, isWhole⟩ := h
    refine isWhole.wrap_eq ?_
    simp only [wordRange]
    exact Int.emod_eq_of_lt lower (by omega)
  | float => exact h rfl
  | void | function => rfl

/-- The range of a type is what fitting leaves alone. -/
theorem holds_iff_fit_eq : type.Holds x ↔ type.fit x = x := by
  constructor
  · exact Holds.fit_eq
  · intro same
    rw [← same]
    exact type.holds_fit x

/-- For whole types it does not matter that a zero may have a sign. -/
theorem holds_iff_numEq (whole : type.bounds?.isSome) :
    type.Holds x ↔ (type.fit x).numEq x = true := by
  constructor
  · intro h
    obtain ⟨n, -, -, isWhole⟩ := h.whole whole
    rw [h.fit_eq, isWhole.numEq_iff isWhole]
  · intro same
    have fitted := type.holds_fit x
    obtain ⟨n, lower, upper, isWhole⟩ := fitted.whole whole
    obtain ⟨place, first, second⟩ := Binary64.numEq_iff.mp same
    have rank : x.rank = some (n * scale) := by
      rw [second, ← first, isWhole.rank_eq]
    have small : n.natAbs < twoPow 1024 := by
      have power : (4294967296 : Nat) ≤ twoPow 1024 := by decide +kernel
      omega
    have isWhole' := Binary64.isWhole_of_rank rank small
    cases type with
    | int | char | pointer _ | array _ _ | struct _ =>
      obtain ⟨n', lower', upper', fittedWhole⟩ := fitted
      obtain rfl := fittedWhole.unique isWhole
      exact ⟨n', lower', upper', isWhole'⟩
    | float | void | function => cases whole

/-- Whole numbers are divided only if the divisor is of a type with bounds. -/
theorem bounds?_of_quotient {op : BinaryOp} {dividend divisor : CType}
    (division : op = .div ∨ op = .mod) (typed : CType.binary op dividend divisor = .ok type)
    (whole : type.isFloat = false) : divisor.bounds?.isSome := by
  have found : binary? op dividend divisor = some type := by
    unfold CType.binary at typed
    split at typed <;> cases typed
    assumption
  cases divisor with
  | int | char | pointer _ | array _ _ | struct _ => rfl
  | float =>
    obtain rfl | rfl := division <;> cases dividend <;>
      simp [binary?, arithmeticBinary?, pointerBinary?, isArithmetic, isFloat, isPointerLike,
        BinaryOp.isRelational, BinaryOp.isLogical, BinaryOp.isBitwise] at found
    all_goals cases found; cases whole
  | void | function =>
    obtain rfl | rfl := division <;> cases dividend <;>
      simp [binary?, pointerBinary?, isArithmetic, isPointerLike] at found

end CType

/-- The number of the value is in the range of its type. -/
def Value.InRange (v : Value) : Prop :=
  v.type.Holds v.number

/-! ## Operations -/

namespace Value

variable {table : StructTable} {v w : Value}

theorem inRange_rvalue (x : Binary64) (type : CType) : (rvalue x type).InRange :=
  type.holds_fit x

theorem inRange_lvalue (x : Binary64) (type : CType) (address : Nat) :
    (lvalue x type address).InRange :=
  type.holds_fit x

theorem inRange_castTo (v : Value) (target : CType) (keepAddress : Bool) :
    (v.castTo target keepAddress).InRange :=
  target.holds_fit _

/-- Whatever the computation yields is in range. -/
def Ranged (result : Except Fault Value) : Prop :=
  ∀ r, result = .ok r → r.InRange

theorem ranged_ok (h : v.InRange) : Ranged (.ok v) := by
  rintro r ⟨⟩
  exact h

theorem ranged_error (fault : Fault) : Ranged (.error fault) :=
  nofun

theorem ranged_bind {α : Type} {x : Except Fault α} {f : α → Except Fault Value}
    (next : ∀ a, Ranged (f a)) : Ranged (x >>= f) := by
  intro r h
  obtain ⟨a, -, rest⟩ := bind_eq_ok.mp h
  exact next a r rest

/-- What an operator computes is fitted to its type. -/
theorem ranged_of_computed {F : Fault → Prop} {result : Except Fault Value}
    (h : Computed F result) : Ranged result := by
  intro r found
  obtain ⟨type, x, rfl⟩ := h.answer found
  exact inRange_rvalue x type

end Value

namespace Image

open Value

variable {table : StructTable} {image : Image} {address : Nat}

theorem ranged_readInt : Ranged (image.readInt address) :=
  ranged_bind fun _ => ranged_ok (inRange_lvalue _ _ _)

theorem ranged_readFloat : Ranged (image.readFloat address) :=
  ranged_bind fun _ => ranged_ok (inRange_lvalue _ _ _)

theorem ranged_readChar : Ranged (image.readChar address) :=
  ranged_bind fun _ => ranged_ok (inRange_lvalue _ _ _)

theorem ranged_readPointer (type : CType) : Ranged (image.readPointer address type) :=
  ranged_bind fun _ => ranged_ok (inRange_lvalue _ _ _)

theorem ranged_read (type : CType) : Ranged (image.read table address type) := by
  cases type with
  | int => exact ranged_readInt
  | float => exact ranged_readFloat
  | char => exact ranged_readChar
  | pointer target => exact ranged_readPointer _
  | array _ _ | struct _ =>
    exact ranged_bind fun size => ranged_bind fun _ => ranged_ok (inRange_lvalue _ _ _)
  | void | function => exact ranged_error _

end Image

namespace Value

open Step

variable {table : StructTable} {v w : Value}

theorem ranged_deref (image : Image) : Ranged (v.deref table image) :=
  ranged_bind fun type => Image.ranged_read type

theorem ranged_member (field : String) (image : Image) : Ranged (v.member table field image) := by
  unfold member
  split
  · exact ranged_bind fun found => Image.ranged_read _
  · exact ranged_error _

theorem yields_of_computed {F : Fault → Prop} {result : Except Fault Value}
    (h : Computed F result) : Yields InRange (Store.of result) :=
  fun _ r _ ended => ranged_of_computed h r (Store.of_eq_ok ended)

/-- A step and an assignment yield what they compute, or an operand that was in range before. -/
theorem inRange_yielded {r : Value} (h : v.InRange) (yielded : r.IsComputed ∨ r = v.toRvalue) :
    r.InRange := by
  obtain ⟨type, x, rfl⟩ | rfl := yielded
  · exact inRange_rvalue x type
  · exact h

theorem yields_unary (op : UnaryOp) (h : v.InRange) : Yields InRange (v.unary table op) := by
  cases op
  case deref => exact fun image r _ ended => ranged_deref image r (Image.query_eq_ok ended)
  case addressOf => exact yields_of_computed (computed_addressOf v)
  case preInc | preDec | postInc | postDec =>
    exact fun _ _ _ ended => inRange_yielded h (yields_stepBy rfl table v _ _ _ ended)
  case neg | plus | not | bitNot => exact yields_of_computed (computed_plainUnary _ v)

/-! ## Values that operations make -/

/-- The values that the operations on values and memory make, starting from numbers, from what is
in memory and from any values in range. -/
inductive Made (table : StructTable) : Value → Prop where
  | given {v : Value} : v.InRange → Made table v
  | rvalue (x : Binary64) (type : CType) : Made table (.rvalue x type)
  | lvalue (x : Binary64) (type : CType) (address : Nat) : Made table (.lvalue x type address)
  | literal (x : Binary64) : Made table (.literal x)
  | read {image : Image} {address : Nat} {type : CType} {r : Value} :
      image.read table address type = .ok r → Made table r
  | readInt {image : Image} {address : Nat} {r : Value} :
      image.readInt address = .ok r → Made table r
  | readFloat {image : Image} {address : Nat} {r : Value} :
      image.readFloat address = .ok r → Made table r
  | readChar {image : Image} {address : Nat} {r : Value} :
      image.readChar address = .ok r → Made table r
  | readPointer {image : Image} {address : Nat} {type : CType} {r : Value} :
      image.readPointer address type = .ok r → Made table r
  | toRvalue {v : Value} : Made table v → Made table v.toRvalue
  | castTo {v : Value} (target : CType) (keepAddress : Bool) :
      Made table v → Made table (v.castTo target keepAddress)
  | implicit {v r : Value} {target : CType} :
      Made table v → v.implicit target = .ok r → Made table r
  | explicit {v r : Value} {target : CType} :
      Made table v → v.explicit target = .ok r → Made table r
  | binary {v w r : Value} {op : BinaryOp} :
      Made table v → Made table w → v.binary table op w = .ok r → Made table r
  | compare {v w r : Value} {op : BinaryOp} :
      Made table v → Made table w → compare op v w = .ok r → Made table r
  | logical {v w r : Value} {op : BinaryOp} :
      Made table v → Made table w → logical op v w = .ok r → Made table r
  | bitwise {v w r : Value} {op : BinaryOp} :
      Made table v → Made table w → bitwise op v w = .ok r → Made table r
  | unary {v r : Value} {op : UnaryOp} {image image' : Image} :
      Made table v → v.unary table op image = .ok r image' → Made table r
  | assign {v w r : Value} {op : AssignOp} {image image' : Image} :
      Made table v → Made table w → v.assign table op w image = .ok r image' → Made table r
  | addressOf {v r : Value} : Made table v → v.addressOf = .ok r → Made table r
  | deref {v r : Value} {image : Image} :
      Made table v → v.deref table image = .ok r → Made table r
  | member {v r : Value} {field : String} {image : Image} :
      Made table v → v.member table field image = .ok r → Made table r

theorem Made.inRange (h : Made table v) : v.InRange := by
  induction h with
  | given inRange => exact inRange
  | rvalue x type => exact inRange_rvalue x type
  | lvalue x type address => exact inRange_lvalue x type address
  | literal x => exact inRange_rvalue x _
  | read found => exact Image.ranged_read _ _ found
  | readInt found => exact Image.ranged_readInt _ found
  | readFloat found => exact Image.ranged_readFloat _ found
  | readChar found => exact Image.ranged_readChar _ found
  | readPointer found => exact Image.ranged_readPointer _ _ found
  | toRvalue _ ih => exact ih
  | castTo target keepAddress _ _ => exact inRange_castTo _ target keepAddress
  | implicit _ done _ => exact ranged_of_computed (computed_implicit ..) _ done
  | explicit _ done _ => exact ranged_of_computed (computed_explicit ..) _ done
  | binary _ _ done _ _ => exact ranged_of_computed (computed_binary ..) _ done
  | compare _ _ done _ _ => exact ranged_of_computed (computed_compare ..) _ done
  | logical _ _ done _ _ => exact ranged_of_computed (computed_logical ..) _ done
  | bitwise _ _ done _ _ => exact ranged_of_computed (computed_bitwise ..) _ done
  | unary _ done ih => exact yields_unary _ ih _ _ _ done
  | assign _ _ done _ ih => exact inRange_yielded ih (yields_assign _ _ _ _ _ _ _ done)
  | addressOf _ done _ => exact ranged_of_computed (computed_addressOf _) _ done
  | deref _ done _ => exact ranged_deref _ _ done
  | member _ done _ => exact ranged_member _ _ _ done

/-! ## Divisors -/

/-- A whole number in range that counts as true does not vanish when it is read. -/
theorem InRange.whole_ne_zero (h : v.InRange) (bounded : v.type.bounds?.isSome)
    (isTrue : v.isTrue = true) : v.whole ≠ 0 := by
  obtain ⟨n, lower, upper, isWhole⟩ := CType.Holds.whole h bounded
  have read : v.whole = n := isWhole.toInt64 (by simp only [longTop]; omega)
    (by simp only [longTop]; omega)
  rw [read]
  exact isWhole.isTrue_iff.mp isTrue

/-- **Values are in the range of their types.**  Whatever operations make a value, its number is in
the range of its type.  These are the numbers that fitting leaves alone, up to the sign of a zero
where the type has bounds.  So when whole numbers are divided, a divisor that counts as true is not
read as zero. -/
theorem made_values_in_range (table : StructTable) :
    (∀ v, Made table v → v.InRange) ∧
      (∀ v : Value, v.InRange ↔ v.type.fit v.number = v.number) ∧
      (∀ v : Value, v.type.bounds?.isSome →
        (v.InRange ↔ (v.type.fit v.number).numEq v.number = true)) ∧
      ∀ (op : BinaryOp) (v w : Value) (type : CType), op = .div ∨ op = .mod → Made table w →
        w.isTrue = true → CType.binary op v.type w.type = .ok type → type.isFloat = false →
        w.whole ≠ 0 := by
  refine ⟨fun v made => made.inRange, fun v => CType.holds_iff_fit_eq,
    fun v bounded => CType.holds_iff_numEq bounded, ?_⟩
  intro op v w type division made isTrue typed whole
  exact made.inRange.whole_ne_zero (CType.bounds?_of_quotient division typed whole) isTrue

/-- The greatest `char`, one step up, is the least one, and numbers can be divided by it. -/
theorem wrapped_char_in_range :
    ∃ r, Made .empty r ∧ r = rvalue (.ofInt (-128)) .char ∧ r.InRange ∧ r.whole ≠ 0 := by
  let letter := lvalue (.ofInt 127) .char 44
  have answer : (match unary .empty .preInc letter (Image.blank ⟨4, 16, 32, .reclaim⟩) with
      | .ok r _ => decide (r = rvalue (.ofInt (-128)) .char)
      | .error _ _ => false) = true := by
    decide +kernel
  split at answer
  next r image stepped =>
    replace answer := of_decide_eq_true answer
    have made : Made .empty r := .unary (.lvalue _ _ _) stepped
    obtain ⟨ranged, -, -, divisor⟩ := made_values_in_range .empty
    refine ⟨r, made, answer, ranged r made, ?_⟩
    refine divisor .div (ofInt 10) r .int (.inl rfl) made ?_ ?_ rfl
    · rw [answer]
      decide +kernel
    · rw [answer]
      rfl
  next => cases answer

end Value

end FlatC

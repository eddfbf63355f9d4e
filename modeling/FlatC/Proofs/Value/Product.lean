import FlatC.Proofs.Number.Nearest
import FlatC.Proofs.Value.Range

/-!
# Products of integers

The product of two integers is computed exactly, becomes a number of the double format and is then
wrapped to 32 bits.  It has up to 62 bits, and the format keeps 53.  So the low bits of a large
product are those of a rounded one, and the result is the product modulo `2 ^ 32` only if the
product is itself a number of the format.

* `Value.Integer` is the values of type `int` or `char` with their whole numbers;
* `Value.Integer.times_eq` says what is computed, without a fault for any pair of them;
* `Value.integer_product_rounds_to_53_bits` says what the result is, and when it is the product
  modulo `2 ^ 32`;
* `Value.greatest_int_squared_loses_its_low_bit` has a pair where it is not.
-/

namespace FlatC

open Binary64

/-- Two numbers less than a whole range apart differ by a multiple of it only if they are the
same. -/
theorem dvd_sub_iff_eq {range : Nat} {k p : Int} (close : (k - p).natAbs < range) :
    (range : Int) ∣ k - p ↔ k = p := by
  constructor
  · intro multiple
    have none := Int.eq_zero_of_dvd_of_natAbs_lt_natAbs multiple (by simpa using close)
    omega
  · rintro rfl
    rw [Int.sub_self]
    exact Int.dvd_zero _

/-- So they wrap to the same only if they are the same. -/
theorem bmod_eq_bmod_iff {range : Nat} {k p : Int} (close : (k - p).natAbs < range) :
    k.bmod range = p.bmod range ↔ k = p := by
  rw [Int.bmod_eq_bmod_iff_bmod_sub_eq_zero, ← Int.dvd_iff_bmod_eq_zero, dvd_sub_iff_eq close]

namespace Value

variable {v w : Value} {m n : Int}

/-- The value is the integer `n`, of type `int` or `char`. -/
structure Integer (v : Value) (n : Int) : Prop where
  typed : v.type = .int ∨ v.type = .char
  ranged : v.InRange
  isWhole : v.number.IsWhole n

theorem integer_of_holds {type : CType} (typed : type = .int ∨ type = .char)
    (small : n.natAbs < twoPow 53) (held : type.Holds (.ofInt n)) :
    (rvalue (.ofInt n) type).Integer n := by
  refine ⟨typed, inRange_rvalue .., ?_⟩
  show (type.fit (.ofInt n)).IsWhole n
  rw [held.fit_eq]
  exact isWhole_ofInt small

/-- Every value of type `int` or `char` is an integer. -/
theorem exists_integer (typed : v.type = .int ∨ v.type = .char) (ranged : v.InRange) :
    ∃ n, v.Integer n := by
  have bounded : v.type.bounds?.isSome := by
    obtain type | type := typed <;> rw [type] <;> rfl
  obtain ⟨n, -, -, whole⟩ := CType.Holds.whole ranged bounded
  exact ⟨n, typed, ranged, whole⟩

/-- Every number between the bounds of `int` is the integer of a value. -/
theorem integer_int (lower : -2147483648 ≤ n) (upper : n ≤ 2147483647) :
    (rvalue (.ofInt n) .int).Integer n := by
  have power : twoPow 53 = 9007199254740992 := rfl
  have small : n.natAbs < twoPow 53 := by omega
  exact integer_of_holds (.inl rfl) small ⟨n, lower, upper, isWhole_ofInt small⟩

/-- So is every number between the bounds of `char`. -/
theorem integer_char (lower : -128 ≤ n) (upper : n ≤ 127) :
    (rvalue (.ofInt n) .char).Integer n := by
  have power : twoPow 53 = 9007199254740992 := rfl
  have small : n.natAbs < twoPow 53 := by omega
  exact integer_of_holds (.inr rfl) small ⟨n, lower, upper, isWhole_ofInt small⟩

namespace Integer

/-- Integers of both types lie between the bounds of `int`. -/
theorem bounds (h : v.Integer n) : -2147483648 ≤ n ∧ n ≤ 2147483647 := by
  have ranged : v.type.Holds v.number := h.ranged
  obtain int | char := h.typed
  · rw [int] at ranged
    obtain ⟨n', lower, upper, isWhole⟩ := ranged
    obtain rfl := isWhole.unique h.isWhole
    omega
  · rw [char] at ranged
    obtain ⟨n', lower, upper, isWhole⟩ := ranged
    obtain rfl := isWhole.unique h.isWhole
    omega

theorem natAbs_le (h : v.Integer n) : n.natAbs ≤ twoPow 31 := by
  have power : twoPow 31 = 2147483648 := rfl
  have between := h.bounds
  omega

theorem whole_eq (h : v.Integer n) : v.whole = n := by
  have power : twoPow 31 = 2147483648 := rfl
  have small := h.natAbs_le
  refine h.isWhole.toInt64 ?_ ?_
  · simp only [longTop]
    omega
  · simp only [longTop]
    omega

/-- Every operator applies to two integers and yields an `int`. -/
theorem binary_eq (h : v.Integer m) (h' : w.Integer n) (op : BinaryOp) :
    CType.binary op v.type w.type = .ok .int := by
  obtain left | left := h.typed <;> obtain right | right := h'.typed <;> rw [left, right] <;>
    cases op <;> rfl

/-- Two integers are combined as whole numbers. -/
theorem combine_eq (h : v.Integer m) (h' : w.Integer n) (onWhole : Int → Int → Int)
    (onFloat : Binary64 → Binary64 → Binary64) :
    v.combine w .int onWhole onFloat = rvalue (.ofInt (onWhole m n)) .int := by
  have wholly : CType.int.isFloat = false := rfl
  simp only [combine, h.whole_eq, h'.whole_eq, wholly, Bool.false_eq_true, if_false]

/-- The product of two integers is computed exactly before it becomes an `int`. -/
theorem times_eq (h : v.Integer m) (h' : w.Integer n) :
    v.times w = .ok (rvalue (.ofInt (m * n)) .int) := by
  simp only [times, h.binary_eq h', h.combine_eq h', bind, Except.bind, pure, Except.pure]

theorem natAbs_mul_le (h : v.Integer m) (h' : w.Integer n) : (m * n).natAbs ≤ twoPow 62 := by
  have square : twoPow 62 = twoPow 31 * twoPow 31 := twoPow_add 31 31
  rw [Int.natAbs_mul, square]
  exact Nat.mul_le_mul h.natAbs_le h'.natAbs_le

/-- Rounding moves a product of two integers by no more than 256. -/
theorem near_mul {k : Int} (h : v.Integer m) (h' : w.Integer n) (nearest : Nearest (m * n) k) :
    (k - m * n).natAbs ≤ 256 := by
  have near := nearest.near_of_le (e := 9) (h.natAbs_mul_le h')
  have power : twoPow 9 = 512 := rfl
  omega

end Integer

/-- **The product of two integers is rounded to 53 significant bits before its low 32 bits are
kept.**  Multiplication succeeds for every pair of integers and yields an `int`.  It is the exact
product modulo `2 ^ 32`, between `-2 ^ 31` and `2 ^ 31`, if the product is a number of the double
format, in particular if it is not beyond `2 ^ 53`; and for no other pair.  For the others the
number that is reduced is the nearest one of the format, up to 256 away. -/
theorem integer_product_rounds_to_53_bits (h : v.Integer m) (h' : w.Integer n) :
    ∃ r k, v.times w = .ok r ∧ r.type = .int ∧ r.address = none ∧
      Nearest (m * n) k ∧ (k - m * n).natAbs ≤ 256 ∧ r.number.IsWhole (k.bmod wordRange) ∧
      (r.number.IsWhole ((m * n).bmod wordRange) ↔ (spacing (m * n) : Int) ∣ m * n) ∧
      ((m * n).natAbs ≤ twoPow 53 → r.number.IsWhole ((m * n).bmod wordRange)) := by
  have small : (m * n).natAbs < twoPow 1023 :=
    Nat.lt_of_le_of_lt (h.natAbs_mul_le h') (by decide +kernel)
  obtain ⟨k, nearest, isWhole⟩ := exists_nearest small
  have near := h.near_mul h' nearest
  have reduced : (rvalue (.ofInt (m * n)) .int).number.IsWhole (k.bmod wordRange) :=
    isWhole.wrap wordRange true
  have right : (rvalue (.ofInt (m * n)) .int).number.IsWhole ((m * n).bmod wordRange) ↔
      (spacing (m * n) : Int) ∣ m * n := by
    have close : (k - m * n).natAbs < wordRange := Nat.lt_of_le_of_lt near (by decide)
    rw [← nearest.eq_iff, ← bmod_eq_bmod_iff close]
    constructor
    · exact fun exact => reduced.unique exact
    · intro same
      rwa [same] at reduced
  exact ⟨_, k, h.times_eq h', rfl, rfl, nearest, near, reduced, right,
    fun short => right.mpr (spacing_dvd_of_le short)⟩

/-- The greatest `int` times `2 ^ 22` has 53 bits, and wraps to `-2 ^ 22`. -/
theorem greatest_int_times_two_pow_22 :
    (rvalue (.ofInt 2147483647) .int).Integer 2147483647 ∧
      (rvalue (.ofInt 4194304) .int).Integer 4194304 ∧
      ∃ r, (rvalue (.ofInt 2147483647) .int).times (rvalue (.ofInt 4194304) .int) = .ok r ∧
        r.number.IsWhole (-4194304) := by
  have greatest := integer_int (n := 2147483647) (by decide) (by decide)
  have power := integer_int (n := 4194304) (by decide) (by decide)
  obtain ⟨r, k, product, -, -, -, -, -, -, short⟩ :=
    integer_product_rounds_to_53_bits greatest power
  exact ⟨greatest, power, r, product, short (by decide +kernel)⟩

/-- The greatest `int` squared is one more than a multiple of `2 ^ 32`, and the result is zero. -/
theorem greatest_int_squared_loses_its_low_bit :
    (match (rvalue (.ofInt 2147483647) .int).times (rvalue (.ofInt 2147483647) .int) with
      | .ok r => decide (r = rvalue (.ofInt 0) .int)
      | .error _ => false) = true ∧
      (2147483647 * 2147483647 : Int).bmod wordRange = 1 := by
  decide +kernel

end Value

end FlatC

import FlatC.Proofs.Number.Exact
import FlatC.Proofs.Value.Product
import Mathlib.Algebra.Ring.Int.Defs

/-!
# Arithmetic of integers

Integers go through numbers of the double format on their way into an operator and out of it.  All
operators but multiplication have results that the format can hold, so nothing is lost there, and
what wrapping makes of a result is its two's complement in 32 bits.

* `Value.WrapsTo` says that a computation succeeds with an `int`, which is a given integer modulo
  `2 ^ 32`;
* `Value.Integer.plus_eq` and the like compute the operators, and `Value.Integer.quotient_restored`
  puts a quotient and a remainder together again;
* `Value.integer_arithmetic_is_twos_complement` has all operators but multiplication.
-/

namespace FlatC

open Binary64

namespace Value

variable {table : StructTable} {v w : Value} {m n k l : Int} {result : Except Fault Value}

/-! ## Wrapped results -/

/-- The computation succeeds with an `int` that names no place in memory: the integer `k` modulo
`2 ^ 32`, not below `-2 ^ 31` and below `2 ^ 31`. -/
def WrapsTo (result : Except Fault Value) (k : Int) : Prop :=
  ∃ r, result = .ok r ∧ r.type = .int ∧ r.address = none ∧ r.Integer (k.bmod wordRange)

theorem wrapsTo_of_isWhole {x : Binary64} (whole : x.IsWhole k) :
    WrapsTo (.ok (rvalue x .int)) k :=
  ⟨_, rfl, rfl, rfl, .inl rfl, inRange_rvalue .., whole.wrap wordRange true⟩

theorem wrapsTo_ofInt (small : k.natAbs < twoPow 53) :
    WrapsTo (.ok (rvalue (.ofInt k) .int)) k :=
  wrapsTo_of_isWhole (isWhole_ofInt small)

/-- Only the low 32 bits of the integer count. -/
theorem WrapsTo.congr (h : WrapsTo result k) (same : k.bmod wordRange = l.bmod wordRange) :
    WrapsTo result l := by
  unfold WrapsTo at h ⊢
  rwa [← same]

/-- Wrapping moves no integer away from zero. -/
theorem natAbs_bmod_le (k : Int) : (k.bmod wordRange).natAbs ≤ k.natAbs := by
  simp only [wordRange]
  rw [Int.bmod_def]
  split <;> omega

/-! ## The operators -/

namespace Integer

theorem isPointerLike_eq (h : v.Integer n) : v.type.isPointerLike = false := by
  obtain type | type := h.typed <;> rw [type] <;> rfl

theorem bmod_eq (h : v.Integer n) : n.bmod wordRange = n := by
  obtain ⟨lower, upper⟩ := h.bounds
  simp only [wordRange]
  exact Int.bmod_eq_of_le (by omega) (by omega)

theorem toInt32_eq (h : v.Integer n) : v.toInt32 = n := by
  have read : v.number.toInt64 = n := h.whole_eq
  rw [toInt32, read, h.bmod_eq]

theorem isTrue_iff (h : v.Integer n) : v.isTrue = true ↔ n ≠ 0 :=
  h.isWhole.isTrue_iff

theorem plus_eq (h : v.Integer m) (h' : w.Integer n) :
    v.plus table w = .ok (rvalue (.ofInt (m + n)) .int) := by
  simp only [plus, h.binary_eq h', h.isPointerLike_eq, h'.isPointerLike_eq, h.combine_eq h', bind,
    Except.bind, pure, Except.pure, Bool.false_eq_true, if_false]

theorem minus_eq (h : v.Integer m) (h' : w.Integer n) :
    v.minus table w = .ok (rvalue (.ofInt (m - n)) .int) := by
  simp only [minus, h.binary_eq h', h.isPointerLike_eq, h.combine_eq h', bind, Except.bind, pure,
    Except.pure, Bool.false_eq_true, if_false]

theorem dividedBy_eq (h : v.Integer m) (h' : w.Integer n) (nonzero : n ≠ 0) :
    v.dividedBy w = .ok (rvalue (.ofInt (m.tdiv n)) .int) := by
  simp only [dividedBy, if_pos (h'.isTrue_iff.mpr nonzero), h.binary_eq h', h.combine_eq h', bind,
    Except.bind, pure, Except.pure]

theorem remainder_eq (h : v.Integer m) (h' : w.Integer n) (nonzero : n ≠ 0) :
    v.remainder w = .ok (rvalue (.ofInt (m.tmod n)) .int) := by
  simp only [remainder, if_pos (h'.isTrue_iff.mpr nonzero), h.binary_eq h', h.whole_eq,
    h'.whole_eq, bind, Except.bind, pure, Except.pure]

theorem bitwise_eq (h : v.Integer m) (h' : w.Integer n) (op : BinaryOp) :
    bitwise op v w =
      .ok (rvalue (.ofInt (bitPattern op (.ofInt 32 m) (.ofInt 32 n)).toInt) .int) := by
  simp only [bitwise, h.binary_eq h', h.toInt32_eq, h'.toInt32_eq, bind, Except.bind, pure,
    Except.pure]

theorem unary_eq (h : v.Integer n) {op : UnaryOp} (sign : op = .neg ∨ op = .bitNot) :
    CType.unary op v.type = .ok .int := by
  obtain type | type := h.typed <;> obtain rfl | rfl := sign <;> rw [type] <;> rfl

/-! ## Division -/

/-- What is no farther from zero than an integer needs no rounding. -/
theorem natAbs_lt_of_le (h : v.Integer m) (less : k.natAbs ≤ m.natAbs) : k.natAbs < twoPow 53 := by
  have power : twoPow 31 < twoPow 53 := by decide +kernel
  exact Nat.lt_of_le_of_lt (Nat.le_trans less h.natAbs_le) power

theorem natAbs_tmod_le (m n : Int) : (m.tmod n).natAbs ≤ m.natAbs := by
  rw [Int.natAbs_tmod]
  exact Nat.mod_le ..

/-- The quotient times the divisor, plus the remainder, is the dividend, whatever the two operands
are: each of the four results is an `int`, and only the quotient may have been wrapped. -/
theorem quotient_restored (h : v.Integer m) (h' : w.Integer n) (nonzero : n ≠ 0) :
    ∃ q r p s, v.dividedBy w = .ok q ∧ v.remainder w = .ok r ∧ q.times w = .ok p ∧
      p.plus table r = .ok s ∧ s.type = .int ∧ s.Integer m := by
  obtain ⟨q, divided, -, -, quotient⟩ :=
    wrapsTo_ofInt (h.natAbs_lt_of_le (Int.natAbs_tdiv_le_natAbs m n))
  obtain ⟨r, left, -, -, remainder⟩ := wrapsTo_ofInt (h.natAbs_lt_of_le (natAbs_tmod_le m n))
  have smaller : ((m.tdiv n).bmod wordRange * n).natAbs ≤ m.natAbs := by
    calc ((m.tdiv n).bmod wordRange * n).natAbs
        = ((m.tdiv n).bmod wordRange).natAbs * n.natAbs := Int.natAbs_mul ..
      _ ≤ (m.tdiv n).natAbs * n.natAbs := Nat.mul_le_mul_right _ (natAbs_bmod_le _)
      _ ≤ m.natAbs := by
        rw [Int.natAbs_tdiv]
        exact Nat.div_mul_le_self ..
  obtain ⟨p, multiplied, -, -, product⟩ := wrapsTo_ofInt (h.natAbs_lt_of_le smaller)
  have power : twoPow 53 = 9007199254740992 := rfl
  have wide : (((m.tdiv n).bmod wordRange * n).bmod wordRange +
      (m.tmod n).bmod wordRange).natAbs < twoPow 53 := by
    have left := product.bounds
    have right := remainder.bounds
    omega
  obtain ⟨s, added, type, -, sum⟩ := wrapsTo_ofInt wide
  have whole : (((m.tdiv n).bmod wordRange * n).bmod wordRange +
      (m.tmod n).bmod wordRange).bmod wordRange = m := by
    rw [Int.bmod_add_bmod, Int.add_bmod_bmod, ← Int.bmod_add_bmod, Int.bmod_mul_bmod,
      Int.bmod_add_bmod, Int.tdiv_mul_add_tmod, h.bmod_eq]
  rw [whole] at sum
  refine ⟨q, r, p, s, ?_, ?_, ?_, ?_, type, sum⟩
  · rw [h.dividedBy_eq h' nonzero, divided]
  · rw [h.remainder_eq h' nonzero, left]
  · rw [quotient.times_eq h', multiplied]
  · rw [product.plus_eq remainder, added]

end Integer

/-! ## Bit patterns -/

theorem natAbs_toInt_lt (a : BitVec 32) : a.toInt.natAbs < twoPow 53 := by
  have power : twoPow 53 = 9007199254740992 := rfl
  have upper := a.toInt_lt
  have lower := a.le_toInt
  omega

/-- The low five bits of a pattern are its integer modulo 32. -/
theorem shiftCount_eq (n : Int) : (BitVec.ofInt 32 n).toNat % 32 = (n % 32).toNat := by
  rw [BitVec.toNat_ofInt]
  omega

/-- The pattern of an integer, read as a natural number, is the integer from zero up. -/
theorem toNat_pattern (m : Int) : ((BitVec.ofInt 32 m).toNat : Int) = m % wordRange := by
  rw [BitVec.toNat_ofInt]
  exact Int.toNat_of_nonneg (Int.emod_nonneg m (by decide))

/-- A shift to the left multiplies by a power of two. -/
theorem toInt_shiftLeft (m : Int) (s : Nat) :
    (BitVec.ofInt 32 m <<< s).toInt = (m * 2 ^ s).bmod wordRange := by
  rw [BitVec.toInt_shiftLeft, Nat.shiftLeft_eq, Int.natCast_mul, toNat_pattern, Int.natCast_pow]
  exact Int.emod_mul_bmod ..

/-- A shift to the right divides by a power of two, downwards. -/
theorem Integer.toInt_shiftRight (h : v.Integer m) (s : Nat) :
    ((BitVec.ofInt 32 m).sshiftRight s).toInt = m / 2 ^ s := by
  have pattern : (BitVec.ofInt 32 m).toInt = m := by
    rw [BitVec.toInt_ofInt]
    exact h.bmod_eq
  rw [BitVec.toInt_sshiftRight, pattern, Int.shiftRight_eq_div_pow, Int.natCast_pow]
  rfl

/-- The complement of an integer is one below its negative. -/
theorem toInt_complement (m : Int) : (~~~ BitVec.ofInt 32 m).toInt = (-m - 1).bmod wordRange := by
  have turned : (2 : Int) ^ 32 - 1 - m = -m - 1 + wordRange := by
    simp only [wordRange]
    omega
  rw [BitVec.toInt_not, toNat_pattern, ← Int.add_bmod_right (-m - 1), ← turned]
  exact Int.sub_emod_bmod ..

/-! ## All operators but multiplication -/

/-- **Integer arithmetic is that of two's complement.**  For any two integers every operator but
multiplication yields an `int`: the exact sum and difference, the quotient and the remainder of the
division toward zero, what the bit operators make of the 32-bit patterns, the shifts by the right
operand modulo 32, and the negative and the complement, all modulo `2 ^ 32`.  Only a division by
zero fails.  Any other quotient times the divisor, plus the remainder, is the dividend. -/
theorem integer_arithmetic_is_twos_complement (table : StructTable) (h : v.Integer m)
    (h' : w.Integer n) :
    WrapsTo (v.plus table w) (m + n) ∧
      WrapsTo (v.minus table w) (m - n) ∧
      (n = 0 → v.dividedBy w = .error (.arithmetic .divisionByZero) ∧
        v.remainder w = .error (.arithmetic .moduloByZero)) ∧
      (n ≠ 0 → WrapsTo (v.dividedBy w) (m.tdiv n) ∧ WrapsTo (v.remainder w) (m.tmod n) ∧
        ∃ q r p s, v.dividedBy w = .ok q ∧ v.remainder w = .ok r ∧ q.times w = .ok p ∧
          p.plus table r = .ok s ∧ s.type = .int ∧ s.Integer m) ∧
      WrapsTo (bitwise .bitAnd v w) (BitVec.ofInt 32 m &&& BitVec.ofInt 32 n).toInt ∧
      WrapsTo (bitwise .bitOr v w) (BitVec.ofInt 32 m ||| BitVec.ofInt 32 n).toInt ∧
      WrapsTo (bitwise .bitXor v w) (BitVec.ofInt 32 m ^^^ BitVec.ofInt 32 n).toInt ∧
      WrapsTo (bitwise .shiftLeft v w) (m * 2 ^ (n % 32).toNat) ∧
      WrapsTo (bitwise .shiftRight v w) (m / 2 ^ (n % 32).toNat) ∧
      WrapsTo (v.plainUnary .neg) (-m) ∧
      WrapsTo (v.plainUnary .bitNot) (-m - 1) := by
  have power : twoPow 53 = 9007199254740992 := rfl
  have left := h.bounds
  have right := h'.bounds
  have bits (op : BinaryOp) :
      WrapsTo (bitwise op v w) (bitPattern op (.ofInt 32 m) (.ofInt 32 n)).toInt := by
    rw [h.bitwise_eq h' op]
    exact wrapsTo_ofInt (natAbs_toInt_lt _)
  refine ⟨?_, ?_, fun zero => ?_, fun nonzero => ⟨?_, ?_, ?_⟩, bits .bitAnd, bits .bitOr,
    bits .bitXor, ?_, ?_, ?_, ?_⟩
  · rw [h.plus_eq h']
    exact wrapsTo_ofInt (by omega)
  · rw [h.minus_eq h']
    exact wrapsTo_ofInt (by omega)
  · have isFalse : ¬ w.isTrue = true := by
      rw [h'.isTrue_iff]
      exact fun nonzero => nonzero zero
    rw [dividedBy, remainder, if_neg isFalse, if_neg isFalse]
    exact ⟨rfl, rfl⟩
  · rw [h.dividedBy_eq h' nonzero]
    exact wrapsTo_ofInt (h.natAbs_lt_of_le (Int.natAbs_tdiv_le_natAbs m n))
  · rw [h.remainder_eq h' nonzero]
    exact wrapsTo_ofInt (h.natAbs_lt_of_le (Integer.natAbs_tmod_le m n))
  · exact h.quotient_restored h' nonzero
  · apply (bits .shiftLeft).congr
    simp only [bitPattern, shiftCount_eq, toInt_shiftLeft, Int.bmod_bmod]
  · have shifted := bits .shiftRight
    simp only [bitPattern, shiftCount_eq, h.toInt_shiftRight] at shifted
    exact shifted
  · simp only [plainUnary, h.unary_eq (.inl rfl), unaryNumber, bind, Except.bind, pure, Except.pure]
    exact wrapsTo_of_isWhole h.isWhole.neg
  · simp only [plainUnary, h.unary_eq (.inr rfl), unaryNumber, h.toInt32_eq, bind, Except.bind,
      pure, Except.pure]
    apply (wrapsTo_ofInt (natAbs_toInt_lt _)).congr
    rw [toInt_complement, Int.bmod_bmod]

/-- The least `int` divided by the `char` minus one: the quotient, which no `int` holds, wraps to
the dividend, and the remainder is zero. -/
theorem least_int_divided_by_minus_one :
    (rvalue (.ofInt (-2147483648)) .int).Integer (-2147483648) ∧
      (rvalue (.ofInt (-1)) .char).Integer (-1) ∧
      ∃ q r, (rvalue (.ofInt (-2147483648)) .int).dividedBy (rvalue (.ofInt (-1)) .char) = .ok q ∧
        (rvalue (.ofInt (-2147483648)) .int).remainder (rvalue (.ofInt (-1)) .char) = .ok r ∧
        q.Integer (-2147483648) ∧ r.Integer 0 := by
  have least := integer_int (n := -2147483648) (by decide) (by decide)
  have minusOne := integer_char (n := -1) (by decide) (by decide)
  obtain ⟨-, -, -, division, -⟩ := integer_arithmetic_is_twos_complement .empty least minusOne
  obtain ⟨⟨q, divided, -, -, quotient⟩, ⟨r, left, -, -, remainder⟩, -⟩ := division (by decide)
  exact ⟨least, minusOne, q, r, divided, left, quotient, remainder⟩

end Value

end FlatC

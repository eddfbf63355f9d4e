import FlatC.Number.Binary64

/-!
# Whole numbers among the binary64 numbers

The values of most types are whole numbers.  A binary64 number that is whole is looked at here as
that whole number, with either sign if it is zero; what conversion, comparison and wrapping make of
it can then be said in integers.

* `Binary64.IsWhole` says which whole number a number is;
* `Binary64.IsWhole.toInt64` and `Binary64.IsWhole.isTrue_iff` read it;
* `Binary64.isWhole_wrap` and `Binary64.IsWhole.wrap_eq` say that wrapping gives a whole number in
  its range, and leaves alone what is one already.
-/

namespace FlatC

theorem twoPow_add (a b : Nat) : twoPow (a + b) = twoPow a * twoPow b :=
  Nat.pow_add 2 a b

namespace Binary64

variable {x y : Binary64} {m n : Int}

/-! ## Units -/

theorem natAbs_units (negative : Bool) (magnitude : Nat) :
    (units negative magnitude).natAbs = magnitude := by
  cases negative <;> simp [units]

theorem units_mul (negative : Bool) (q d : Nat) :
    units negative (q * d) = units negative q * d := by
  cases negative with
  | false => exact Int.natCast_mul q d
  | true =>
    show -((q * d : Nat) : Int) = -(q : Int) * d
    rw [Int.natCast_mul, Int.neg_mul]

theorem scale_ne_zero : (scale : Int) ≠ 0 :=
  Int.natCast_ne_zero.mpr (Nat.ne_of_gt scale_pos)

/-- Whole numbers overflow at `2 ^ 1024`. -/
theorem twoPow_limit : twoPow Format.double.limit = twoPow 1024 * scale := by
  have exponent : Format.double.limit = 1024 + unitExponent := rfl
  rw [exponent, twoPow_add, scale]

/-! ## Whole numbers -/

/-- The number is the whole number `n`. -/
def IsWhole (x : Binary64) (n : Int) : Prop :=
  ∃ negative magnitude, x = .finite negative magnitude ∧ units negative magnitude = n * scale

/-- The magnitude and the sign of a number that is whole. -/
theorem IsWhole.cases (h : x.IsWhole n) :
    ∃ negative, x = .finite negative (n.natAbs * scale) ∧ units negative n.natAbs = n := by
  obtain ⟨negative, magnitude, rfl, whole⟩ := h
  have size : magnitude = n.natAbs * scale := by
    rw [← natAbs_units negative magnitude, whole, Int.natAbs_mul, Int.natAbs_natCast]
  rw [size, units_mul] at whole
  exact ⟨negative, by rw [size], Int.eq_of_mul_eq_mul_right scale_ne_zero whole⟩

/-- A whole number other than zero has its sign. -/
theorem sign_of_units {negative : Bool} (whole : units negative n.natAbs = n) (nonzero : n ≠ 0) :
    decide (n < 0) = negative := by
  cases negative with
  | true =>
    have below : -(n.natAbs : Int) = n := whole
    exact decide_eq_true (by omega)
  | false =>
    have above : (n.natAbs : Int) = n := whole
    exact decide_eq_false (by omega)

theorem IsWhole.unique (first : x.IsWhole m) (second : x.IsWhole n) : m = n := by
  obtain ⟨negative, magnitude, rfl, whole⟩ := first
  obtain ⟨_, _, same, whole'⟩ := second
  cases same
  exact Int.eq_of_mul_eq_mul_right scale_ne_zero (whole.symm.trans whole')

theorem isWhole_ofWhole (zeroNegative : Bool) (n : Int) : (ofWhole zeroNegative n).IsWhole n := by
  unfold ofWhole
  by_cases zero : n = 0
  · rw [if_pos zero, zero]
    refine ⟨zeroNegative, 0, rfl, ?_⟩
    rw [Int.zero_mul]
    cases zeroNegative <;> rfl
  · rw [if_neg zero]
    refine ⟨_, _, rfl, ?_⟩
    rw [units_mul]
    congr 1
    unfold units
    by_cases negative : n < 0
    · rw [if_pos (by simpa using negative)]
      omega
    · rw [if_neg (by simpa using negative)]
      omega

/-- Every whole number below `2 ^ 53` is a number of the format. -/
theorem isWhole_ofInt (small : n.natAbs < twoPow 53) : (ofInt n).IsWhole n := by
  rw [ofInt, if_pos small]
  exact isWhole_ofWhole false n

theorem isWhole_ofNat {n : Nat} (small : n < twoPow 53) : (ofNat n).IsWhole n :=
  isWhole_ofInt (by simpa using small)

/-! ## Reading -/

theorem IsWhole.toInt64 (h : x.IsWhole n) (lower : -longTop ≤ n) (upper : n < longTop) :
    x.toInt64 = n := by
  obtain ⟨negative, rfl, whole⟩ := h.cases
  show max _ (min _ (units negative (n.natAbs * scale / scale))) = n
  rw [Nat.mul_div_cancel _ scale_pos, whole]
  omega

theorem IsWhole.rank_eq (h : x.IsWhole n) : x.rank = some (n * scale) := by
  obtain ⟨negative, magnitude, rfl, whole⟩ := h
  rw [rank, whole]

/-- Two numbers are numerically equal if they have a place and it is the same. -/
theorem numEq_iff : x.numEq y = true ↔ ∃ place, x.rank = some place ∧ y.rank = some place := by
  unfold numEq order?
  cases x.rank with
  | none => simp
  | some a =>
    cases y.rank with
    | none => simp
    | some b =>
      simp only [beq_iff_eq, Option.some.injEq, Std.compare_eq_iff_eq, exists_eq_left']
      exact eq_comm

theorem IsWhole.numEq_iff (h : x.IsWhole m) (h' : y.IsWhole n) : x.numEq y = true ↔ m = n := by
  rw [Binary64.numEq_iff, h.rank_eq, h'.rank_eq]
  constructor
  · rintro ⟨place, first, second⟩
    have same := Option.some.inj (first.trans second.symm)
    exact Int.eq_of_mul_eq_mul_right scale_ne_zero same
  · rintro rfl
    exact ⟨_, rfl, rfl⟩

/-- A whole number counts as true if it is not zero. -/
theorem IsWhole.isTrue_iff (h : x.IsWhole n) : x.isTrue = true ↔ n ≠ 0 := by
  have isZero : zero.IsWhole 0 := isWhole_ofWhole false 0
  have same := h.numEq_iff isZero
  unfold isTrue
  cases found : x.numEq zero with
  | true => simp [same.mp found]
  | false =>
    have : n ≠ 0 := fun zero => by simp [same.mpr zero] at found
    simpa using this

/-- Below the infinities, a number at the place of a whole number is that number. -/
theorem isWhole_of_rank (h : x.rank = some (n * scale)) (small : n.natAbs < twoPow 1024) :
    x.IsWhole n := by
  cases x with
  | nan _ _ => cases h
  | finite negative magnitude => exact ⟨negative, magnitude, rfl, Option.some.inj h⟩
  | infinite negative =>
    exfalso
    have place : units negative (twoPow Format.double.limit) = n * scale := Option.some.inj h
    have size := congrArg Int.natAbs place
    rw [natAbs_units, twoPow_limit, Int.natAbs_mul, Int.natAbs_natCast] at size
    have := Nat.eq_of_mul_eq_mul_right scale_pos size
    omega

/-! ## Wrapping -/

/-- A finite number is wrapped as its integer part is. -/
theorem isWhole_wrap (range : Nat) (signed : Bool) (x : Binary64) :
    ∃ n : Int, (x.wrap range signed).IsWhole (if signed then n.bmod range else n % range) := by
  cases x with
  | finite negative magnitude => exact ⟨_, isWhole_ofWhole negative _⟩
  | nan _ _ | infinite _ =>
    refine ⟨0, ?_⟩
    have isZero : zero.IsWhole 0 := isWhole_ofWhole false 0
    cases signed <;> simpa [wrap] using isZero

theorem IsWhole.wrap (h : x.IsWhole n) (range : Nat) (signed : Bool) :
    (x.wrap range signed).IsWhole (if signed then n.bmod range else n % range) := by
  obtain ⟨negative, rfl, whole⟩ := h.cases
  simp only [Binary64.wrap, Nat.mul_div_cancel _ scale_pos, whole]
  exact isWhole_ofWhole negative _

/-- A whole number that wrapping leaves where it is keeps its sign too, also if it is zero. -/
theorem IsWhole.wrap_eq (h : x.IsWhole n) {range : Nat} {signed : Bool}
    (kept : (if signed then n.bmod range else n % range) = n) : x.wrap range signed = x := by
  obtain ⟨negative, rfl, whole⟩ := h.cases
  simp only [Binary64.wrap, Nat.mul_div_cancel _ scale_pos, whole, kept, ofWhole]
  by_cases zero : n = 0
  · simp [zero]
  · rw [if_neg zero, sign_of_units whole zero]

end Binary64

end FlatC

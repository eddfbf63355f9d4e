import FlatC.Proofs.Number.Single

/-!
# Single-precision patterns

A number of single precision is found again in its 32-bit pattern.  Without the sign, the pattern
counts the spacings of the format below the magnitude; the exponent field tells how coarse they are
around it.

* `Format.decode_encode` says that a magnitude of a format is found again in its pattern;
* `Binary64.ofSingleBits_toSingleBits` says so for all numbers of single precision, infinities and
  not-a-numbers included.
-/

namespace FlatC

/-- The position of the leading bit of a number below a power of two. -/
theorem log2_lt_of_lt_twoPow {m k : Nat} (positive : 0 < k) (small : m < twoPow k) :
    m.log2 < k := by
  by_cases zero : m = 0
  · rwa [zero, Nat.log2_zero]
  · exact (Nat.log2_lt zero).mpr small

namespace Format

/-- The number of spacings in a magnitude has as many bits as the format is precise, or fewer if the
spacing is the finest. -/
theorem div_spacing_bounds (format : Format) (precise : 0 < format.precision) (m : Nat) :
    m / twoPow (format.shift m) < 2 * twoPow (format.precision - 1) ∧
      (format.quantum < format.shift m →
        twoPow (format.precision - 1) ≤ m / twoPow (format.shift m)) := by
  have spacing := twoPow_pos (format.shift m)
  have coarse : format.quantum ≤ format.shift m := Nat.le_max_left ..
  have fine : m.log2 + 1 - format.precision ≤ format.shift m := Nat.le_max_right ..
  constructor
  · have double : 2 * twoPow (format.precision - 1) = twoPow format.precision := by
      rw [twoPow, twoPow, Nat.mul_comm]
      exact Nat.pow_pred_mul precise
    rw [double, Nat.div_lt_iff_lt_mul spacing, twoPow, twoPow]
    refine Nat.lt_of_lt_of_le (Nat.lt_log2_self (n := m)) ?_
    rw [Nat.pow_eq, Nat.pow_eq, ← Nat.pow_add]
    exact Nat.pow_le_pow_right (by decide) (by omega)
  · intro coarser
    have exact : format.shift m = m.log2 + 1 - format.precision := by
      unfold shift at coarser ⊢
      omega
    have positive : m ≠ 0 := by
      rintro rfl
      simp only [Nat.log2_zero] at exact
      omega
    rw [Nat.le_div_iff_mul_le spacing, twoPow, twoPow, Nat.pow_eq, Nat.pow_eq, ← Nat.pow_add]
    refine Nat.le_trans (Nat.pow_le_pow_right (by decide) ?_) (Nat.log2_self_le positive)
    omega

/-- The two fields of a pattern tell its magnitude. -/
theorem decode_fields (format : Format) {fraction : Nat} (exponent : Nat)
    (small : fraction < twoPow (format.precision - 1)) :
    format.decode (fraction + twoPow (format.precision - 1) * exponent) =
      if exponent = 0 then fraction * twoPow format.quantum
      else (twoPow (format.precision - 1) + fraction) * twoPow (format.quantum + exponent - 1) := by
  have high : (fraction + twoPow (format.precision - 1) * exponent) /
      twoPow (format.precision - 1) = exponent := by
    rw [Nat.add_mul_div_left _ _ (twoPow_pos _), Nat.div_eq_of_lt small, Nat.zero_add]
  have low : (fraction + twoPow (format.precision - 1) * exponent) %
      twoPow (format.precision - 1) = fraction := by
    rw [Nat.add_mul_mod_self_left, Nat.mod_eq_of_lt small]
  simp only [decode, high, low]

/-- A magnitude that is a multiple of its spacing is found again in its pattern. -/
theorem decode_encode {format : Format} {m : Nat} (precise : 0 < format.precision)
    (multiple : twoPow (format.shift m) ∣ m) : format.decode (format.encode m) = m := by
  obtain ⟨below, above⟩ := format.div_spacing_bounds precise m
  have coarse : format.quantum ≤ format.shift m := Nat.le_max_left ..
  have whole : m / twoPow (format.shift m) * twoPow (format.shift m) = m :=
    Nat.div_mul_cancel multiple
  rw [encode]
  generalize m / twoPow (format.shift m) = count at below above whole ⊢
  by_cases tiny : count < twoPow (format.precision - 1)
  · have finest : format.shift m = format.quantum := by
      refine Nat.le_antisymm (Nat.le_of_not_lt fun coarser => ?_) coarse
      have := above coarser
      omega
    have fields : (format.shift m - format.quantum) * twoPow (format.precision - 1) + count =
        count + twoPow (format.precision - 1) * 0 := by
      rw [finest, Nat.sub_self, Nat.zero_mul, Nat.mul_zero, Nat.add_comm]
    rw [fields, decode_fields _ _ tiny, if_pos rfl, ← finest, whole]
  · -- the leading bit of the count is carried into the exponent field
    obtain ⟨rest, rfl⟩ := Nat.exists_eq_add_of_le (Nat.le_of_not_lt tiny)
    obtain ⟨exponent, steps⟩ := Nat.exists_eq_add_of_le coarse
    have small : rest < twoPow (format.precision - 1) := by omega
    have fields : (format.shift m - format.quantum) * twoPow (format.precision - 1) +
        (twoPow (format.precision - 1) + rest) =
          rest + twoPow (format.precision - 1) * (exponent + 1) := by
      rw [steps, Nat.add_sub_cancel_left, Nat.mul_comm, Nat.mul_succ]
      omega
    have spacing : format.quantum + (exponent + 1) - 1 = format.shift m := by omega
    rw [fields, decode_fields _ _ small, if_neg (Nat.succ_ne_zero _), spacing, whole]

/-- Patterns of magnitudes below the overflow bound lie below that of infinity. -/
theorem encode_lt_infinityPattern {m : Nat} (small : m < twoPow single.limit) :
    single.encode m < single.infinityPattern := by
  have infinity : single.infinityPattern = 255 * twoPow 23 := by decide +kernel
  obtain ⟨below, -⟩ := single.div_spacing_bounds (by decide) m
  have log : m.log2 < single.limit := log2_lt_of_lt_twoPow (by decide) small
  have spacing : single.shift m - single.quantum ≤ 253 := by
    simp only [shift, single] at log ⊢
    omega
  rw [infinity]
  simp only [encode]
  have leading : twoPow (single.precision - 1) = 8388608 := by decide
  have leading' : twoPow 23 = 8388608 := by decide
  rw [leading] at below ⊢
  rw [leading']
  generalize m / twoPow (single.shift m) = count at below
  generalize single.shift m - single.quantum = exponent at spacing
  omega

end Format

namespace Binary64

/-- The fraction field of a not-a-number has 52 bits. -/
def WellFormed (x : Binary64) : Prop :=
  ∀ negative fraction, x = .nan negative fraction → fraction < twoPow 52

/-- Rounding to single precision keeps the fraction of a not-a-number in its field. -/
theorem WellFormed.toSingle {x : Binary64} (h : x.WellFormed) : x.toSingle.WellFormed := by
  intro negative fraction nan
  cases x with
  | finite sign magnitude =>
    rw [Binary64.toSingle] at nan
    by_cases small : Format.single.round magnitude 1 < twoPow Format.single.limit
    · rw [if_pos small] at nan
      cases nan
    · rw [if_neg small] at nan
      cases nan
  | infinite sign => cases nan
  | nan sign fraction' =>
    have small := h sign fraction' rfl
    rw [Binary64.toSingle, quieted] at nan
    injection nan with _ payload
    rw [← payload]
    have kept : fraction' / twoPow droppedBits * twoPow droppedBits < 2 ^ 52 :=
      Nat.lt_of_le_of_lt (Nat.div_mul_le_self _ _) small
    exact Nat.or_lt_two_pow kept (by decide)

/-- The sign and the rest of a 32-bit pattern. -/
theorem signed_pattern (negative : Bool) {pattern : Nat} (small : pattern < wordTop) :
    decide (wordTop ≤ if negative then wordTop + pattern else pattern) = negative ∧
      (if negative then wordTop + pattern else pattern) % wordTop = pattern := by
  cases negative with
  | true => simp [Nat.mod_eq_of_lt small]
  | false => simp [Nat.mod_eq_of_lt small, small]

/-- The pattern of a number of single precision: a sign, and 31 bits in which the number is found
again. -/
theorem exists_pattern {x : Binary64} (single : x.toSingle = x) (wellFormed : x.WellFormed) :
    ∃ (negative : Bool) (pattern : Nat), pattern < wordTop ∧
      x.toSingleBits = (if negative then wordTop + pattern else pattern) ∧
      ofSingleBits (if negative then wordTop + pattern else pattern) = x := by
  have infinity : Format.single.infinityPattern = 2139095040 := by decide +kernel
  have top : wordTop = 2147483648 := rfl
  cases x with
  | finite negative magnitude =>
    obtain ⟨fits, rounded⟩ : Format.single.round magnitude 1 < twoPow Format.single.limit ∧
        Format.single.round magnitude 1 = magnitude := by
      rw [toSingle] at single
      by_cases fits : Format.single.round magnitude 1 < twoPow Format.single.limit
      · rw [if_pos fits] at single
        exact ⟨fits, by injection single⟩
      · rw [if_neg fits] at single
        cases single
    have multiple := Format.single.spacing_dvd_round (by decide) magnitude
    rw [rounded] at fits multiple
    have finite := Format.encode_lt_infinityPattern fits
    have small : Format.single.encode magnitude < wordTop := by omega
    obtain ⟨sign, pattern⟩ := signed_pattern negative small
    refine ⟨negative, _, small, by rw [toSingleBits, single], ?_⟩
    simp only [ofSingleBits, sign, pattern, if_pos finite,
      Format.decode_encode (by decide) multiple]
  | infinite negative =>
    have small : Format.single.infinityPattern < wordTop := by omega
    obtain ⟨sign, pattern⟩ := signed_pattern negative small
    refine ⟨negative, _, small, by rw [toSingleBits, single], ?_⟩
    simp only [ofSingleBits, sign, pattern, Nat.lt_irrefl, if_false, if_true]
  | nan negative fraction =>
    have kept : fraction / twoPow droppedBits * twoPow droppedBits ||| quietBit = fraction := by
      rw [toSingle, quieted] at single
      injection single
    have quiet : quietBit ≤ fraction := by
      rw [← kept]
      exact Nat.right_le_or
    have fraction_lt : fraction < twoPow 52 := wellFormed negative fraction rfl
    have payload : 0 < fraction / twoPow droppedBits ∧
        fraction / twoPow droppedBits < 8388608 := by
      have dropped : twoPow droppedBits = 536870912 := by decide
      have quietBit_eq : quietBit = 2251799813685248 := by decide
      have limit : twoPow 52 = 4503599627370496 := by decide
      rw [dropped]
      omega
    have small : Format.single.infinityPattern + fraction / twoPow droppedBits < wordTop := by
      omega
    obtain ⟨sign, pattern⟩ := signed_pattern negative small
    refine ⟨negative, _, small, by rw [toSingleBits, single], ?_⟩
    have above : ¬ Format.single.infinityPattern + fraction / twoPow droppedBits <
        Format.single.infinityPattern := by omega
    have beyond : ¬ Format.single.infinityPattern + fraction / twoPow droppedBits =
        Format.single.infinityPattern := by omega
    simp only [ofSingleBits, sign, pattern, if_neg above, if_neg beyond, Nat.add_sub_cancel_left,
      quieted, kept]

/-- A number of single precision is found again in its pattern. -/
theorem ofSingleBits_toSingleBits {x : Binary64} (single : x.toSingle = x)
    (wellFormed : x.WellFormed) : ofSingleBits x.toSingleBits = x := by
  obtain ⟨negative, pattern, -, bits, found⟩ := exists_pattern single wellFormed
  rw [bits, found]

/-- The pattern of a number of single precision has 32 bits. -/
theorem toSingleBits_lt {x : Binary64} (single : x.toSingle = x) (wellFormed : x.WellFormed) :
    x.toSingleBits < wordRange := by
  obtain ⟨negative, pattern, small, bits, -⟩ := exists_pattern single wellFormed
  have top : wordTop = 2147483648 := rfl
  have range : wordRange = 4294967296 := rfl
  rw [bits]
  split <;> omega

end Binary64

end FlatC

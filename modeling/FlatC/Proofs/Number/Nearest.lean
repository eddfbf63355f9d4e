import FlatC.Proofs.Number.Single
import FlatC.Proofs.Number.Whole

/-!
# Whole numbers that need rounding

From `2 ^ 53` on, not every whole number is a number of the double format.  Those that are lie a
power of two apart, and any other becomes the nearest of them.  The spacing grows with the number
as it does among the magnitudes, because a magnitude is only a whole number of smaller units.

* `roundDiv_near` says how far a rounded quotient is from the exact one;
* `Format.round_mul_twoPow` says that rounding does not depend on the unit;
* `Binary64.spacing` and `Binary64.Nearest` describe rounding to 53 bits in whole numbers, and
  `Binary64.exists_nearest` says that it is what becomes of a whole number.
-/

namespace FlatC

/-! ## Quotients -/

/-- A rounded quotient is at most half a divisor off, and even if it is that far off. -/
theorem roundDiv_near (n : Nat) {d : Nat} (positive : 0 < d) :
    2 * (((roundDiv n d * d : Nat) : Int) - n).natAbs ≤ d ∧
      (2 * (((roundDiv n d * d : Nat) : Int) - n).natAbs = d → 2 ∣ roundDiv n d) := by
  have split : n / d * d + n % d = n := Nat.div_add_mod' n d
  have rest : n % d < d := Nat.mod_lt n positive
  have next : (n / d + 1) * d = n / d * d + d := Nat.succ_mul ..
  unfold roundDiv
  dsimp only
  by_cases below : 2 * (n % d) < d
  · rw [if_pos below]
    omega
  rw [if_neg below]
  by_cases above : d < 2 * (n % d)
  · rw [if_pos above, next]
    omega
  rw [if_neg above]
  -- a tie, which the parity of the quotient decides
  obtain even | odd := Nat.mod_two_eq_zero_or_one (n / d)
  · rw [even, Nat.add_zero]
    omega
  · rw [odd, next]
    omega

theorem roundDiv_mul_mul (n d : Nat) {c : Nat} (positive : 0 < c) :
    roundDiv (n * c) (d * c) = roundDiv n d := by
  have below : 2 * (n % d * c) < d * c ↔ 2 * (n % d) < d := by
    rw [← Nat.mul_assoc]
    exact Nat.mul_lt_mul_right positive
  have above : d * c < 2 * (n % d * c) ↔ d < 2 * (n % d) := by
    rw [← Nat.mul_assoc]
    exact Nat.mul_lt_mul_right positive
  simp only [roundDiv, Nat.mul_div_mul_right n d positive, Nat.mul_mod_mul_right, below, above]

theorem log2_mul_twoPow {n : Nat} (positive : n ≠ 0) (k : Nat) :
    (n * twoPow k).log2 = n.log2 + k := by
  have nonzero : n * twoPow k ≠ 0 := Nat.mul_ne_zero positive (Nat.ne_of_gt (twoPow_pos k))
  refine (Nat.log2_eq_iff nonzero).mpr ⟨?_, ?_⟩
  · rw [Nat.pow_add]
    exact Nat.mul_le_mul_right _ (Nat.log2_self_le positive)
  · rw [Nat.add_right_comm, Nat.pow_add]
    exact Nat.mul_lt_mul_of_pos_right Nat.lt_log2_self (twoPow_pos k)

/-! ## Units -/

namespace Format

/-- In a format without a finest spacing, a number of larger units is rounded as a number of units
is. -/
theorem round_mul_twoPow (format : Format) (fine : format.quantum = 0) (n k : Nat) :
    format.round (n * twoPow k) 1 = format.round n 1 * twoPow k := by
  by_cases zero : n = 0
  · simp [zero, round, roundDiv]
  have log := log2_mul_twoPow zero k
  by_cases long : format.precision ≤ n.log2 + 1
  · -- the spacing grows with the unit
    have shifted : format.shift (n * twoPow k) = format.shift n + k := by
      rw [shift, shift, log, fine]
      omega
    simp only [round, Nat.div_one, Nat.one_mul, shifted, twoPow_add]
    rw [roundDiv_mul_mul _ _ (twoPow_pos k), Nat.mul_assoc]
  · -- the number has so few bits that it is exact in both units
    have one : format.shift n = 0 := by
      rw [shift, fine]
      omega
    obtain ⟨rest, split⟩ : ∃ rest, format.shift (n * twoPow k) + rest = k := by
      refine ⟨k - format.shift (n * twoPow k), ?_⟩
      rw [shift, log, fine]
      omega
    have exact : format.round n 1 = n := by
      refine format.round_mul_spacing n n ?_
      rw [one]
      exact Nat.mul_one n
    rw [exact]
    refine format.round_mul_spacing (n * twoPow rest) _ ?_
    rw [Nat.mul_assoc, ← twoPow_add, Nat.add_comm, split]

end Format

/-! ## Rounding to 53 bits -/

namespace Binary64

variable {n k : Int}

/-- How far apart the whole numbers of the format are that are about as large as `n`. -/
def spacing (n : Int) : Nat :=
  twoPow (n.natAbs.log2 + 1 - Format.double.precision)

/-- Of the whole numbers of the format, `k` is the nearest to `n`; of two equally near ones, it is
the even multiple of the spacing. -/
structure Nearest (n k : Int) : Prop where
  multiple : (spacing n : Int) ∣ k
  near : 2 * (k - n).natAbs ≤ spacing n
  even : 2 * (k - n).natAbs = spacing n → ((2 * spacing n : Nat) : Int) ∣ k

theorem spacing_pos (n : Int) : 0 < spacing n :=
  twoPow_pos _

theorem spacing_neg (n : Int) : spacing (-n) = spacing n := by
  rw [spacing, spacing, Int.natAbs_neg]

/-- The spacing is not larger than the number, except next to zero. -/
theorem spacing_le (n : Int) : spacing n ≤ n.natAbs + 1 := by
  by_cases zero : n.natAbs = 0
  · rw [spacing, zero]
    decide
  · have small : n.natAbs.log2 + 1 - Format.double.precision ≤ n.natAbs.log2 := by
      simp only [Format.double]
      omega
    have power : spacing n ≤ 2 ^ n.natAbs.log2 := Nat.pow_le_pow_right (by decide) small
    exact Nat.le_succ_of_le (Nat.le_trans power (Nat.log2_self_le zero))

/-- A number with at most `53 + e` bits is in a neighbourhood of spacing at most `2 ^ e`. -/
theorem spacing_le_twoPow {e : Nat} (small : n.natAbs < twoPow (53 + e)) :
    spacing n ≤ twoPow e := by
  refine Nat.pow_le_pow_right (by decide) ?_
  by_cases zero : n.natAbs = 0
  · rw [zero]
    exact Nat.zero_le e
  · have log := (Nat.log2_lt zero).mpr small
    simp only [Format.double]
    omega

/-- A power of two is a number of the format. -/
theorem spacing_dvd_of_twoPow {e : Nat} (power : n.natAbs = twoPow e) : (spacing n : Int) ∣ n := by
  have log : (twoPow e).log2 = e := Nat.log2_two_pow
  rw [Int.ofNat_dvd_left, spacing, power, log]
  refine twoPow_dvd ?_
  simp only [Format.double]
  omega

/-- So is every whole number up to `2 ^ 53`. -/
theorem spacing_dvd_of_le (short : n.natAbs ≤ twoPow 53) : (spacing n : Int) ∣ n := by
  obtain below | power := Nat.lt_or_eq_of_le short
  · have one : spacing n = 1 :=
      Nat.le_antisymm (spacing_le_twoPow (e := 0) below) (spacing_pos n)
    rw [one]
    exact Int.one_dvd n
  · exact spacing_dvd_of_twoPow power

namespace Nearest

theorem neg (h : Nearest n k) : Nearest (-n) (-k) := by
  have distance : (-k - -n).natAbs = (k - n).natAbs := by omega
  refine ⟨?_, ?_, ?_⟩
  · rw [spacing_neg]
    exact (Int.dvd_neg).mpr h.multiple
  · rw [spacing_neg, distance]
    exact h.near
  · rw [spacing_neg, distance]
    exact fun tie => (Int.dvd_neg).mpr (h.even tie)

/-- A whole number is its own rounding if it is a multiple of the spacing around it. -/
theorem eq_iff (h : Nearest n k) : k = n ↔ (spacing n : Int) ∣ n := by
  constructor
  · rintro rfl
    exact h.multiple
  · intro multiple
    have close := h.near
    have positive := spacing_pos n
    have apart : k - n = 0 := by
      refine Int.eq_zero_of_dvd_of_natAbs_lt_natAbs (Int.dvd_sub h.multiple multiple) ?_
      omega
    omega

/-- A number of up to `2 ^ (53 + e)` is moved by at most half of `2 ^ e`. -/
theorem near_of_le {e : Nat} (h : Nearest n k) (small : n.natAbs ≤ twoPow (53 + e)) :
    2 * (k - n).natAbs ≤ twoPow e := by
  obtain below | power := Nat.lt_or_eq_of_le small
  · exact Nat.le_trans h.near (spacing_le_twoPow below)
  · -- the bound itself is a number of the format
    rw [h.eq_iff.mpr (spacing_dvd_of_twoPow power)]
    simp

theorem natAbs_le (h : Nearest n k) : k.natAbs ≤ 2 * n.natAbs := by
  have close := h.near
  have small := spacing_le n
  omega

end Nearest

theorem nearest_round (n : Nat) : Nearest n (Format.double.round n 1) := by
  have width : Format.double.shift n = n.log2 + 1 - Format.double.precision := Nat.zero_max _
  have rounded : Format.double.round n 1 = roundDiv n (spacing n) * spacing n := by
    simp only [Format.round, Nat.div_one, Nat.one_mul, width, spacing, Int.natAbs_natCast]
  obtain ⟨near, even⟩ := roundDiv_near n (spacing_pos n)
  rw [rounded]
  refine ⟨?_, near, ?_⟩
  · rw [Int.natCast_mul]
    exact Int.dvd_mul_left ..
  · intro tie
    exact Int.natCast_dvd_natCast.mpr (Nat.mul_dvd_mul_right (even tie) _)

/-- A whole number that is far from overflow becomes the nearest whole number of the format. -/
theorem exists_nearest (small : n.natAbs < twoPow 1023) :
    ∃ k, Nearest n k ∧ (ofInt n).IsWhole k := by
  obtain ⟨negative, sign⟩ : ∃ negative, negative = decide (n < 0) := ⟨_, rfl⟩
  have nearest : Nearest n (units negative (Format.double.round n.natAbs 1)) := by
    have positive := nearest_round n.natAbs
    by_cases below : n < 0
    · have reflected := positive.neg
      rw [show -(n.natAbs : Int) = n by omega] at reflected
      rw [sign, decide_eq_true below]
      exact reflected
    · rw [show (n.natAbs : Int) = n by omega] at positive
      rw [sign, decide_eq_false below]
      exact positive
  refine ⟨_, nearest, ?_⟩
  by_cases short : n.natAbs < twoPow 53
  · rw [nearest.eq_iff.mpr (spacing_dvd_of_le (Nat.le_of_lt short))]
    exact isWhole_ofInt short
  · have bound : Format.double.round n.natAbs 1 * scale < twoPow Format.double.limit := by
      have size := nearest.natAbs_le
      rw [natAbs_units] at size
      have below : Format.double.round n.natAbs 1 < twoPow (1 + 1023) := by
        rw [twoPow_add, show twoPow 1 = 2 from rfl]
        omega
      rw [twoPow_limit]
      exact Nat.mul_lt_mul_of_pos_right below scale_pos
    have scaled : Format.double.round (n.natAbs * scale) 1 =
        Format.double.round n.natAbs 1 * scale := Format.double.round_mul_twoPow rfl _ _
    rw [ofInt, if_neg short, ofRatio, scaled, if_pos bound, ← sign]
    exact ⟨negative, _, rfl, units_mul ..⟩

end Binary64

end FlatC

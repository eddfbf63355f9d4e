import FlatC.Number.Encoding

/-!
# Rounding to single precision

A number that has been rounded to a format is a number of the format, so rounding it once more
changes nothing.  Rounding up may lead into the next power of two, where the format is coarser; the
power itself is a number of the format on both sides.

* `Format.round_round` says so for the magnitudes of a format;
* `Binary64.toSingle_toSingle` says so for single precision, infinities and not-a-numbers included.
-/

namespace FlatC

/-- Rounding a quotient does not pass a whole number that the quotient does not pass. -/
theorem roundDiv_le {n q d : Nat} (positive : 0 < d) (h : n ≤ q * d) : roundDiv n d ≤ q := by
  have split : n / d * d + n % d = n := Nat.div_add_mod' n d
  have whole : n / d ≤ q := Nat.div_le_of_le_mul (by rwa [Nat.mul_comm])
  unfold roundDiv
  by_cases exact : n % d = 0
  · simp only [exact, Nat.mul_zero, positive, if_true]
    exact whole
  · have below : n / d < q := by
      refine Nat.lt_of_mul_lt_mul_right (a := d) ?_
      omega
    dsimp only
    split
    · exact whole
    · split
      · exact below
      · have := Nat.mod_lt (n / d) (show 0 < 2 by decide)
        omega

theorem twoPow_dvd {a b : Nat} (h : a ≤ b) : twoPow a ∣ twoPow b :=
  Nat.pow_dvd_pow 2 h

namespace Format

/-- What has been rounded is a multiple of the spacing of the format around it. -/
theorem spacing_dvd_round (format : Format) (precise : 0 < format.precision) (m : Nat) :
    twoPow (format.shift (format.round m 1)) ∣ format.round m 1 := by
  generalize rounded : format.round m 1 = r
  have scaled : r = roundDiv m (twoPow (format.shift m)) * twoPow (format.shift m) := by
    rw [← rounded, round, Nat.div_one, Nat.one_mul]
  have coarse : format.quantum ≤ format.shift m := Nat.le_max_left ..
  have fine : m.log2 + 1 - format.precision ≤ format.shift m := Nat.le_max_right ..
  -- the next power of two above `m`, or the spacing itself if that is larger
  obtain ⟨top, top_eq⟩ : ∃ top, top = max (format.shift m) (m.log2 + 1) := ⟨_, rfl⟩
  have upper : r ≤ twoPow top := by
    have power : twoPow top = twoPow (top - format.shift m) * twoPow (format.shift m) := by
      rw [twoPow, twoPow, twoPow]
      exact (Nat.pow_sub_mul_pow 2 (by omega)).symm
    have small : m ≤ twoPow top :=
      Nat.le_trans (Nat.le_of_lt Nat.lt_log2_self) (Nat.pow_le_pow_right (by decide) (by omega))
    rw [scaled, power]
    rw [power] at small
    exact Nat.mul_le_mul_right _ (roundDiv_le (twoPow_pos _) small)
  by_cases zero : r = 0
  · rw [zero]
    exact Nat.dvd_zero _
  by_cases reached : r = twoPow top
  · have log : (twoPow top).log2 = top := Nat.log2_two_pow
    rw [reached]
    refine twoPow_dvd ?_
    rw [shift, log]
    omega
  · have log : r.log2 < top :=
      (Nat.log2_lt zero).mpr (Nat.lt_of_le_of_ne upper reached)
    have finer : format.shift r ≤ format.shift m := by
      rw [shift]
      omega
    refine Nat.dvd_trans (twoPow_dvd finer) ?_
    rw [scaled]
    exact Nat.dvd_mul_left ..

/-- A rounded magnitude is its own rounding. -/
theorem round_round (format : Format) (precise : 0 < format.precision) (m : Nat) :
    format.round (format.round m 1) 1 = format.round m 1 := by
  obtain ⟨q, multiple⟩ := format.spacing_dvd_round precise m
  exact format.round_mul_spacing q _ (by rw [Nat.mul_comm]; exact multiple.symm)

end Format

namespace Binary64

/-- The fraction field of a not-a-number after the low bits have been dropped and the quiet bit
set: neither happens to it twice. -/
theorem quieted_dropped (negative : Bool) (fraction : Nat) :
    (quieted negative (fraction / twoPow droppedBits * twoPow droppedBits)).toSingle =
      quieted negative (fraction / twoPow droppedBits * twoPow droppedBits) := by
  generalize high : fraction / twoPow droppedBits * twoPow droppedBits = f
  have low : f % twoPow droppedBits = 0 := by
    rw [← high]
    exact Nat.mul_mod_left ..
  have lowQuiet : (f ||| quietBit) % twoPow droppedBits = 0 := by
    have both := Nat.or_mod_two_pow (a := f) (b := quietBit) (n := droppedBits)
    have quiet : quietBit % twoPow droppedBits = 0 := by decide +kernel
    exact both.trans (by rw [show f % 2 ^ droppedBits = 0 from low,
      show quietBit % 2 ^ droppedBits = 0 from quiet]; rfl)
  have kept : (f ||| quietBit) / twoPow droppedBits * twoPow droppedBits = f ||| quietBit := by
    have := Nat.div_add_mod' (f ||| quietBit) (twoPow droppedBits)
    omega
  simp only [quieted, toSingle, kept, Nat.or_assoc, Nat.or_self]

/-- Rounding to single precision twice is rounding once. -/
theorem toSingle_toSingle (x : Binary64) : x.toSingle.toSingle = x.toSingle := by
  cases x with
  | nan negative fraction => exact quieted_dropped negative fraction
  | infinite negative => rfl
  | finite negative magnitude =>
    have again := Format.single.round_round (by decide) magnitude
    simp only [toSingle]
    by_cases fits : Format.single.round magnitude 1 < twoPow Format.single.limit
    · simp only [fits, if_true, again]
    · simp only [fits, if_false]

end Binary64

end FlatC

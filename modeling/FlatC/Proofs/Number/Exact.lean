import FlatC.Proofs.Number.Nearest

/-!
# Whole numbers that need no rounding

Below `2 ^ 53` the double format has every whole number, so sums and products that stay there are
exact.  What remains to be said is the sign of a zero: the sum of two whole numbers is negative zero
only if both are.

* `Binary64.IsWhole.add_ofInt` and `Binary64.mul_whole` compute sums and products, and
  `Binary64.IsWhole.add_negative_zero` is the sum that the first leaves out;
* `Binary64.IsWhole.neg` negates, and `Binary64.IsWhole.numLt_eq` and the like compare;
* `Binary64.IsWhole.wrap_remEuclid` says that a remainder makes no difference to wrapping.
-/

namespace FlatC

/-- A common factor of a magnitude and its divisor does not take part in rounding. -/
theorem Format.round_mul_right (format : Format) (n : Nat) {c : Nat} (positive : 0 < c) :
    format.round (n * c) c = format.round n 1 := by
  simp only [Format.round, Nat.mul_div_cancel n positive, Nat.div_one, Nat.one_mul]
  rw [Nat.mul_comm c, roundDiv_mul_mul n _ positive]

namespace Binary64

variable {x y : Binary64} {m n : Int}

/-! ## Below the first number that is missing -/

theorem ofRatio_whole (negative : Bool) {k : Nat} (small : k < twoPow 53) :
    ofRatio negative (k * scale) 1 = .finite negative (k * scale) := by
  have alone : Format.double.round k 1 = k :=
    Int.ofNat.inj ((nearest_round k).eq_iff.mpr (spacing_dvd_of_le (Nat.le_of_lt small)))
  have exact : Format.double.round (k * scale) 1 = k * scale := by
    have scaled := Format.double.round_mul_twoPow rfl k unitExponent
    rwa [alone] at scaled
  have bound : k * scale < twoPow Format.double.limit := by
    have power : twoPow 53 < twoPow 1024 := by decide +kernel
    rw [twoPow_limit]
    exact Nat.mul_lt_mul_of_pos_right (Nat.lt_trans small power) scale_pos
  simp only [ofRatio, exact, if_pos bound]

theorem ofInt_of_ne_zero (small : n.natAbs < twoPow 53) (nonzero : n ≠ 0) :
    ofInt n = .finite (decide (n < 0)) (n.natAbs * scale) := by
  rw [ofInt, if_pos small, ofWhole, if_neg nonzero]

theorem ofNat_of_small {k : Nat} (small : k < twoPow 53) :
    ofNat k = .finite false (k * scale) := by
  by_cases zero : k = 0
  · rw [zero, Nat.zero_mul]
    rfl
  · have positive : ¬ (k : Int) < 0 := by omega
    rw [ofNat, ofInt_of_ne_zero (by simpa using small) (by simpa using zero),
      decide_eq_false positive, Int.natAbs_natCast]

theorem IsWhole.eq_ofInt (h : x.IsWhole n) (small : n.natAbs < twoPow 53) (nonzero : n ≠ 0) :
    x = ofInt n := by
  obtain ⟨negative, rfl, whole⟩ := h.cases
  rw [ofInt_of_ne_zero small nonzero, sign_of_units whole nonzero]

/-! ## Sums and products -/

theorem ofRatio_total (small : n.natAbs < twoPow 53) (nonzero : n ≠ 0) :
    ofRatio (decide (n * scale < 0)) (n * scale).natAbs 1 = ofInt n := by
  have sign : n * scale < 0 ↔ n < 0 := by
    have scaled := Int.mul_lt_mul_right (Int.natCast_pos.mpr scale_pos) (b := n) (c := 0)
    rwa [Int.zero_mul] at scaled
  rw [decide_eq_decide.mpr sign, Int.natAbs_mul, Int.natAbs_natCast, ofRatio_whole _ small,
    ofInt_of_ne_zero small nonzero]

/-- The sum of two whole numbers, the second of which is not negative zero. -/
theorem IsWhole.add_ofInt (h : x.IsWhole m) (small : n.natAbs < twoPow 53)
    (small' : (m + n).natAbs < twoPow 53) : x.add (ofInt n) = ofInt (m + n) := by
  obtain ⟨s, rfl, left⟩ := h.cases
  obtain ⟨t, second, right⟩ : ∃ t, ofInt n = .finite t (n.natAbs * scale) ∧ units t n.natAbs = n :=
    (isWhole_ofInt small).cases
  have total : units s (m.natAbs * scale) + units t (n.natAbs * scale) = (m + n) * scale := by
    rw [units_mul, units_mul, left, right, Int.add_mul]
  rw [second]
  simp only [add, total]
  by_cases zero : m + n = 0
  · have sign : (s && t) = false := by
      cases t with
      | false => exact Bool.and_false s
      | true =>
        -- a negative second number is not zero, so the first one is positive
        by_cases none : n = 0
        · rw [none] at second
          cases second
        · have below : -(n.natAbs : Int) = n := right
          cases s with
          | false => rfl
          | true =>
            have : -(m.natAbs : Int) = m := left
            omega
    rw [if_pos (by rw [zero, Int.zero_mul]), sign, zero]
    rfl
  · rw [if_neg (Int.mul_ne_zero zero scale_ne_zero), ofRatio_total small' zero]

/-- Adding negative zero changes nothing. -/
theorem IsWhole.add_negative_zero (h : x.IsWhole n) (small : n.natAbs < twoPow 53) :
    x.add (.finite true 0) = x := by
  by_cases zero : n = 0
  · obtain ⟨negative, rfl, -⟩ := h.cases
    rw [zero, Int.natAbs_zero, Nat.zero_mul]
    cases negative <;> rfl
  · obtain ⟨negative, parts, whole⟩ := h.cases
    have total : units negative (n.natAbs * scale) + units true 0 = n * scale := by
      rw [units_mul, whole]
      exact Int.add_zero _
    have sum : x.add (.finite true 0) = ofInt n := by
      rw [parts]
      simp only [add, total, if_neg (Int.mul_ne_zero zero scale_ne_zero)]
      exact ofRatio_total small zero
    rw [sum, ← h.eq_ofInt small zero]

/-- The product of two whole numbers, by their signs and sizes. -/
theorem mul_whole (s t : Bool) {a b : Nat} (small : a * b < twoPow 53) :
    (Binary64.finite s (a * scale)).mul (.finite t (b * scale)) =
      .finite (s != t) (a * b * scale) := by
  have parts : a * scale * (b * scale) = a * b * scale * scale := by
    rw [Nat.mul_mul_mul_comm, ← Nat.mul_assoc]
  have one := ofRatio_whole (s != t) small
  simp only [ofRatio] at one
  simp only [mul, parts, ofRatio, Format.round_mul_right _ _ scale_pos, one]

theorem one_mul_ofNat {k : Nat} (small : k < twoPow 53) : (ofInt 1).mul (ofNat k) = ofNat k := by
  have short : Int.natAbs 1 * k < twoPow 53 := by simpa using small
  rw [ofInt_of_ne_zero (by decide) (by decide), ofNat_of_small small, mul_whole _ _ short]
  simp

/-- Minus one times a whole number is its negative, also if it is zero. -/
theorem minus_one_mul_ofNat {k : Nat} (small : k < twoPow 53) :
    (ofInt (-1)).mul (ofNat k) = (ofNat k).neg := by
  have short : Int.natAbs (-1) * k < twoPow 53 := by simpa using small
  rw [ofInt_of_ne_zero (by decide) (by decide), ofNat_of_small small, mul_whole _ _ short]
  simp [neg]

theorem neg_ofNat {k : Nat} (small : k < twoPow 53) (nonzero : k ≠ 0) :
    (ofNat k).neg = ofInt (-k) := by
  have below : -(k : Int) < 0 := by omega
  rw [ofNat_of_small small, ofInt_of_ne_zero (by omega) (by omega), decide_eq_true below,
    Int.natAbs_neg, Int.natAbs_natCast]
  rfl

theorem IsWhole.neg (h : x.IsWhole n) : x.neg.IsWhole (-n) := by
  obtain ⟨negative, magnitude, rfl, whole⟩ := h
  refine ⟨!negative, magnitude, rfl, ?_⟩
  have flipped : units (!negative) magnitude = -units negative magnitude := by
    cases negative <;> simp [units]
  rw [flipped, whole, Int.neg_mul]

/-! ## Comparisons -/

theorem IsWhole.numEq_eq (h : x.IsWhole m) (h' : y.IsWhole n) : x.numEq y = decide (m = n) := by
  rw [Bool.eq_iff_iff, decide_eq_true_iff]
  exact h.numEq_iff h'

/-- Whole numbers are ordered as the whole numbers that they are. -/
theorem IsWhole.numLt_eq (h : x.IsWhole m) (h' : y.IsWhole n) : x.numLt y = decide (m < n) := by
  rw [Bool.eq_iff_iff, decide_eq_true_iff]
  simp only [numLt, order?, h.rank_eq, h'.rank_eq, beq_iff_eq, Option.some.injEq,
    Std.compare_eq_lt]
  exact Int.mul_lt_mul_right (Int.natCast_pos.mpr scale_pos)

theorem IsWhole.numLe_eq (h : x.IsWhole m) (h' : y.IsWhole n) : x.numLe y = decide (m ≤ n) := by
  rw [numLe, h.numLt_eq h', h.numEq_eq h', ← Bool.decide_or, decide_eq_decide]
  omega

/-! ## Remainders and wrapping -/

theorem ofWhole_of_ne_zero (a b : Bool) (nonzero : n ≠ 0) : ofWhole a n = ofWhole b n := by
  rw [ofWhole, ofWhole, if_neg nonzero, if_neg nonzero]

/-- Wrapping a whole number gives the same as wrapping its remainder, the sign of a zero
included. -/
theorem IsWhole.wrap_remEuclid (h : x.IsWhole n) {range : Nat} (positive : 0 < range)
    (small : range < twoPow 53) (signed : Bool) :
    (x.remEuclid range).wrap range signed = x.wrap range signed := by
  obtain ⟨negative, rfl, whole⟩ := h.cases
  obtain ⟨r, remainder⟩ : ∃ r, r = n.natAbs % range := ⟨_, rfl⟩
  have less : r < range := remainder ▸ Nat.mod_lt _ positive
  have rest : n.natAbs * scale % (range * scale) = r * scale := by
    rw [Nat.mul_mod_mul_right, remainder]
  have zero : r * scale = 0 ↔ r = 0 := by
    rw [Nat.mul_eq_zero, or_iff_left (Nat.ne_of_gt scale_pos)]
  have reduce {a : Int} (same : a % range = n % range) :
      (if signed then a.bmod range else a % range) =
        (if signed then n.bmod range else n % range) := by
    rw [← Int.emod_bmod a, ← Int.emod_bmod n, same]
  have split : (range : Int) * (n.natAbs / range : Nat) + r = n.natAbs := by
    rw [remainder]
    exact_mod_cast Nat.div_add_mod n.natAbs range
  by_cases moved : negative = true ∧ r ≠ 0
  · -- The remainder of a negative number is moved up, and is no multiple of the range.
    obtain ⟨rfl, nonzero⟩ := moved
    have below : -(n.natAbs : Int) = n := whole
    have up : remEuclid range (.finite true (n.natAbs * scale)) =
        .finite false ((range - r) * scale) := by
      have test : (true && r * scale != 0) = true := by simpa using mt zero.mp nonzero
      simp only [remEuclid, rest, if_pos test, ← Nat.sub_mul]
      exact ofRatio_whole false (Nat.lt_of_le_of_lt (Nat.sub_le ..) small)
    have same : ((range - r : Nat) : Int) % range = n % range := by
      rw [Int.emod_eq_emod_iff_emod_sub_eq_zero]
      refine Int.emod_eq_zero_of_dvd ⟨1 + (n.natAbs / range : Nat), ?_⟩
      rw [Int.mul_add, Int.mul_one, Int.ofNat_sub (Nat.le_of_lt less)]
      omega
    have kept : (if signed then n.bmod range else n % range) ≠ 0 := by
      have multiple : ¬ (range : Int) ∣ n := by
        rw [Int.ofNat_dvd_left, Nat.dvd_iff_mod_eq_zero, ← remainder]
        exact nonzero
      cases signed with
      | true => exact fun none => multiple (Int.dvd_iff_bmod_eq_zero.mpr none)
      | false => exact fun none => multiple (Int.dvd_of_emod_eq_zero none)
    rw [up]
    simp only [Binary64.wrap, Nat.mul_div_cancel _ scale_pos, whole]
    rw [show units false (range - r) = ((range - r : Nat) : Int) from rfl, reduce same,
      ofWhole_of_ne_zero false true kept]
  · have stays : remEuclid range (.finite negative (n.natAbs * scale)) =
        .finite negative (r * scale) := by
      have test : ¬ (negative && r * scale != 0) = true := by
        rw [Bool.and_eq_true, bne_iff_ne, ne_eq, zero]
        exact moved
      simp only [remEuclid, rest, if_neg test]
    have same : units negative r % range = n % range := by
      rw [Int.emod_eq_emod_iff_emod_sub_eq_zero]
      refine Int.emod_eq_zero_of_dvd ⟨-units negative (n.natAbs / range), ?_⟩
      rw [Int.mul_neg]
      cases negative with
      | false =>
        have above : (n.natAbs : Int) = n := whole
        show (r : Int) - n = -(range * (n.natAbs / range : Nat))
        omega
      | true =>
        have below : -(n.natAbs : Int) = n := whole
        show -(r : Int) - n = -(range * -(n.natAbs / range : Nat))
        rw [Int.mul_neg]
        omega
    simp only [stays, Binary64.wrap, Nat.mul_div_cancel _ scale_pos, whole, reduce same]

end Binary64

end FlatC

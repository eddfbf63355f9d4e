import FlatC.Proofs.CType.Layout
import FlatC.Proofs.Value.PointerArithmetic

/-!
# Pointers moved out of the address space

A pointer may be moved by any integer, over elements of any size, and the number that it is moved to
has up to 63 bits and a sign.  That number is computed in 64 bits, becomes a number of the double
format and is then wrapped to an address.  Two things go wrong on this way, both for elements that
are much larger than any memory.  Of all sums and differences there is one kind that 64 bits do not
hold, and it is not wrapped but aborts the run.  All others lose their low bits if they need more
than 53, as products of integers do, and so the address is off.

* `Value.LeavesLong` is the difference that 64 bits do not hold, and
  `Value.Integer.fitsLong_sub_iff` says that there is no other;
* `Value.only_one_difference_leaves_64_bits` says which operators are aborted;
* `Value.MovesNear` says what the others yield, and `Value.moved_pointers_round_to_53_bits` that they
  do;
* `Value.greatest_int_loses_its_low_bit` and `Value.least_int_aborts_a_difference` have a case each.
-/

namespace FlatC

open Binary64

namespace Value

variable {table : StructTable} {p v : Value} {a s : Nat} {n k : Int} {target : CType}

/-! ## What 64 bits hold -/

/-- The difference that 64 bits do not hold: the least `int` subtracted from an address in the upper
half of the address space, in steps of the greatest size. -/
def LeavesLong (a s : Nat) (n : Int) : Prop :=
  s = 4294967295 ∧ n = -2147483648 ∧ 2147483648 ≤ a

instance (a s : Nat) (n : Int) : Decidable (LeavesLong a s n) :=
  inferInstanceAs (Decidable (_ ∧ _))

namespace Integer

/-- The distance that an integer stands for is bounded by those of the least and the greatest
`int`. -/
theorem mul_bounds (h : v.Integer n) (s : Nat) :
    -2147483648 * (s : Int) ≤ n * s ∧ n * s ≤ 2147483647 * (s : Int) := by
  have size : 0 ≤ (s : Int) := Int.natCast_nonneg s
  exact ⟨Int.mul_le_mul_of_nonneg_right h.bounds.1 size,
    Int.mul_le_mul_of_nonneg_right h.bounds.2 size⟩

theorem fitsLong_mul (h : v.Integer n) (small : s < wordRange) : FitsLong (n * s) := by
  obtain ⟨lower, upper⟩ := h.mul_bounds s
  simp only [wordRange] at small
  simp only [FitsLong, longTop]
  omega

/-- Sums fit with `2 ^ 31` to spare. -/
theorem fitsLong_add (h : v.Integer n) (inSpace : a < wordRange) (small : s < wordRange) :
    FitsLong (a + n * s) := by
  obtain ⟨lower, upper⟩ := h.mul_bounds s
  simp only [wordRange] at inSpace small
  simp only [FitsLong, longTop]
  omega

/-- Differences fit but for one kind. -/
theorem fitsLong_sub_iff (h : v.Integer n) (inSpace : a < wordRange) (small : s < wordRange) :
    FitsLong (a - n * s) ↔ ¬ LeavesLong a s n := by
  obtain ⟨lower, upper⟩ := h.mul_bounds s
  have between := h.bounds
  simp only [wordRange] at inSpace small
  simp only [FitsLong, longTop, LeavesLong]
  constructor
  · rintro ⟨-, fits⟩ ⟨rfl, rfl, high⟩
    omega
  · intro kept
    refine ⟨by omega, ?_⟩
    -- steps of any other size leave room for every address
    by_cases greatest : s = 4294967295
    · subst greatest
      omega
    · omega

/-- That is the same if elements without size count as bytes. -/
theorem fitsLong_sub_unit_iff (h : v.Integer n) (inSpace : a < wordRange) (small : s < wordRange) :
    FitsLong (a - n * (max s 1 : Nat)) ↔ ¬ LeavesLong a s n := by
  rw [h.fitsLong_sub_iff inSpace (Nat.max_lt.mpr ⟨small, by decide⟩)]
  unfold LeavesLong
  omega

theorem fitsLong_mul_unit (h : v.Integer n) (small : s < wordRange) :
    FitsLong (n * (max s 1 : Nat)) :=
  h.fitsLong_mul (Nat.max_lt.mpr ⟨small, by decide⟩)

end Integer

/-! ## The operators -/

namespace Points

/-- No sum is aborted. -/
theorem plus_eq_ok (h : p.Points table a s) (h' : v.Integer n) (small : s < wordRange) :
    p.plus table v = .ok (rvalue (.ofInt (a + n * s)) p.type.decay) ∧
      v.plus table p = .ok (rvalue (.ofInt (a + n * s)) p.type.decay) :=
  h.plus_eq h' (h'.fitsLong_mul small) (h'.fitsLong_add h.inSpace small)

/-- A difference that 64 bits hold is not aborted. -/
theorem minus_eq_ok (h : p.Points table a s) (h' : v.Integer n) (small : s < wordRange)
    (kept : ¬ LeavesLong a s n) :
    p.minus table v = .ok (rvalue (.ofInt (a - n * (max s 1 : Nat))) p.type.decay) :=
  h.minus_eq h' (h'.fitsLong_mul_unit small)
    ((h'.fitsLong_sub_unit_iff h.inSpace small).mpr kept)

/-- The other one is. -/
theorem minus_eq_error (h : p.Points table a s) (h' : v.Integer n) (small : s < wordRange)
    (leaves : LeavesLong a s n) : p.minus table v = .error (.overflow .subtract) := by
  have large : ¬ FitsLong (a - n * (max s 1 : Nat)) := by
    rw [h'.fitsLong_sub_unit_iff h.inSpace small]
    exact fun kept => kept leaves
  rw [h.minus_eq_map h', h.backward_eq h' (h'.fitsLong_mul_unit small),
    checkedLong_of_not_fits large]
  rfl

end Points

/-- **Of all that pointer arithmetic computes, only one kind of difference does not fit 64 bits.**
Whatever structs are defined: take any pointer or array, whatever the size of its elements, and any
integer.  The distance and the sum fit, and the sum succeeds on either side.  The difference fits
and succeeds too, except for the least `int` subtracted from the upper half of the address space in
steps of `2 ^ 32 - 1` bytes.  That one is aborted. -/
theorem only_one_difference_leaves_64_bits (steps : List StructStep) (ranged : p.InRange)
    (reached : p.type.pointee? = some target)
    (sized : (StructTable.empty.afterAll steps).sizeOf target = .ok s) (h : v.Integer n) :
    let table := StructTable.empty.afterAll steps
    let a := p.toAddress
    FitsLong (n * s) ∧ FitsLong (a + n * s) ∧
      (∃ r, p.plus table v = .ok r) ∧ (∃ r, v.plus table p = .ok r) ∧
      FitsLong (n * (max s 1 : Nat)) ∧
      (FitsLong (a - n * (max s 1 : Nat)) ↔ ¬ LeavesLong a s n) ∧
      (LeavesLong a s n → p.minus table v = .error (.overflow .subtract)) ∧
      (¬ LeavesLong a s n → ∃ r, p.minus table v = .ok r) := by
  intro table a
  have small := (StructTable.sound_empty.afterAll steps).sizeOf_lt sized
  have start := points_of_inRange ranged reached sized
  obtain ⟨right, left⟩ := start.plus_eq_ok h small
  refine ⟨h.fitsLong_mul small, h.fitsLong_add start.inSpace small, ⟨_, right⟩, ⟨_, left⟩,
    h.fitsLong_mul_unit small, h.fitsLong_sub_unit_iff start.inSpace small, ?_, ?_⟩
  · exact start.minus_eq_error h small
  · exact fun kept => ⟨_, start.minus_eq_ok h small kept⟩

/-- A pointer to the last address, over elements of the greatest size: the greatest `int` can be added
and the least one cannot be subtracted. -/
theorem greatest_pointer_leaves_64_bits :
    let p := rvalue (.ofInt 4294967295) (.pointer (.array .char [4294967295]))
    let least := rvalue (.ofInt (-2147483648)) .int
    p.InRange ∧ StructTable.empty.sizeOf (.array .char [4294967295]) = .ok 4294967295 ∧
      least.Integer (-2147483648) ∧ LeavesLong p.toAddress 4294967295 (-2147483648) ∧
      (∃ r, p.plus .empty least = .ok r) ∧
      p.minus .empty least = .error (.overflow .subtract) := by
  intro p least
  have ranged : p.InRange := inRange_rvalue ..
  have sized : StructTable.empty.sizeOf (.array .char [4294967295]) = .ok 4294967295 := rfl
  have reached : p.type.pointee? = some (.array .char [4294967295]) := rfl
  have integer := integer_int (n := -2147483648) (by decide) (by decide)
  have address : (p.toAddress : Int) = 4294967295 :=
    toAddress_rvalue reached (isWhole_ofInt (by decide +kernel))
  have leaves : LeavesLong p.toAddress 4294967295 (-2147483648) := ⟨rfl, rfl, by omega⟩
  obtain ⟨-, -, sum, -, -, -, aborted, -⟩ :=
    only_one_difference_leaves_64_bits [] ranged reached sized integer
  exact ⟨ranged, sized, integer, leaves, sum, aborted leaves⟩

/-- So 64 bits do not hold every difference. -/
theorem least_int_aborts_a_difference :
    (match (rvalue (.ofInt 4294967295) (.pointer (.array .char [4294967295]))).minus .empty
        (rvalue (.ofInt (-2147483648)) .int) with
      | .ok _ => false
      | .error fault => decide (fault = .overflow .subtract)) = true ∧
      ¬ FitsLong (4294967295 - -2147483648 * (max 4294967295 1 : Nat)) := by
  decide +kernel

/-! ## Rounding -/

/-- The computation succeeds with a pointer of a type.  Its address is, modulo `2 ^ 32`, the number
of the double format nearest to `k`, which is at most 512 away.  It is `k` itself modulo `2 ^ 32` if
`k` is a number of the format, in particular if it is not beyond `2 ^ 53`, and for no other `k`. -/
def MovesNear (result : Except Fault Value) (type : CType) (k : Int) : Prop :=
  ∃ r l, result = .ok r ∧ r.type = type ∧ r.address = none ∧ Nearest k l ∧
    (l - k).natAbs ≤ 512 ∧ (r.toAddress : Int) = l % wordRange ∧
    ((r.toAddress : Int) = k % wordRange ↔ (spacing k : Int) ∣ k) ∧
    (k.natAbs ≤ twoPow 53 → (r.toAddress : Int) = k % wordRange)

/-- What 64 bits hold is rounded and then wrapped. -/
theorem movesNear_of_fits {type : CType} (reached : type.pointee? = some target)
    (fits : FitsLong k) : MovesNear (.ok (rvalue (.ofInt k) type)) type k := by
  have bound : k.natAbs ≤ twoPow (53 + 10) := by
    have power : twoPow (53 + 10) = 9223372036854775808 := rfl
    simp only [FitsLong, longTop] at fits
    omega
  obtain ⟨l, nearest, whole⟩ := exists_nearest (Nat.lt_of_le_of_lt bound (by decide +kernel))
  have near : (l - k).natAbs ≤ 512 := by
    have half := nearest.near_of_le bound
    have power : twoPow 10 = 1024 := rfl
    omega
  have address := toAddress_rvalue reached whole
  have right : l % wordRange = k % wordRange ↔ (spacing k : Int) ∣ k := by
    have close : (l - k).natAbs < wordRange := Nat.lt_of_le_of_lt near (by decide)
    rw [← nearest.eq_iff, ← dvd_sub_iff_eq close, Int.emod_eq_emod_iff_emod_sub_eq_zero,
      Int.dvd_iff_emod_eq_zero]
  refine ⟨_, l, rfl, rfl, rfl, nearest, near, address, ?_, fun short => ?_⟩
  · rw [address]
    exact right
  · rw [address]
    exact right.mpr (spacing_dvd_of_le short)

/-- **A pointer that is moved is rounded to 53 significant bits before its low 32 bits are kept.**
Whatever structs are defined: take any pointer or array whose elements have a size, and any integer.
The sum, on either side, and the difference are pointers of the same kind.  Their address is exact
modulo `2 ^ 32` if the number that they are moved to is a number of the double format, in
particular if it is not beyond `2 ^ 53`; and for no other number.  For the others the number that is
reduced is the nearest one of the format, up to 512 away.  The one difference that 64 bits do not
hold is aborted. -/
theorem moved_pointers_round_to_53_bits (steps : List StructStep) (ranged : p.InRange)
    (reached : p.type.pointee? = some target)
    (sized : (StructTable.empty.afterAll steps).sizeOf target = .ok s) (positive : 1 ≤ s)
    (h : v.Integer n) :
    let table := StructTable.empty.afterAll steps
    let a := p.toAddress
    MovesNear (p.plus table v) p.type.decay (a + n * s) ∧
      MovesNear (v.plus table p) p.type.decay (a + n * s) ∧
      (¬ LeavesLong a s n → MovesNear (p.minus table v) p.type.decay (a - n * s)) ∧
      (LeavesLong a s n → p.minus table v = .error (.overflow .subtract)) := by
  intro table a
  have small := (StructTable.sound_empty.afterAll steps).sizeOf_lt sized
  have start := points_of_inRange ranged reached sized
  have unit : max s 1 = s := Nat.max_eq_left positive
  have reached' : p.type.decay.pointee? = some target := by rw [CType.pointee?_decay, reached]
  obtain ⟨right, left⟩ := start.plus_eq_ok h small
  have sum := movesNear_of_fits reached' (h.fitsLong_add start.inSpace small)
  refine ⟨?_, ?_, fun kept => ?_, ?_⟩
  · rw [right]
    exact sum
  · rw [left]
    exact sum
  · rw [start.minus_eq_ok h small kept, unit]
    exact movesNear_of_fits reached' ((h.fitsLong_sub_iff start.inSpace small).mpr kept)
  · exact start.minus_eq_error h small

/-- From the address 8, three elements of `2 ^ 32 - 1` bytes up lead to the address 5, and three down
to 11. -/
theorem three_greatest_elements_wrap_around :
    let p := rvalue (.ofInt 8) (.pointer (.array .char [4294967295]))
    let three := rvalue (.ofInt 3) .char
    p.InRange ∧ StructTable.empty.sizeOf (.array .char [4294967295]) = .ok 4294967295 ∧
      three.Integer 3 ∧ ¬ LeavesLong p.toAddress 4294967295 3 ∧
      (∃ r, p.plus .empty three = .ok r ∧ (r.toAddress : Int) = 5) ∧
      ∃ r, p.minus .empty three = .ok r ∧ (r.toAddress : Int) = 11 := by
  intro p three
  have ranged : p.InRange := inRange_rvalue ..
  have sized : StructTable.empty.sizeOf (.array .char [4294967295]) = .ok 4294967295 := rfl
  have reached : p.type.pointee? = some (.array .char [4294967295]) := rfl
  have integer := integer_char (n := 3) (by decide) (by decide)
  have address : (p.toAddress : Int) = 8 :=
    toAddress_rvalue reached (isWhole_ofInt (by decide +kernel))
  have kept : ¬ LeavesLong p.toAddress 4294967295 3 := fun leaves => absurd leaves.2.1 (by decide)
  obtain ⟨⟨r, -, up, -, -, -, -, -, -, exact⟩, -, difference, -⟩ :=
    moved_pointers_round_to_53_bits [] ranged reached sized (by decide) integer
  obtain ⟨r', -, down, -, -, -, -, -, -, exact'⟩ := difference kept
  rw [address] at exact exact'
  exact ⟨ranged, sized, integer, kept, ⟨r, up, exact (by decide +kernel)⟩, r', down,
    exact' (by decide +kernel)⟩

/-- The greatest `int` added to the null pointer over such elements leads to `2 ^ 31 + 1` modulo
`2 ^ 32`, and the result is `2 ^ 31`. -/
theorem greatest_int_loses_its_low_bit :
    (match (rvalue (.ofInt 0) (.pointer (.array .char [4294967295]))).plus .empty
        (rvalue (.ofInt 2147483647) .int) with
      | .ok r => decide (r.toAddress = 2147483648)
      | .error _ => false) = true ∧
      (0 + 2147483647 * 4294967295 : Int) % wordRange = 2147483649 := by
  decide +kernel

end Value

end FlatC

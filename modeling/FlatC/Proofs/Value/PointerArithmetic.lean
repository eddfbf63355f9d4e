import FlatC.Proofs.Value.TwosComplement

/-!
# Arithmetic of pointers

A pointer counts in elements of what it points at, and an array counts as the pointer to its first
element.  The number of bytes that an operator moves a pointer by is computed in whole numbers and
only then wrapped to an address, so inside the address space pointers are to their indices as
addresses are to byte offsets.

* `Value.Points` is the pointers and arrays with their addresses and the sizes of their elements;
* `Value.Points.plus_eq`, `Value.Points.minus_eq` and `Value.Points.distance_eq` compute the
  operators, `Value.Points.compare_eq` the comparisons;
* `Value.pointer_arithmetic_is_exact` puts them together.
-/

namespace FlatC

open Binary64

/-! ## Comparisons of whole numbers -/

/-- The truth of a comparison of two whole numbers; false for an operator that compares nothing. -/
def BinaryOp.relates (op : BinaryOp) (m n : Int) : Bool :=
  match op with
  | .eq => decide (m = n)
  | .ne => decide (m ≠ n)
  | .lt => decide (m < n)
  | .le => decide (m ≤ n)
  | .gt => decide (n < m)
  | .ge => decide (n ≤ m)
  | _ => false

/-- Comparisons are not changed by counting in steps of any size, from any start. -/
theorem BinaryOp.relates_scaled (op : BinaryOp) (a m n : Int) {s : Nat} (positive : 0 < s) :
    op.relates (a + m * s) (a + n * s) = op.relates m n := by
  have step : (0 : Int) < s := Int.natCast_pos.mpr positive
  have same : a + m * s = a + n * s ↔ m = n := by
    rw [Int.add_right_inj, Int.mul_eq_mul_right_iff (Int.ne_of_gt step)]
  have less (k l : Int) : a + k * s < a + l * s ↔ k < l := by
    rw [Int.add_lt_add_iff_left, Int.mul_lt_mul_right step]
  have most (k l : Int) : a + k * s ≤ a + l * s ↔ k ≤ l := by
    rw [Int.add_le_add_iff_left, Int.mul_le_mul_right step]
  cases op <;> simp only [relates, ne_eq, same, less, most]

namespace Value

variable {table : StructTable} {p q v w : Value} {a b s t : Nat} {m n : Int} {op : BinaryOp}

theorem relation?_of_isWhole {x y : Binary64} (relational : op.isRelational = true)
    (h : x.IsWhole m) (h' : y.IsWhole n) : relation? op x y = some (op.relates m n) := by
  cases op <;> cases relational <;>
    simp only [relation?, BinaryOp.relates, h.numEq_eq h', h.numLt_eq h', h.numLe_eq h',
      h'.numLt_eq h, h'.numLe_eq h, decide_not, ne_eq]

/-- Two integers compare as the whole numbers that they are. -/
theorem Integer.compare_eq (h : v.Integer m) (h' : w.Integer n)
    (relational : op.isRelational = true) : compare op v w = .ok (ofBool (op.relates m n)) := by
  have plain : v.mixesPointer w = false := by
    simp only [mixesPointer, h.isPointerLike_eq, h'.isPointerLike_eq, Bool.false_and, Bool.or_false]
  simp only [compare, h.binary_eq h', plain, relation?_of_isWhole relational h.isWhole h'.isWhole,
    bind, Except.bind, pure, Except.pure, Bool.false_eq_true, if_false]

/-! ## Pointers and what they point at -/

/-- The value is a pointer or an array at the address `a`, and what one dereference of it reaches
takes `s` bytes. -/
structure Points (table : StructTable) (v : Value) (a s : Nat) : Prop where
  sized : ∃ target, v.type.pointee? = some target ∧ table.sizeOf target = .ok s
  inSpace : a < wordRange
  isWhole : v.number.IsWhole a

theorem toAddress_of_isWhole (whole : v.number.IsWhole a) (inSpace : a < wordRange) :
    v.toAddress = a := by
  simp only [wordRange] at inSpace
  have read : v.number.toInt64 = a := by
    refine whole.toInt64 ?_ ?_
    · simp only [longTop]
      omega
    · simp only [longTop]
      omega
  simp only [toAddress, read, wordRange]
  omega

/-- What can be dereferenced is bounded by the address space. -/
theorem bounds?_of_pointee? {type target : CType} (reached : type.pointee? = some target) :
    type.bounds? = some (0, 4294967295) := by
  cases type with
  | pointer _ | array _ _ => rfl
  | int | float | char | void | function | struct _ => cases reached

/-- A whole number becomes the address of a pointer modulo `2 ^ 32`. -/
theorem toAddress_rvalue {type target : CType} {x : Binary64} (reached : type.pointee? = some target)
    (whole : x.IsWhole n) : ((rvalue x type).toAddress : Int) = n % wordRange := by
  have wrapped : (rvalue x type).number = x.wrap wordRange false := by
    cases type with
    | pointer _ | array _ _ => rfl
    | int | float | char | void | function | struct _ => cases reached
  have lower : 0 ≤ n % wordRange := Int.emod_nonneg _ (by decide)
  have upper : n % wordRange < wordRange := Int.emod_lt_of_pos _ (by decide)
  obtain ⟨b, address⟩ := Int.eq_ofNat_of_zero_le lower
  have reduced : (rvalue x type).number.IsWhole b := by
    rw [wrapped, ← address]
    exact whole.wrap wordRange false
  rw [toAddress_of_isWhole reduced (by omega), address]

/-- Every pointer and every array in the range of its type is at some address. -/
theorem points_of_inRange {target : CType} (ranged : v.InRange)
    (reached : v.type.pointee? = some target) (sized : table.sizeOf target = .ok s) :
    v.Points table v.toAddress s := by
  have held : v.type.Holds v.number := ranged
  simp only [CType.Holds, bounds?_of_pointee? reached] at held
  obtain ⟨n, lower, upper, whole⟩ := held
  obtain ⟨a, rfl⟩ := Int.eq_ofNat_of_zero_le lower
  have inSpace : a < wordRange := by
    simp only [wordRange]
    omega
  rw [toAddress_of_isWhole whole inSpace]
  exact ⟨⟨target, reached, sized⟩, inSpace, whole⟩

/-- Every number in the address space is the address that a pointer or an array can be made at. -/
theorem points_of_fit {target : CType} (reached : v.type.pointee? = some target)
    (sized : table.sizeOf target = .ok s) (inSpace : a < wordRange)
    (fitted : v.number = v.type.fit (.ofInt a)) : v.Points table a s := by
  have wide : wordRange ≤ twoPow 53 := by decide
  have whole : (Binary64.ofInt a).IsWhole a := isWhole_ofNat (Nat.lt_of_lt_of_le inSpace wide)
  have held : v.type.Holds (.ofInt a) := by
    simp only [CType.Holds, bounds?_of_pointee? reached]
    simp only [wordRange] at inSpace
    exact ⟨a, by omega, by omega, whole⟩
  refine ⟨⟨target, reached, sized⟩, inSpace, ?_⟩
  rwa [fitted, held.fit_eq]

namespace Points

theorem isPointerLike_eq (h : p.Points table a s) : p.type.isPointerLike = true := by
  obtain ⟨target, reached, -⟩ := h.sized
  exact CType.isPointerLike_of_pointee? reached

theorem isArithmetic_eq (h : p.Points table a s) : p.type.isArithmetic = false := by
  have pointer := h.isPointerLike_eq
  cases type : p.type <;> rw [type] at pointer <;> first | rfl | cases pointer

theorem isWhole_eq (h : p.Points table a s) : p.type.isWhole = false := by
  have pointer := h.isPointerLike_eq
  cases type : p.type <;> rw [type] at pointer <;> first | rfl | cases pointer

theorem stepSize_eq (h : p.Points table a s) : p.stepSize table = .ok s := by
  obtain ⟨target, reached, sized⟩ := h.sized
  simp only [stepSize, h.isPointerLike_eq, CType.pointee, reached, sized, bind, Except.bind,
    if_true]

theorem toAddress_eq (h : p.Points table a s) : p.toAddress = a :=
  toAddress_of_isWhole h.isWhole h.inSpace

theorem whole_eq (h : p.Points table a s) : p.whole = a := by
  have bound := h.inSpace
  simp only [wordRange] at bound
  refine h.isWhole.toInt64 ?_ ?_
  · simp only [longTop]
    omega
  · simp only [longTop]
    omega

/-- A pointer of the same kind to any number in the address space. -/
theorem moved (h : p.Points table a s) (inSpace : b < wordRange) :
    (rvalue (.ofInt b) p.type.decay).Points table b s := by
  obtain ⟨target, reached, sized⟩ := h.sized
  have reached' : p.type.decay.pointee? = some target := by rw [CType.pointee?_decay, reached]
  exact points_of_fit reached' sized inSpace rfl

/-! ## The operators -/

/-- An integer may be added to a pointer, from either side, and subtracted from it. -/
theorem binary_eq (h : p.Points table a s) (h' : v.Integer n) :
    CType.binary .add p.type v.type = .ok p.type.decay ∧
      CType.binary .add v.type p.type = .ok p.type.decay ∧
      CType.binary .sub p.type v.type = .ok p.type.decay := by
  have plain : v.type.isArithmetic = true ∧ v.type.isWhole = true := by
    obtain type | type := h'.typed <;> rw [type] <;> exact ⟨rfl, rfl⟩
  have commutes : BinaryOp.add.isCommutative = true := rfl
  simp only [CType.binary, CType.binary?, CType.pointerBinary?, h.isArithmetic_eq,
    h.isPointerLike_eq, plain.1, plain.2, commutes, Bool.false_eq_true, if_false, if_true,
    Bool.and_self, and_self]

/-- Adding an integer to a pointer is moving it forward, whichever stands on the left. -/
theorem plus_eq_map (h : p.Points table a s) (h' : v.Integer n) :
    p.plus table v = (p.forward v s).map (fun sum => rvalue (.ofInt sum) p.type.decay) ∧
      v.plus table p = (p.forward v s).map (fun sum => rvalue (.ofInt sum) p.type.decay) := by
  simp only [plus, (h.binary_eq h').1, (h.binary_eq h').2.1, h.isPointerLike_eq,
    h'.isPointerLike_eq, h.stepSize_eq, bind, Except.bind, pure, Except.pure, Bool.false_eq_true,
    if_false, if_true]
  exact ⟨rfl, rfl⟩

/-- Subtracting an integer from a pointer is moving it backward, by bytes if its elements have no
size. -/
theorem minus_eq_map (h : p.Points table a s) (h' : v.Integer n) :
    p.minus table v =
      (p.backward v (max s 1)).map fun difference => rvalue (.ofInt difference) p.type.decay := by
  simp only [minus, (h.binary_eq h').2.2, h.isPointerLike_eq, h'.isPointerLike_eq, h.stepSize_eq,
    bind, Except.bind, pure, Except.pure, Bool.false_eq_true, if_false, if_true]
  rfl

theorem forward_eq (h : p.Points table a s) (h' : v.Integer n) {step : Nat}
    (offset : FitsLong (n * step)) : p.forward v step = checkedLong .add (a + n * step) := by
  simp only [forward, h.whole_eq, h'.whole_eq, checkedLong_of_fits offset, bind, Except.bind]

theorem backward_eq (h : p.Points table a s) (h' : v.Integer n) {step : Nat}
    (offset : FitsLong (n * step)) : p.backward v step = checkedLong .subtract (a - n * step) := by
  simp only [backward, h.whole_eq, h'.whole_eq, checkedLong_of_fits offset, bind, Except.bind]

/-- A sum moves a pointer by whole elements, from either side, if 64 bits hold the distance and the
sum. -/
theorem plus_eq (h : p.Points table a s) (h' : v.Integer n) (offset : FitsLong (n * s))
    (sum : FitsLong (a + n * s)) :
    p.plus table v = .ok (rvalue (.ofInt (a + n * s)) p.type.decay) ∧
      v.plus table p = .ok (rvalue (.ofInt (a + n * s)) p.type.decay) := by
  rw [(h.plus_eq_map h').1, (h.plus_eq_map h').2, h.forward_eq h' offset, checkedLong_of_fits sum]
  exact ⟨rfl, rfl⟩

/-- A difference moves a pointer back by whole elements, or by bytes if they have no size. -/
theorem minus_eq (h : p.Points table a s) (h' : v.Integer n)
    (offset : FitsLong (n * (max s 1 : Nat))) (difference : FitsLong (a - n * (max s 1 : Nat))) :
    p.minus table v = .ok (rvalue (.ofInt (a - n * (max s 1 : Nat))) p.type.decay) := by
  rw [h.minus_eq_map h', h.backward_eq h' offset, checkedLong_of_fits difference]
  rfl

/-- Pointers of one kind may be subtracted from each other and compared. -/
theorem binary_eq_int (h : p.Points table a s) (h' : q.Points table b t)
    (kind : q.type.decay = p.type.decay) (pairs : op = .sub ∨ op.isRelational = true) :
    CType.binary op p.type q.type = .ok .int := by
  have same : q.type.decay.same p.type.decay = true := by rw [kind, CType.same_self]
  cases op <;> simp [BinaryOp.isRelational] at pairs <;>
    simp only [CType.binary, CType.binary?, CType.pointerBinary?, h.isArithmetic_eq,
      h.isPointerLike_eq, h'.isPointerLike_eq, h'.isWhole_eq, same, Bool.false_eq_true, if_false,
      if_true, Bool.and_self, Bool.true_or]

/-- The difference of two pointers is their distance in elements, rounded toward zero. -/
theorem distance_eq (h : p.Points table a s) (h' : q.Points table b t)
    (kind : q.type.decay = p.type.decay) :
    p.minus table q = .ok (rvalue (.ofInt (((a : Int) - b).tdiv (max s 1 : Nat))) .int) := by
  simp only [minus, h.binary_eq_int h' kind (.inl rfl), h.isPointerLike_eq, h'.isPointerLike_eq,
    h.stepSize_eq, h.toAddress_eq, h'.toAddress_eq, bind, Except.bind, pure, Except.pure, if_true]

/-- Pointers compare as their addresses do. -/
theorem compare_eq (h : p.Points table a s) (h' : q.Points table b t)
    (kind : q.type.decay = p.type.decay) (relational : op.isRelational = true) :
    compare op p q = .ok (ofBool (op.relates a b)) := by
  have plain : p.mixesPointer q = false := by
    simp only [mixesPointer, h.isPointerLike_eq, h'.isPointerLike_eq, Bool.not_true, Bool.and_false,
      Bool.false_and, Bool.or_false]
  simp only [compare, h.binary_eq_int h' kind (.inr relational), plain,
    relation?_of_isWhole relational h.isWhole h'.isWhole, bind, Except.bind, pure, Except.pure,
    Bool.false_eq_true, if_false]

/-- A sum that stays in the address space points there, at elements of the same size. -/
theorem plus_points (h : p.Points table a s) (h' : v.Integer n) (lower : 0 ≤ a + n * s)
    (upper : a + n * s < wordRange) :
    ∃ b : Nat, (b : Int) = a + n * s ∧
      p.plus table v = .ok (rvalue (.ofInt b) p.type.decay) ∧
      v.plus table p = .ok (rvalue (.ofInt b) p.type.decay) ∧
      (rvalue (.ofInt b) p.type.decay).Points table b s := by
  obtain ⟨b, address⟩ := Int.eq_ofNat_of_zero_le lower
  have inSpace := h.inSpace
  simp only [wordRange] at inSpace upper
  have offset : FitsLong (n * s) := by
    simp only [FitsLong, longTop]
    omega
  have sum : FitsLong (a + n * s) := by
    simp only [FitsLong, longTop]
    omega
  obtain ⟨right, left⟩ := h.plus_eq h' offset sum
  rw [right, left, address]
  refine ⟨b, rfl, rfl, rfl, h.moved ?_⟩
  simp only [wordRange]
  omega

end Points

/-! ## Inside the address space -/

/-- **Pointer arithmetic is exact inside the address space.**  Take any pointer or array whose
elements have a size, and two integers that lead from it to addresses.  The sum of the pointer and
an integer, in either order, is a pointer as many elements farther on.  Subtracting the integer
again leads back, and subtracting the first pointer gives the integer.  Two such sums compare as the
integers do. -/
theorem pointer_arithmetic_is_exact {target : CType} (ranged : p.InRange)
    (reached : p.type.pointee? = some target) (sized : table.sizeOf target = .ok s)
    (positive : 1 ≤ s) (first : v.Integer m) (second : w.Integer n)
    (lower : 0 ≤ p.toAddress + m * s) (upper : p.toAddress + m * s < wordRange)
    (lower' : 0 ≤ p.toAddress + n * s) (upper' : p.toAddress + n * s < wordRange) :
    ∃ q q', p.plus table v = .ok q ∧ v.plus table p = .ok q ∧ q.type = p.type.decay ∧
      (q.toAddress : Int) = p.toAddress + m * s ∧
      (∃ r, q.minus table v = .ok r ∧ r.type = p.type.decay ∧ r.toAddress = p.toAddress) ∧
      q.minus table p = .ok (ofInt m) ∧
      p.plus table w = .ok q' ∧
      ∀ op : BinaryOp, op.isRelational = true →
        compare op q q' = .ok (ofBool (op.relates m n)) ∧
          compare op v w = .ok (ofBool (op.relates m n)) := by
  have start := points_of_inRange ranged reached sized
  obtain ⟨b, address, right, left, there⟩ := start.plus_points first lower upper
  obtain ⟨c, address', right', -, there'⟩ := start.plus_points second lower' upper'
  have unit : max s 1 = s := Nat.max_eq_left positive
  have kind : p.type.decay = (rvalue (.ofInt b) p.type.decay).type.decay :=
    (CType.decay_decay p.type).symm
  have back : (b : Int) - m * (max s 1 : Nat) = p.toAddress := by
    rw [unit, address]
    exact Int.add_sub_cancel _ _
  have apart : ((b : Int) - p.toAddress).tdiv (max s 1 : Nat) = m := by
    have bytes : (b : Int) - p.toAddress = m * s := by omega
    rw [unit, bytes]
    exact Int.mul_tdiv_cancel m (by omega)
  refine ⟨_, _, right, left, rfl, ?_, ⟨rvalue (.ofInt p.toAddress) p.type.decay, ?_, rfl, ?_⟩, ?_,
    right', ?_⟩
  · rw [there.toAddress_eq, address]
  · have inSpace := start.inSpace
    have inSpace' := there.inSpace
    simp only [wordRange] at inSpace inSpace'
    have offset : FitsLong (m * (max s 1 : Nat)) := by
      simp only [FitsLong, longTop]
      omega
    have difference : FitsLong (b - m * (max s 1 : Nat)) := by
      simp only [FitsLong, longTop]
      omega
    rw [there.minus_eq first offset difference, back, ← kind]
  · exact (start.moved start.inSpace).toAddress_eq
  · rw [there.distance_eq start kind, apart]
    rfl
  · intro op relational
    refine ⟨?_, first.compare_eq second relational⟩
    rw [there.compare_eq there' rfl relational, address, address',
      op.relates_scaled p.toAddress m n positive]

/-- From a grid of three rows of four `int`s at the address 200, two rows down and five rows up, of
16 bytes each. -/
theorem rows_of_a_grid :
    (lvalue (.ofInt 200) (.array .int [3, 4]) 200).toAddress = 200 ∧
      (rvalue (.ofInt (-2)) .char).Integer (-2) ∧ (rvalue (.ofInt 5) .int).Integer 5 ∧
      ∃ q q', (lvalue (.ofInt 200) (.array .int [3, 4]) 200).plus .empty
          (rvalue (.ofInt (-2)) .char) = .ok q ∧
        (lvalue (.ofInt 200) (.array .int [3, 4]) 200).plus .empty
          (rvalue (.ofInt 5) .int) = .ok q' ∧
        q.toAddress = 168 ∧
        q.minus .empty (lvalue (.ofInt 200) (.array .int [3, 4]) 200) = .ok (ofInt (-2)) ∧
        compare .lt q q' = .ok (ofBool true) := by
  have reached : (lvalue (.ofInt 200) (.array .int [3, 4]) 200).type.pointee? =
      some (.array .int [4]) := rfl
  have sized : StructTable.empty.sizeOf (.array .int [4]) = .ok 16 := rfl
  have start : (lvalue (.ofInt 200) (.array .int [3, 4]) 200).toAddress = 200 :=
    (points_of_fit reached sized (by decide) (by simp [lvalue])).toAddress_eq
  have down := integer_char (n := -2) (by decide) (by decide)
  have up := integer_int (n := 5) (by decide) (by decide)
  obtain ⟨q, q', moved, -, -, address, -, apart, moved', compared⟩ :=
    pointer_arithmetic_is_exact (inRange_lvalue ..) reached sized (by decide) down up
      (by rw [start]; decide) (by rw [start]; decide) (by rw [start]; decide)
      (by rw [start]; decide)
  have two : q.toAddress = 168 := by
    rw [start] at address
    omega
  exact ⟨start, down, up, q, q', moved, moved', two, apart, (compared .lt rfl).1⟩

end Value

end FlatC

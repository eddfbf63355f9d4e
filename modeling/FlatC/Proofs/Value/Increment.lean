import FlatC.Proofs.CType.Layout
import FlatC.Proofs.Image.Faithful
import FlatC.Proofs.Value.Cast
import FlatC.Proofs.Value.PointerArithmetic

/-!
# Steps and assignments of one

A step up or down could be written as a compound assignment of one.  The two are computed apart: a
step adds the size of an element, up or down, to the number itself, while an assignment adds or
subtracts whole numbers, fits the result to a type of its own and converts it.  They come to the
same for every type, with one exception.  Elements may have no size, and then a difference counts in
bytes where sums and steps count in elements.

* `Store.EndAlike` says that two steps on an image end in the same way;
* `Value.step_cases` reduces this to the values that a step and an assignment store;
* `Value.endAlike_step` compares the two in both directions;
* `Value.steps_are_assignments_of_one` adds the exception, and
  `Value.empty_elements_step_down_in_place` has a case of it.
-/

namespace FlatC

open Binary64

/-- Two steps on the image both fail and leave the image as it was. -/
def Store.BothFail {α : Type} (first second : Store α) (image : Image) : Prop :=
  ∃ fault fault', first image = .error fault image ∧ second image = .error fault' image

/-- Two steps on the image end alike: both succeed, with one answer and one image, or both fail. -/
def Store.EndAlike {α : Type} (first second : Store α) (image : Image) : Prop :=
  (∃ answer image', first image = .ok answer image' ∧ second image = .ok answer image') ∨
    first.BothFail second image

/-- Any two pointers can be cast to each other. -/
theorem CType.castsTo_pointer (s t : CType) : (CType.pointer s).castsTo (.pointer t) = true := by
  simp [castsTo, decay, isPointer]

namespace Value

variable {table : StructTable} {v w p r r' : Value} {op : UnaryOp} {bin : BinaryOp} {n : Int}
  {a s : Nat} {image : Image}

/-- The number one, as it is written in a program. -/
def one : Value :=
  literal (.ofInt 1)

/-- The operator of the assignment that a step abbreviates. -/
def stepOperator (op : UnaryOp) : BinaryOp :=
  if stepsUp op then .add else .sub

/-- Where a step goes, as a whole number. -/
def direction (op : UnaryOp) : Int :=
  if stepsUp op then 1 else -1

/-! ## Storing a result -/

/-- Stores a value and yields it. -/
def keep (address : Nat) (r : Value) : Store Value := do
  Image.store address r
  return r

/-- Of two values of one type, both can be stored at a place or neither. -/
theorem keep_cases (address : Nat) (image : Image) (storable : r.type.isStorable = true)
    (same : r'.type = r.type) :
    (∃ image₁ image₂, keep address r image = .ok r image₁ ∧
        keep address r' image = .ok r' image₂ ∧ (r = r' → image₁ = image₂)) ∨
      (keep address r).BothFail (keep address r') image := by
  obtain ⟨data, bytes, sized⟩ := Image.sizeOf_stored .empty storable
  obtain ⟨data', bytes', sized'⟩ := Image.sizeOf_stored (v := r') .empty (by rwa [same])
  rw [same, sized] at sized'
  have length : data.length = data'.length := Except.ok.inj sized'
  have first := image.store_cases address bytes
  have second := image.store_cases address bytes'
  rw [← length] at second
  obtain ⟨writable, stored⟩ | ⟨refused, fault, failed⟩ := first
  · obtain ⟨-, stored'⟩ | ⟨refused, -⟩ := second
    · refine .inl ⟨_, _, Step.bind_of_ok stored, Step.bind_of_ok stored', ?_⟩
      rintro rfl
      rw [Option.some.inj (bytes.symm.trans bytes')]
    · exact absurd writable refused
  · obtain ⟨writable, -⟩ | ⟨-, fault', failed'⟩ := second
    · exact absurd writable refused
    · exact .inr ⟨fault, fault', Step.bind_of_error failed, Step.bind_of_error failed'⟩

theorem stepBy_eq_keep (place : v.address = some a) (new : yieldsNew op = true)
    (computed : v.stepped table op = .ok r) : v.stepBy table op = keep a r := by
  simp only [stepBy, place, computed, new, if_true]
  rfl

theorem assign_eq_keep (place : v.address = some a) (storable : v.type.isStorable = true)
    (computed : v.assigned table (.compound bin) w = .ok (r, r)) :
    v.assign table (.compound bin) w = keep a r := by
  simp only [assign, place, storable, computed, if_true]
  rfl

/-- Without a value to store, a step and an assignment fail and leave the image as it was. -/
theorem both_fail {fault : Fault} (failed : v.stepped table op = .error fault)
    (failed' : v.type.isStorable = true →
      ∃ fault', v.assigned table (.compound bin) w = .error fault') (image : Image) :
    (v.stepBy table op).BothFail (v.assign table (.compound bin) w) image := by
  unfold Store.BothFail
  cases place : v.address with
  | none =>
    simp only [stepBy, assign, place]
    exact ⟨_, _, rfl, rfl⟩
  | some address =>
    by_cases storable : v.type.isStorable = true
    · obtain ⟨fault', computed⟩ := failed' storable
      simp only [stepBy, assign, place, failed, if_pos storable, computed]
      exact ⟨_, _, rfl, rfl⟩
    · simp only [stepBy, assign, place, failed, if_neg storable]
      exact ⟨_, _, rfl, rfl⟩

/-- With values of the type of the operand, a step and an assignment succeed together and yield
these, or fail together and leave the image as it was. -/
theorem step_cases (new : yieldsNew op = true) (storable : v.type.isStorable = true)
    (stepped : v.stepped table op = .ok r) (type : r.type = v.type)
    (assigned : v.assigned table (.compound bin) w = .ok (r', r')) (type' : r'.type = v.type)
    (image : Image) :
    (∃ image₁ image₂, v.stepBy table op image = .ok r image₁ ∧
        v.assign table (.compound bin) w image = .ok r' image₂ ∧ (r = r' → image₁ = image₂)) ∨
      (v.stepBy table op).BothFail (v.assign table (.compound bin) w) image := by
  cases place : v.address with
  | none =>
    right
    simp only [Store.BothFail, stepBy, assign, place]
    exact ⟨_, _, rfl, rfl⟩
  | some address =>
    rw [stepBy_eq_keep place new stepped, assign_eq_keep place storable assigned]
    exact keep_cases address image (type ▸ storable) (type'.trans type.symm)

/-- Equal values make a step and an assignment end alike. -/
theorem endAlike_of_ok (new : yieldsNew op = true) (storable : v.type.isStorable = true)
    (stepped : v.stepped table op = .ok r) (type : r.type = v.type)
    (assigned : v.assigned table (.compound bin) w = .ok (r, r)) (image : Image) :
    (v.stepBy table op).EndAlike (v.assign table (.compound bin) w) image := by
  obtain ⟨image₁, image₂, first, second, same⟩ | failed :=
    step_cases new storable stepped type assigned type image
  · obtain rfl := same rfl
    exact .inl ⟨r, image₁, first, second⟩
  · exact .inr failed

/-! ## Steps -/

theorem stepped_eq {type : CType} (typed : CType.unary op v.type = .ok type)
    (sized : v.stepSize table = .ok s) :
    v.stepped table op =
      .ok (rvalue (v.number.add ((Binary64.ofInt (direction op)).mul (.ofNat s))) type) := by
  simp only [stepped, typed, sized, direction, bind, Except.bind, pure, Except.pure]

/-- A step adds the size of an element to a whole number or subtracts it. -/
theorem stepped_of_isWhole {type : CType} (typed : CType.unary op v.type = .ok type)
    (sized : v.stepSize table = .ok s) (small : s < wordRange) (whole : v.number.IsWhole n)
    (lower : -2147483648 ≤ n) (upper : n ≤ 4294967295) (sign : stepsUp op = true ∨ s ≠ 0) :
    v.stepped table op = .ok (rvalue (.ofInt (n + direction op * s)) type) := by
  have power : twoPow 53 = 9007199254740992 := rfl
  simp only [wordRange] at small
  have moved : (Binary64.ofInt (direction op)).mul (.ofNat s) = .ofInt (direction op * s) := by
    cases up : stepsUp op with
    | true =>
      simp only [direction, up, if_true]
      rw [one_mul_ofNat (by omega), Int.one_mul]
      rfl
    | false =>
      have nonzero : s ≠ 0 := by simpa [up] using sign
      simp only [direction, up, Bool.false_eq_true, if_false]
      rw [minus_one_mul_ofNat (by omega), neg_ofNat (by omega) nonzero, Int.neg_mul, Int.one_mul]
  have bounds : -s ≤ direction op * s ∧ direction op * s ≤ s := by
    cases up : stepsUp op <;> simp [direction, up]
  rw [stepped_eq typed sized, moved, whole.add_ofInt (by omega) (by omega)]

/-! ## Assignments of one -/

theorem type_one : one.type = .char := by
  decide +kernel

theorem one_integer : one.Integer 1 := by
  have char := type_one
  rw [one, literal, type_rvalue] at char
  rw [one, literal, char]
  exact integer_char (by decide) (by decide)

/-- A result is stored as it is by an assignment to its own type. -/
theorem castTo_self (x : Binary64) (type : CType) :
    (rvalue x type).castTo type false = rvalue x type := by
  have same : carried (type.fit x) type type = type.fit x := by
    simp only [carried, CType.same_self, Bool.true_or, if_true]
  simp only [castTo, rvalue, same, (type.holds_fit x).fit_eq, Bool.false_eq_true, if_false]

/-- A value of a type that converts to itself need not be converted. -/
theorem implicit_self {type : CType} (converts : type.convertsTo type = true)
    (x : Binary64) : (rvalue x type).implicit type = .ok (rvalue x type) := by
  rw [implicit, type_rvalue, converts, Bool.true_or, if_pos rfl, castTo_self]

theorem castTo_char (lower : -2147483648 ≤ n) (upper : n ≤ 2147483647) :
    (rvalue (.ofInt n) .int).castTo .char false = rvalue (.ofInt n) .char := by
  have power : twoPow 53 = 9007199254740992 := rfl
  have whole : (Binary64.ofInt n).IsWhole n := isWhole_ofInt (by omega)
  have held : CType.int.Holds (.ofInt n) := ⟨n, lower, upper, whole⟩
  have carry : CType.char.fit (carried (.ofInt n) .int .char) = CType.char.fit (.ofInt n) :=
    fit_carried whole rfl .char
  simp only [castTo, rvalue, held.fit_eq, carry, Bool.false_eq_true, if_false]

theorem assigned_eq {x : Binary64} {type : CType}
    (computed : binary table bin v w = .ok (rvalue x type))
    (casts : type.castsTo v.type = true) (kept : (rvalue x type).castTo v.type false = r) :
    v.assigned table (.compound bin) w = .ok (r, r) := by
  simp only [assigned, computed, bind, Except.bind, pure, Except.pure, type_rvalue, casts, kept,
    if_true]

/-- Adding or subtracting one moves an integer, before it is converted back to its type. -/
theorem Integer.binary_one_eq (h : v.Integer n) (table : StructTable) (op : UnaryOp) :
    binary table (stepOperator op) v one = .ok (rvalue (.ofInt (n + direction op)) .int) := by
  cases up : stepsUp op with
  | true =>
    simp only [stepOperator, direction, up, if_true]
    exact h.plus_eq one_integer
  | false =>
    simp only [stepOperator, direction, up, Bool.false_eq_true, if_false]
    exact h.minus_eq one_integer

/-- It moves a pointer by one element, which must have a size on the way down. -/
theorem Points.binary_one_eq (h : p.Points table a s) (small : s < wordRange)
    (sign : stepsUp op = true ∨ s ≠ 0) :
    binary table (stepOperator op) p one =
      .ok (rvalue (.ofInt (a + direction op * s)) p.type.decay) := by
  have inSpace := h.inSpace
  simp only [wordRange] at inSpace small
  have offset : FitsLong (1 * s) := by
    simp only [FitsLong, longTop]
    omega
  cases up : stepsUp op with
  | true =>
    have sum : FitsLong (a + 1 * s) := by
      simp only [FitsLong, longTop]
      omega
    simp only [stepOperator, direction, up, if_true]
    exact (h.plus_eq one_integer offset sum).1
  | false =>
    have positive : s ≠ 0 := by simpa [up] using sign
    have unit : max s 1 = s := Nat.max_eq_left (Nat.one_le_iff_ne_zero.mpr positive)
    have difference : FitsLong (a - 1 * s) := by
      simp only [FitsLong, longTop]
      omega
    have moved := h.minus_eq one_integer (by rwa [unit]) (by rwa [unit])
    rw [unit, Int.sub_eq_add_neg, ← Int.neg_mul] at moved
    simp only [stepOperator, direction, up, Bool.false_eq_true, if_false]
    exact moved

/-- Without a pointer, a sum combines the numbers of the operands. -/
theorem plus_eq_combine {type : CType} (table : StructTable) (plain : v.type.isPointerLike = false)
    (plain' : w.type.isPointerLike = false) (typed : CType.binary .add v.type w.type = .ok type) :
    v.plus table w = .ok (v.combine w type (· + ·) Binary64.add) := by
  simp only [plus, typed, plain, plain', bind, Except.bind, pure, Except.pure, Bool.false_eq_true,
    if_false]

/-- So does a difference. -/
theorem minus_eq_combine {type : CType} (table : StructTable) (plain : v.type.isPointerLike = false)
    (typed : CType.binary .sub v.type w.type = .ok type) :
    v.minus table w = .ok (v.combine w type (· - ·) Binary64.sub) := by
  simp only [minus, typed, plain, bind, Except.bind, pure, Except.pure, Bool.false_eq_true,
    if_false]

/-- It adds the number that a step adds to a `float`. -/
theorem binary_one_of_float (float : v.type = .float) (table : StructTable) (op : UnaryOp) :
    binary table (stepOperator op) v one =
      .ok (rvalue (v.number.add ((Binary64.ofInt (direction op)).mul (.ofNat 1))) .float) := by
  have number : one.number = .ofNat 1 := by decide +kernel
  have plain : v.type.isPointerLike = false := by
    rw [float]
    rfl
  have plain' : one.type.isPointerLike = false := by
    rw [type_one]
    rfl
  have isFloat : CType.float.isFloat = true := rfl
  cases up : stepsUp op with
  | true =>
    have typed : CType.binary .add v.type one.type = .ok .float := by
      rw [float, type_one]
      rfl
    simp only [stepOperator, direction, up, binary, plus_eq_combine table plain plain' typed,
      combine, number, isFloat, if_true]
    rw [one_mul_ofNat (by decide)]
  | false =>
    have typed : CType.binary .sub v.type one.type = .ok .float := by
      rw [float, type_one]
      rfl
    simp only [stepOperator, direction, up, binary, minus_eq_combine table plain typed, combine,
      number, isFloat, Bool.false_eq_true, if_false, if_true]
    rw [minus_one_mul_ofNat (by decide), ofNat_of_small (by decide)]
    rfl

/-- It fails for a pointer to what has no size. -/
theorem binary_one_of_error {target : CType} {fault : Fault} (type : v.type = .pointer target)
    (unsized : v.stepSize table = .error fault) (op : UnaryOp) :
    binary table (stepOperator op) v one = .error fault := by
  have pointer : (CType.pointer target).isPointerLike = true := rfl
  cases up : stepsUp op with
  | true =>
    have typed : CType.binary .add (.pointer target) .char = .ok (.pointer target) := rfl
    simp only [stepOperator, up, binary, plus, type, type_one, typed, pointer, unsized, bind,
      Except.bind, if_true]
  | false =>
    have typed : CType.binary .sub (.pointer target) .char = .ok (.pointer target) := rfl
    simp only [stepOperator, up, binary, minus, type, type_one, typed, pointer, unsized, bind,
      Except.bind, Bool.false_eq_true, if_false, if_true]

/-! ## Both directions -/

section

variable (step : op = .preInc ∨ op = .preDec)
include step

theorem yieldsNew_step : yieldsNew op = true := by
  obtain rfl | rfl := step <;> rfl

/-- Steps apply to what can be stored, and keep its type. -/
theorem unary_step (type : CType) :
    CType.unary op type =
      if type.isStorable then .ok type else .error (.type (.invalidUnaryOperand op type)) := by
  obtain rfl | rfl := step <;> cases type <;> rfl

theorem both_fail_unless_storable (refused : ¬ v.type.isStorable = true) (image : Image) :
    (v.stepBy table op).BothFail (v.assign table (.compound bin) w) image := by
  have typed := unary_step step v.type
  rw [if_neg refused] at typed
  have failed : v.stepped table op = .error (.type (.invalidUnaryOperand op v.type)) := by
    simp only [stepped, typed, bind, Except.bind]
  exact both_fail failed (fun storable => absurd storable refused) image

theorem endAlike_step_integer (h : v.Integer n) (image : Image) :
    (v.stepBy table op).EndAlike (v.assign table (.compound (stepOperator op)) one) image := by
  have storable : v.type.isStorable = true := by
    obtain type | type := h.typed <;> rw [type] <;> rfl
  have typed : CType.unary op v.type = .ok v.type := by rw [unary_step step, if_pos storable]
  have sized : v.stepSize table = .ok 1 := by
    simp only [stepSize, h.isPointerLike_eq, Bool.false_eq_true, if_false]
  have bounds := h.bounds
  have stepped := stepped_of_isWhole typed sized (by decide) h.isWhole bounds.1 (by omega)
    (.inr Nat.one_ne_zero)
  rw [Int.natCast_one, Int.mul_one] at stepped
  refine endAlike_of_ok (yieldsNew_step step) storable stepped rfl ?_ image
  obtain type | type := h.typed
  · refine assigned_eq (h.binary_one_eq table op) ?_ ?_
    · rw [type]
      rfl
    · rw [type, castTo_self]
  · have held : v.type.Holds v.number := h.ranged
    rw [type] at held
    obtain ⟨n', lower, upper, whole⟩ := held
    obtain rfl := whole.unique h.isWhole
    have near : direction op = 1 ∨ direction op = -1 := by
      obtain rfl | rfl := step
      · exact .inl rfl
      · exact .inr rfl
    refine assigned_eq (h.binary_one_eq table op) ?_ ?_
    · rw [type]
      rfl
    · rw [type, castTo_char (by omega) (by omega)]

theorem endAlike_step_float (float : v.type = .float) (image : Image) :
    (v.stepBy table op).EndAlike (v.assign table (.compound (stepOperator op)) one) image := by
  have storable : v.type.isStorable = true := by
    rw [float]
    rfl
  have typed : CType.unary op v.type = .ok v.type := by rw [unary_step step, if_pos storable]
  have sized : v.stepSize table = .ok 1 := by
    rw [stepSize, float]
    rfl
  refine endAlike_of_ok (yieldsNew_step step) storable (stepped_eq typed sized) rfl ?_ image
  refine assigned_eq (binary_one_of_float float table op) ?_ ?_
  · rw [float]
    rfl
  · rw [float, castTo_self]

theorem endAlike_step_pointer {target : CType} (sound : table.Sound) (ranged : v.InRange)
    (type : v.type = .pointer target) (sign : stepsUp op = true ∨ v.stepSize table ≠ .ok 0)
    (image : Image) :
    (v.stepBy table op).EndAlike (v.assign table (.compound (stepOperator op)) one) image := by
  have storable : v.type.isStorable = true := by
    rw [type]
    rfl
  have typed : CType.unary op v.type = .ok v.type := by rw [unary_step step, if_pos storable]
  have reached : v.type.pointee? = some target := by
    rw [type]
    rfl
  cases size : table.sizeOf target with
  | error fault =>
    have unsized : v.stepSize table = .error fault := by
      simp only [stepSize, type, CType.isPointerLike, CType.pointee, CType.pointee?, size, bind,
        Except.bind, if_true]
    have failed : v.stepped table op = .error fault := by
      simp only [stepped, typed, unsized, bind, Except.bind]
    refine .inr (both_fail failed (fun _ => ⟨fault, ?_⟩) image)
    have computed : binary table (stepOperator op) v one = .error fault :=
      binary_one_of_error type unsized op
    simp only [assigned, computed, bind, Except.bind]
  | ok s =>
    have points := points_of_inRange ranged reached size
    have small := sound.sizeOf_lt size
    have inSpace := points.inSpace
    simp only [wordRange] at inSpace
    have sign : stepsUp op = true ∨ s ≠ 0 := by
      rw [points.stepSize_eq] at sign
      exact sign.imp_right fun counts zero => counts (congrArg Except.ok zero)
    have stepped := stepped_of_isWhole typed points.stepSize_eq small points.isWhole (by omega)
      (by omega) sign
    have decay : v.type.decay = v.type := by
      rw [type]
      rfl
    have assigned := points.binary_one_eq small sign
    rw [decay] at assigned
    refine endAlike_of_ok (yieldsNew_step step) storable stepped rfl ?_ image
    refine assigned_eq assigned ?_ (castTo_self ..)
    rw [type, CType.castsTo_pointer]

end

/-- A step is an assignment of one, up in any case, and down unless it counts in elements without
size. -/
theorem endAlike_step (sound : table.Sound) (ranged : v.InRange)
    (step : op = .preInc ∨ op = .preDec)
    (sign : stepsUp op = true ∨ v.stepSize table ≠ .ok 0) (image : Image) :
    (v.stepBy table op).EndAlike (v.assign table (.compound (stepOperator op)) one) image := by
  cases type : v.type with
  | int =>
    obtain ⟨n, integer⟩ := exists_integer (.inl type) ranged
    exact endAlike_step_integer step integer image
  | char =>
    obtain ⟨n, integer⟩ := exists_integer (.inr type) ranged
    exact endAlike_step_integer step integer image
  | float => exact endAlike_step_float step type image
  | pointer target => exact endAlike_step_pointer step sound ranged type sign image
  | void | function | array _ _ | struct _ =>
    have refused : ¬ v.type.isStorable = true := by
      rw [type]
      exact Bool.false_ne_true
    exact .inr (both_fail_unless_storable step refused image)

/-! ## Elements without size -/

section

variable {target : CType} (h : p.Points table a 0) (type : p.type = .pointer target)
include h type

/-- One step down over an element without size leads nowhere. -/
theorem stepped_down_of_empty (ranged : p.InRange) :
    p.stepped table .preDec = .ok p.toRvalue := by
  have power : twoPow 53 = 9007199254740992 := rfl
  have inSpace := h.inSpace
  simp only [wordRange] at inSpace
  have held : p.type.Holds p.number := ranged
  have typed : CType.unary .preDec p.type = .ok p.type := by
    rw [type]
    rfl
  have down : (Binary64.ofInt (direction .preDec)).mul (.ofNat 0) = .finite true 0 :=
    minus_one_mul_ofNat (by decide)
  rw [stepped_eq typed h.stepSize_eq, down, h.isWhole.add_negative_zero (by omega), rvalue,
    held.fit_eq]
  rfl

/-- The difference leads to the byte before. -/
theorem assigned_minus_one_of_empty :
    p.assigned table (.compound .sub) one =
      .ok (rvalue (.ofInt (a - 1)) p.type, rvalue (.ofInt (a - 1)) p.type) := by
  have moved : binary table .sub p one = .ok (rvalue (.ofInt (a - 1)) p.type) := by
    have inSpace := h.inSpace
    simp only [wordRange] at inSpace
    have fits : FitsLong (a - 1 * (max 0 1 : Nat)) := by
      simp only [FitsLong, longTop]
      omega
    have difference := h.minus_eq one_integer (by decide) fits
    rw [type] at difference ⊢
    exact difference
  have casts : p.type.castsTo p.type = true := by rw [type, CType.castsTo_pointer]
  exact assigned_eq moved casts (castTo_self ..)

/-- Below the address zero comes the last one. -/
theorem toAddress_minus_one :
    ((rvalue (.ofInt (a - 1)) p.type).toAddress : Int) = ((a : Int) - 1) % wordRange := by
  have power : twoPow 53 = 9007199254740992 := rfl
  have inSpace := h.inSpace
  simp only [wordRange] at inSpace
  have reached : p.type.pointee? = some target := by
    rw [type]
    rfl
  exact toAddress_rvalue reached (isWhole_ofInt (by omega))

/-- So the pointer stays in place in one way, and comes to the byte before in the other. -/
theorem step_down_cases_of_empty (ranged : p.InRange) (image : Image) :
    (p.stepBy table .preDec).BothFail (p.assign table (.compound .sub) one) image ∨
      ∃ r image₁ image₂, p.stepBy table .preDec image = .ok p.toRvalue image₁ ∧
        p.assign table (.compound .sub) one image = .ok r image₂ ∧ r.type = p.type ∧
        (r.toAddress : Int) = ((a : Int) - 1) % wordRange := by
  have storable : p.type.isStorable = true := by
    rw [type]
    rfl
  have stepped := stepped_down_of_empty h type ranged
  have assigned := assigned_minus_one_of_empty h type
  obtain ⟨image₁, image₂, first, second, -⟩ | failed :=
    step_cases rfl storable stepped rfl assigned rfl image
  · exact .inr ⟨_, image₁, image₂, first, second, rfl, toAddress_minus_one h type⟩
  · exact .inl failed

end

/-- **Steps are assignments of one, but for elements without size.**  Whatever structs are defined:
for any value in the range of its type, a step up and the addition of one end alike; so do a step
down and the subtraction of one, unless the value points at elements without size.  Of these a step
down leaves the pointer in place, while the subtraction moves it down by one byte. -/
theorem steps_are_assignments_of_one (steps : List StructStep) (ranged : v.InRange)
    (image : Image) :
    let table := StructTable.empty.afterAll steps
    (v.stepBy table .preInc).EndAlike (v.assign table (.compound .add) one) image ∧
      (v.stepSize table ≠ .ok 0 →
        (v.stepBy table .preDec).EndAlike (v.assign table (.compound .sub) one) image) ∧
      (v.stepSize table = .ok 0 →
        (v.stepBy table .preDec).BothFail (v.assign table (.compound .sub) one) image ∨
        ∃ r image₁ image₂, v.stepBy table .preDec image = .ok v.toRvalue image₁ ∧
          v.assign table (.compound .sub) one image = .ok r image₂ ∧ r.type = v.type ∧
          (r.toAddress : Int) = ((v.toAddress : Int) - 1) % wordRange) := by
  intro table
  have sound : table.Sound := StructTable.sound_empty.afterAll steps
  refine ⟨?_, ?_, ?_⟩
  · exact endAlike_step sound ranged (.inl rfl) (.inl rfl) image
  · intro counts
    exact endAlike_step sound ranged (.inr rfl) (.inr counts) image
  · intro empty
    cases type : v.type with
    | pointer target =>
      have reached : v.type.pointee? = some target := by
        rw [type]
        rfl
      have sized : table.sizeOf target = .ok 0 := by
        rw [stepSize, type] at empty
        exact empty
      rw [← type]
      exact step_down_cases_of_empty (points_of_inRange ranged reached sized) type ranged image
    | array _ _ =>
      have refused : ¬ v.type.isStorable = true := by
        rw [type]
        exact Bool.false_ne_true
      exact .inl (both_fail_unless_storable (.inr rfl) refused image)
    | int | float | char | void | function | struct _ =>
      rw [stepSize, type] at empty
      cases empty

/-- The least `char` wraps around in both ways alike; a pointer to structs without fields does not
move in one of them, and moves by one byte in the other. -/
theorem stepped_down_char_and_pointer :
    let table := StructTable.empty.afterAll [.declareDefined "Empty" []]
    let image := Image.blank ⟨4, 16, 64, .reclaim⟩
    let c := lvalue (.ofInt (-128)) .char 40
    let p := lvalue (.ofInt 100) (.pointer (.struct ⟨0, "Empty"⟩)) 44
    c.InRange ∧ c.stepSize table ≠ .ok 0 ∧ p.InRange ∧ p.stepSize table = .ok 0 ∧
      (c.stepBy table .preDec).EndAlike (c.assign table (.compound .sub) one) image ∧
      ∃ r image₁ image₂, p.stepBy table .preDec image = .ok p.toRvalue image₁ ∧
        p.assign table (.compound .sub) one image = .ok r image₂ ∧
        (r.toAddress : Int) = ((p.toAddress : Int) - 1) % wordRange := by
  intro table image c p
  have counts : c.stepSize table ≠ .ok 0 := nofun
  have empty : p.stepSize table = .ok 0 := rfl
  have ranged : c.InRange := inRange_lvalue ..
  have ranged' : p.InRange := inRange_lvalue ..
  obtain ⟨-, alike, -⟩ :=
    steps_are_assignments_of_one [.declareDefined "Empty" []] ranged image
  obtain ⟨-, -, apart⟩ :=
    steps_are_assignments_of_one [.declareDefined "Empty" []] ranged' image
  refine ⟨ranged, counts, ranged', empty, alike counts, ?_⟩
  obtain ⟨fault, -, failed, -⟩ | ⟨r, image₁, image₂, first, second, -, address⟩ := apart empty
  · have failed : p.stepBy table .preDec image = .error fault image := failed
    have writable : (match p.stepBy table .preDec image with
        | .ok _ _ => true
        | .error _ _ => false) = true := by
      decide +kernel
    rw [failed] at writable
    cases writable
  · exact ⟨r, image₁, image₂, first, second, address⟩

/-- So the two do not end alike for every value: not for a pointer to structs without fields. -/
theorem empty_elements_step_down_in_place :
    let table := StructTable.empty.afterAll [.declareDefined "Empty" []]
    let p := lvalue (.ofInt 100) (.pointer (.struct ⟨0, "Empty"⟩)) 44
    let image := Image.blank ⟨4, 16, 64, .reclaim⟩
    ¬ (p.stepBy table .preDec).EndAlike (p.assign table (.compound .sub) one) image := by
  intro table p image
  have answers : (match p.stepBy table .preDec image, p.assign table (.compound .sub) one image with
      | .ok r _, .ok r' _ => decide (r.toAddress = 100 ∧ r'.toAddress = 99)
      | _, _ => false) = true := by
    decide +kernel
  rintro (⟨r, image', first, second⟩ | ⟨fault, fault', first, -⟩)
  · rw [first, second] at answers
    have places : r.toAddress = 100 ∧ r.toAddress = 99 := of_decide_eq_true answers
    omega
  · rw [first] at answers
    cases answers

end Value

end FlatC

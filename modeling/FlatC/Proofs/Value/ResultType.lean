import FlatC.Eval.Expression
import FlatC.Proofs.Refine

/-!
# Types of the results of operators

The value of an operation has the type that the rules for types give it, whatever its operands are:
conversions, null constants and places in memory decide only whether there is a value.  A text
literal has two types, as an array and as a pointer; operators take it for the pointer that the
array decays to.

* `CType.binary?_decay` says that operators see arrays as the pointers they decay to;
* `Value.type_binary`, `Value.type_unary` and the like give the types of results;
* `Value.Stands` is how a value and a static type may differ, and its lemmas say that no operator
  makes use of the difference.
-/

namespace FlatC

/-! ## Steps that answer -/

section Answers

variable {α : Type} {a : α}

theorem Store.of_eq_ok {result : Except Fault α} {image image' : Image}
    (h : Store.of result image = .ok a image') : result = .ok a := by
  unfold Store.of at h
  split at h <;> cases h
  rfl

/-- A question leaves the image as it is. -/
theorem Image.query_done {question : Image → Except Fault α} {image image' : Image}
    (h : query question image = .ok a image') : image' = image ∧ question image = .ok a := by
  unfold query at h
  split at h <;> cases h
  exact ⟨rfl, ‹_›⟩

theorem Image.query_eq_ok {question : Image → Except Fault α} {image image' : Image}
    (h : query question image = .ok a image') : question image = .ok a :=
  (query_done h).2

theorem Exec.of_eq_ok {result : Except Fault α} {machine machine' : Machine}
    (h : Exec.of result machine = .ok a machine') : result = .ok a := by
  unfold Exec.of at h
  split at h <;> cases h
  rfl

theorem Exec.ask_eq_ok {question : Machine → Except Fault α} {machine machine' : Machine}
    (h : ask question machine = .ok a machine') : question machine = .ok a := by
  unfold ask at h
  split at h <;> cases h
  assumption

/-- A step on memory leaves everything else as it is. -/
theorem Exec.onImage_done {step : Store α} {machine machine' : Machine}
    (h : onImage step machine = .ok a machine') :
    ∃ image, step machine.image = .ok a image ∧ machine' = { machine with image := image } := by
  cases ended : step machine.image with
  | ok answer image =>
    rw [onImage_of_ok ended] at h
    cases h
    exact ⟨image, rfl, rfl⟩
  | error fault image =>
    rw [onImage_of_error ended] at h
    cases h

theorem Exec.onImage_failed {step : Store α} {machine machine' : Machine} {fault : Fault}
    (h : onImage step machine = .error fault machine') :
    ∃ image, step machine.image = .error fault image ∧
      machine' = { machine with image := image } := by
  cases ended : step machine.image with
  | ok answer image =>
    rw [onImage_of_ok ended] at h
    cases h
  | error fault image =>
    rw [onImage_of_error ended] at h
    cases h
    exact ⟨image, rfl, rfl⟩

theorem Exec.onImage_eq_ok {step : Store α} {machine machine' : Machine}
    (h : onImage step machine = .ok a machine') : ∃ image, step machine.image = .ok a image := by
  obtain ⟨image, found, -⟩ := onImage_done h
  exact ⟨image, found⟩

theorem Exec.yields_onImage {P : α → Prop} {step : Store α} (h : Step.Yields P step) :
    Step.Yields P (onImage step) := by
  intro machine a machine' found
  obtain ⟨image, found⟩ := onImage_eq_ok found
  exact h _ _ _ found

end Answers

/-! ## Operators and decay -/

namespace CType

/-- What does not tell pointers from arrays is not changed by decay. -/
theorem view_decay {β : Type} (view : CType → β)
    (h : ∀ target element dims, view (.pointer target) = view (.array element dims)) (t : CType) :
    view t.decay = view t := by
  cases t with
  | array element dims => rcases dims with _ | ⟨_, _ | _⟩ <;> exact h _ _ _
  | _ => rfl

theorem decay_decay (t : CType) : t.decay.decay = t.decay := by
  cases t with
  | array element dims => rcases dims with _ | ⟨_, _ | _⟩ <;> rfl
  | _ => rfl

/-- Binary operators see an array as the pointer it decays to. -/
theorem binary?_decay (op : BinaryOp) (s t : CType) :
    binary? op s.decay t.decay = binary? op s t := by
  have arithmetic := view_decay isArithmetic fun _ _ _ => rfl
  have float := view_decay isFloat fun _ _ _ => rfl
  have isWhole := view_decay isWhole fun _ _ _ => rfl
  have pointerLike := view_decay isPointerLike fun _ _ _ => rfl
  have scalar := view_decay isScalar fun _ _ _ => rfl
  simp only [binary?, pointerBinary?, arithmeticBinary?, decay_decay, arithmetic, float, isWhole,
    pointerLike, scalar]

theorem binary_eq_ok {op : BinaryOp} {s t r : CType} :
    binary op s t = .ok r ↔ binary? op s t = some r := by
  unfold binary
  cases binary? op s t <;> simp

/-- Comparisons and logical operators yield an `int`. -/
theorem binary_int {op : BinaryOp} {s t r : CType} (test : op.isRelational || op.isLogical)
    (h : binary op s t = .ok r) : r = .int := by
  have found := binary_eq_ok.mp h
  simp only [binary?, arithmeticBinary?, if_pos test, pointerBinary?] at found
  cases op <;> simp [BinaryOp.isRelational, BinaryOp.isLogical] at test <;> grind

end CType

/-! ## Conversions -/

/-- A value that converts is cast. -/
theorem Value.eq_castTo_of_implicit {v r : Value} {target : CType}
    (h : v.implicit target = .ok r) : r = v.castTo target false := by
  unfold implicit at h
  split at h <;> cases h
  rfl

/-- The value is a number fitted to the type. -/
def Value.IsRvalue (type : CType) (v : Value) : Prop :=
  ∃ x, v = rvalue x type

namespace Value.IsRvalue

variable {type : CType} {v : Value}

theorem type_eq (h : v.IsRvalue type) : v.type = type := by
  obtain ⟨x, rfl⟩ := h
  rfl

/-- It names no place in memory. -/
theorem address_eq (h : v.IsRvalue type) : v.address = none := by
  obtain ⟨x, rfl⟩ := h
  rfl

end Value.IsRvalue

theorem Value.isRvalue_implicit {v r : Value} {target : CType} (h : v.implicit target = .ok r) :
    r.IsRvalue target := by
  rw [Value.eq_castTo_of_implicit h]
  exact ⟨_, rfl⟩

theorem Value.type_implicit {v r : Value} {target : CType} (h : v.implicit target = .ok r) :
    r.type = target :=
  (Value.isRvalue_implicit h).type_eq

/-- Arguments are converted one by one. -/
theorem convertAll_cons {function : String} {index : Nat} {type : CType} {types : List CType}
    {argument : Value} {arguments values : List Value}
    (h : convertAll function index (type :: types) (argument :: arguments) = .ok values) :
    ∃ value others, argument.implicit type = .ok value ∧
      convertAll function (index + 1) types arguments = .ok others ∧ values = value :: others := by
  rw [convertAll] at h
  cases conversion : argument.implicit type with
  | error fault =>
    rw [conversion] at h
    cases h
  | ok value =>
    simp only [conversion, pure_bind] at h
    obtain ⟨others, rest, h⟩ := bind_eq_ok.mp h
    cases h
    exact ⟨value, others, rfl, rest, rfl⟩

/-! ## Types of results -/

namespace Value

variable {table : StructTable} {v w r : Value}

theorem type_plus (h : v.plus table w = .ok r) :
    CType.binary .add v.type w.type = .ok r.type := by
  obtain ⟨type, typed, h⟩ := bind_eq_ok.mp h
  split at h
  · obtain ⟨step, -, h⟩ := bind_eq_ok.mp h
    obtain ⟨sum, -, h⟩ := bind_eq_ok.mp h
    cases h
    exact typed
  · split at h
    · obtain ⟨step, -, h⟩ := bind_eq_ok.mp h
      obtain ⟨sum, -, h⟩ := bind_eq_ok.mp h
      cases h
      exact typed
    · cases h
      exact typed

theorem type_minus (h : v.minus table w = .ok r) :
    CType.binary .sub v.type w.type = .ok r.type := by
  obtain ⟨type, typed, h⟩ := bind_eq_ok.mp h
  split at h
  · obtain ⟨step, -, h⟩ := bind_eq_ok.mp h
    split at h
    · cases h
      exact typed
    · obtain ⟨difference, -, h⟩ := bind_eq_ok.mp h
      cases h
      exact typed
  · cases h
    exact typed

theorem type_dividedBy (h : v.dividedBy w = .ok r) :
    CType.binary .div v.type w.type = .ok r.type := by
  unfold dividedBy at h
  split at h
  · obtain ⟨type, typed, h⟩ := bind_eq_ok.mp h
    cases h
    exact typed
  · cases h

theorem type_remainder (h : v.remainder w = .ok r) :
    CType.binary .mod v.type w.type = .ok r.type := by
  unfold remainder at h
  split at h
  · obtain ⟨type, typed, h⟩ := bind_eq_ok.mp h
    cases h
    exact typed
  · cases h

theorem type_compare {op : BinaryOp} (test : op.isRelational) (h : compare op v w = .ok r) :
    CType.binary op v.type w.type = .ok r.type := by
  obtain ⟨type, typed, h⟩ := bind_eq_ok.mp h
  have int : type = .int := CType.binary_int (by simp [test]) typed
  by_cases mixed : v.mixesPointer w = true
  · simp only [if_pos mixed] at h
    cases h
  · simp only [if_neg mixed] at h
    split at h
    · cases h
      rw [typed, int]
      rfl
    · cases h

theorem type_logical {op : BinaryOp} (test : op.isLogical) (h : logical op v w = .ok r) :
    CType.binary op v.type w.type = .ok r.type := by
  obtain ⟨type, typed, h⟩ := bind_eq_ok.mp h
  have int : type = .int := CType.binary_int (by simp [test]) typed
  cases h
  rw [typed, int]
  rfl

/-- The value of a binary operation has the type that the types of its operands give. -/
theorem type_binary {op : BinaryOp} (h : binary table op v w = .ok r) :
    CType.binary op v.type w.type = .ok r.type := by
  cases op
  case add => exact type_plus h
  case sub => exact type_minus h
  case div => exact type_dividedBy h
  case mod => exact type_remainder h
  case eq | ne | lt | le | gt | ge => exact type_compare rfl h
  case and | or => exact type_logical rfl h
  case mul | bitAnd | bitOr | bitXor | shiftLeft | shiftRight =>
    obtain ⟨type, typed, h⟩ := bind_eq_ok.mp h
    cases h
    exact typed

end Value

/-- What is read as a value of a type is one. -/
theorem Image.type_read {table : StructTable} {image : Image} {address : Nat} {type : CType}
    {v : Value} (h : image.read table address type = .ok v) : v.type = type := by
  cases type with
  | void | function => cases h
  | array _ _ | struct _ =>
    obtain ⟨size, -, h⟩ := bind_eq_ok.mp h
    obtain ⟨-, -, h⟩ := bind_eq_ok.mp h
    cases h
    rfl
  | int | float | char | pointer _ =>
    obtain ⟨word, -, h⟩ := bind_eq_ok.mp h
    rw [← Except.ok.inj h]
    exact Value.type_lvalue _ _ _

namespace Value

variable {table : StructTable} {v w r : Value}

theorem type_deref {image : Image} (h : v.deref table image = .ok r) :
    v.type.dereferenced = .ok r.type := by
  obtain ⟨type, typed, h⟩ := bind_eq_ok.mp h
  rw [typed, Image.type_read h]

theorem type_member {name : String} {image : Image} (h : v.member table name image = .ok r) :
    v.type.fieldType table name = .ok r.type := by
  unfold member at h
  split at h
  · rename_i ref object
    obtain ⟨field, found, h⟩ := bind_eq_ok.mp h
    rw [object, Image.type_read h]
    exact bind_eq_ok.mpr ⟨field, found, rfl⟩
  · cases h

end Value

/-! ## Operands -/

namespace CType

theorem unary?_step {op : UnaryOp} (step : op.isStep) {t r : CType} (h : unary? op t = some r) :
    r = t := by
  cases t <;> cases op <;>
    simp_all [unary?, arithmeticUnary?, UnaryOp.isStep]

theorem unary_eq_ok {op : UnaryOp} {t r : CType} : unary op t = .ok r ↔ unary? op t = some r := by
  unfold unary
  cases unary? op t <;> simp

/-- Only pointers and arrays reach anything. -/
theorem isPointerLike_of_pointee? {t target : CType} (reached : t.pointee? = some target) :
    t.isPointerLike = true := by
  cases t with
  | pointer _ | array _ _ => rfl
  | _ => cases reached

/-- What the operator for dereference reaches is what one dereference reaches. -/
theorem pointee_of_dereferenced {t r : CType} (h : t.dereferenced = .ok r) :
    t.pointee = .ok r := by
  unfold dereferenced at h
  cases t with
  | pointer target => cases target <;> first | exact h | cases h
  | array element dims => exact h
  | _ => cases h

end CType

namespace Value

/-- How a value may stand for a type: it has that type, or it is the pointer of a text literal and
the type is that of its storage. -/
def Stands (v : Value) (t : CType) : Prop :=
  v.type = t ∨ v.type = .charPointer ∧ v.address = none ∧ ∃ size, t = .array .char [size]

variable {v w : Value} {s t r : CType}

/-- What names a place in memory has its static type. -/
theorem Stands.type_eq (h : v.Stands t) (place : v.address ≠ none) : v.type = t := by
  rcases h with same | ⟨-, nowhere, -⟩
  · exact same
  · exact absurd nowhere place

theorem Stands.decay_eq (h : v.Stands t) : v.type.decay = t.decay := by
  rcases h with same | ⟨pointer, -, size, rfl⟩
  · rw [same]
  · rw [pointer]
    rfl

theorem Stands.dereferenced_eq (h : v.Stands t) : v.type.dereferenced = t.dereferenced := by
  rcases h with same | ⟨pointer, -, size, rfl⟩
  · rw [same]
  · rw [pointer]
    rfl

/-- A text literal is no struct. -/
theorem Stands.fieldType (h : v.Stands t) {table : StructTable} {name : String}
    (found : v.type.fieldType table name = .ok r) : t.fieldType table name = .ok r := by
  rcases h with same | ⟨pointer, -, -⟩
  · rwa [← same]
  · rw [pointer] at found
    cases found

/-- Binary operators make no difference between a text literal and its storage. -/
theorem Stands.binary {op : BinaryOp} (left : v.Stands s) (right : w.Stands t)
    (h : CType.binary op v.type w.type = .ok r) : CType.binary op s t = .ok r := by
  rw [CType.binary_eq_ok, ← CType.binary?_decay, left.decay_eq, right.decay_eq,
    CType.binary?_decay] at h
  exact CType.binary_eq_ok.mpr h

/-- Neither do the unary operators, except those that need a place in memory. -/
theorem Stands.unary {op : UnaryOp} (h : v.Stands t)
    (place : op.isStep ∨ op = .addressOf → v.address ≠ none)
    (found : CType.unaryResult op v.type = .ok r) : CType.unaryResult op t = .ok r := by
  rcases h with same | ⟨pointer, nowhere, size, rfl⟩
  · rwa [← same]
  · rw [pointer] at found
    cases op
    case neg | plus | bitNot => cases found
    case not | deref => exact found
    case addressOf => exact absurd nowhere (place (.inr rfl))
    case preInc | preDec | postInc | postDec => exact absurd nowhere (place (.inl rfl))

variable {table : StructTable} {image image' : Image} {u : Value}

theorem type_stepBy {op : UnaryOp} (step : op.isStep)
    (h : v.stepBy table op image = .ok u image') :
    CType.unary op v.type = .ok u.type ∧ v.address ≠ none := by
  unfold stepBy at h
  cases place : v.address with
  | none =>
    rw [place] at h
    cases h
  | some address =>
    rw [place] at h
    refine ⟨?_, nofun⟩
    obtain ⟨updated, image₁, stepped, h⟩ := Step.ok_of_bind h
    obtain ⟨-, image₂, -, h⟩ := Step.ok_of_bind h
    obtain ⟨type, typed, computed⟩ := bind_eq_ok.mp (Store.of_eq_ok stepped)
    obtain ⟨size, -, computed⟩ := bind_eq_ok.mp computed
    have new : updated.type = type := by
      rw [← Except.ok.inj computed]
      exact type_rvalue _ _
    have old : type = v.type := CType.unary?_step step (CType.unary_eq_ok.mp typed)
    have answer : (if yieldsNew op then updated else v.toRvalue) = u := by
      cases h
      rfl
    rw [typed, ← answer]
    split
    · rw [new]
    · rw [old]
      rfl

/-- The value of a unary operation has the type that the type of its operand gives, and operators
that need a place in memory have one. -/
theorem type_unary {op : UnaryOp} (h : v.unary table op image = .ok u image') :
    CType.unaryResult op v.type = .ok u.type ∧
      (op.isStep ∨ op = .addressOf → v.address ≠ none) := by
  cases op
  case deref => exact ⟨type_deref (Image.query_eq_ok h), by simp [UnaryOp.isStep]⟩
  case addressOf =>
    have found := Store.of_eq_ok h
    unfold addressOf at found
    cases place : v.address with
    | none =>
      rw [place] at found
      cases found
    | some address =>
      rw [place] at found
      obtain ⟨type, typed, found⟩ := bind_eq_ok.mp found
      cases found
      exact ⟨typed, nofun⟩
  case preInc | preDec | postInc | postDec =>
    obtain ⟨typed, place⟩ := type_stepBy rfl h
    exact ⟨typed, fun _ => place⟩
  case neg | plus | not | bitNot =>
    obtain ⟨type, typed, found⟩ := bind_eq_ok.mp (Store.of_eq_ok h)
    cases found
    exact ⟨typed, by simp [UnaryOp.isStep]⟩

/-- A compound assignment yields a value of the type of its target, which names a place. -/
theorem type_assign {op : BinaryOp} (h : v.assign table (.compound op) w image = .ok u image') :
    u.type = v.type ∧ v.address ≠ none := by
  unfold assign at h
  cases place : v.address with
  | none =>
    rw [place] at h
    cases h
  | some address =>
    simp only [place] at h
    split at h
    · obtain ⟨⟨stored, yielded⟩, image₁, assigned, h⟩ := Step.ok_of_bind h
      obtain ⟨-, image₂, -, h⟩ := Step.ok_of_bind h
      cases h
      obtain ⟨result, -, found⟩ := bind_eq_ok.mp (Store.of_eq_ok assigned)
      split at found
      · cases found
        exact ⟨rfl, nofun⟩
      · cases found
    · cases h

/-- A plain assignment yields its right operand without its place. -/
theorem eq_of_assign_plain (h : v.assign table .plain w image = .ok u image') :
    u = w.toRvalue := by
  unfold assign at h
  cases place : v.address with
  | none =>
    rw [place] at h
    cases h
  | some address =>
    simp only [place] at h
    split at h
    · obtain ⟨⟨stored, yielded⟩, image₁, assigned, h⟩ := Step.ok_of_bind h
      obtain ⟨-, image₂, -, h⟩ := Step.ok_of_bind h
      obtain ⟨converted, -, found⟩ := bind_eq_ok.mp (Store.of_eq_ok assigned)
      cases found
      cases h
      rfl
    · cases h

theorem isRvalue_cast {type : CType} (h : v.cast type = .ok w) : w.IsRvalue type := by
  unfold cast at h
  split at h
  · cases h
    exact ⟨_, rfl⟩
  · unfold explicit at h
    split at h <;> cases h
    exact ⟨_, rfl⟩

theorem isRvalue_ofSize {type : CType} (h : ofSize table type = .ok v) : v.IsRvalue .int := by
  obtain ⟨size, -, h⟩ := bind_eq_ok.mp h
  cases h
  exact ⟨_, rfl⟩

end Value

end FlatC

import FlatC.Proofs.Eval.StaticType

/-!
# Indexing and arrows as shorthands

An element of an array and a field behind a pointer can also be written with a dereference: `a[i]`
as `*(a + i)` and `a->f` as `(*a).f`.  Evaluation makes no difference between the two.  The size
operator does.  The operator for dereference stops at a pointer to `void` or to a function, behind
which there are no values; the shorthands take the type behind it, whatever it is.  So an element of
a pointer to `void` has the size of `void`, though it can neither be evaluated nor be written with a
dereference.

* `Expr.evalWith_index` and `Expr.evalWith_arrow` evaluate the shorthands;
* `CType.pointee_cases` says where the two ways to take the type behind a pointer differ;
* `shorthands_differ_in_untyped_elements` puts this together, and `untyped_element_has_a_size` has a
  case of the difference.
-/

namespace FlatC

open Step

/-! ## Evaluation -/

/-- One question about memory after another is one question. -/
theorem Exec.onImage_query_bind {α β : Type} (first : Image → Except Fault α)
    (second : α → Image → Except Fault β) :
    (Exec.onImage (Image.query first) >>= fun a => Exec.onImage (Image.query (second a))) =
      Exec.onImage (Image.query fun image => first image >>= fun a => second a image) := by
  funext machine
  cases asked : first machine.image with
  | error fault =>
    have failed : Exec.onImage (Image.query first) machine = .error fault machine := by
      simp only [Exec.onImage, Image.query, asked]
    rw [bind_of_error failed]
    simp only [Exec.onImage, Image.query, asked, bind, Except.bind]
  | ok a =>
    have answered : Exec.onImage (Image.query first) machine = .ok a machine := by
      simp only [Exec.onImage, Image.query, asked]
    rw [bind_of_ok answered]
    simp only [Exec.onImage, Image.query, asked, bind, Except.bind]

/-- A result that does not depend on memory answers a question about it. -/
theorem Exec.of_eq_onImage {α : Type} (result : Except Fault α) :
    Exec.of result = Exec.onImage (Image.query fun _ => result) := by
  funext machine
  cases result <;> rfl

namespace Expr

variable {table : StructTable} {machine : Machine}

theorem evalWith_index (env : Env) (user : UserCall Exec) (array position : Expr) :
    ((Expr.index array position).evalWith env user : Exec Value) =
      (Expr.unary .deref (.binary .add array position)).evalWith env user := by
  have combined (v w : Value) :
      (Exec.of (v.plus env.structs w) >>= fun p =>
        Exec.onImage (Image.query (p.deref env.structs))) =
        Exec.onImage (Image.query (v.elementAt env.structs w)) := by
    rw [Exec.of_eq_onImage, Exec.onImage_query_bind]
    rfl
  have shorthand : ((Expr.index array position).evalWith env user : Exec Value) =
      (array.evalWith env user >>= fun v => position.evalWith env user >>= fun w =>
        Exec.onImage (Image.query (v.elementAt env.structs w))) := rfl
  have spelled : ((Expr.unary .deref (.binary .add array position)).evalWith env user :
      Exec Value) =
      ((array.evalWith env user >>= fun v => position.evalWith env user >>= fun w =>
        Exec.of (v.plus env.structs w)) >>= fun p =>
          Exec.onImage (Image.query (p.deref env.structs))) := rfl
  rw [shorthand, spelled]
  simp only [bind_assoc, combined]

theorem evalWith_arrow (env : Env) (user : UserCall Exec) (pointer : Expr) (field : String) :
    ((Expr.arrow pointer field).evalWith env user : Exec Value) =
      (Expr.member (.unary .deref pointer) field).evalWith env user := by
  have combined (v : Value) :
      (Exec.onImage (Image.query (v.deref env.structs)) >>= fun object =>
        Exec.onImage (Image.query (object.member env.structs field))) =
        Exec.onImage (Image.query (v.arrow env.structs field)) :=
    Exec.onImage_query_bind ..
  have shorthand : ((Expr.arrow pointer field).evalWith env user : Exec Value) =
      (pointer.evalWith env user >>= fun v =>
        Exec.onImage (Image.query (v.arrow env.structs field))) := rfl
  have spelled : ((Expr.member (.unary .deref pointer) field).evalWith env user : Exec Value) =
      ((pointer.evalWith env user >>= fun v =>
        Exec.onImage (Image.query (v.deref env.structs))) >>= fun object =>
          Exec.onImage (Image.query (object.member env.structs field))) := rfl
  rw [shorthand, spelled, bind_assoc]
  simp only [combined]

theorem eval_congr {first second : Expr} {env : Env}
    (same : ∀ user : UserCall Exec, first.evalWith env user = second.evalWith env user) :
    (first.eval env : Exec Value) = second.eval env := by
  unfold eval
  exact congrArg (withCalls env) (funext same)

end Expr

/-! ## Types -/

/-- The type behind a pointer is the one that the operator for dereference reaches, unless it is
`void` or the type of functions. -/
theorem CType.pointee_cases (type : CType) :
    type.pointee = type.dereferenced ∨
      ∃ target, type = .pointer target ∧ (target = .void ∨ target = .function) ∧
        type.pointee = .ok target ∧
        type.dereferenced = .error (.type (.notDereferenceable type)) := by
  cases type with
  | pointer target =>
    cases target with
    | void => exact .inr ⟨.void, rfl, .inl rfl, rfl, rfl⟩
    | function => exact .inr ⟨.function, rfl, .inr rfl, rfl, rfl⟩
    | int | float | char | pointer _ | array _ _ | struct _ => exact .inl rfl
  | int | float | char | void | function | array _ _ | struct _ => exact .inl rfl

namespace Expr

variable {table : StructTable} {machine : Machine}

theorem typeIn_index (array position : Expr) :
    (Expr.index array position).typeIn table machine =
      (Expr.binary .add array position).typeIn table machine >>= CType.pointee := by
  have plain : BinaryOp.add.isLogical = false := rfl
  simp only [typeIn, plain, Bool.false_eq_true, if_false, bind_assoc]

theorem typeIn_deref (operand : Expr) :
    (Expr.unary .deref operand).typeIn table machine =
      operand.typeIn table machine >>= CType.dereferenced :=
  rfl

theorem typeIn_index_cases (table : StructTable) (machine : Machine) (array position : Expr) :
    (Expr.index array position).typeIn table machine =
        (Expr.unary .deref (.binary .add array position)).typeIn table machine ∨
      ∃ target, (Expr.binary .add array position).typeIn table machine = .ok (.pointer target) ∧
        (target = .void ∨ target = .function) ∧
        (Expr.index array position).typeIn table machine = .ok target ∧
        (Expr.unary .deref (.binary .add array position)).typeIn table machine =
          .error (.type (.notDereferenceable (.pointer target))) := by
  rw [typeIn_index, typeIn_deref]
  cases sum : (Expr.binary .add array position).typeIn table machine with
  | error fault => exact .inl rfl
  | ok type =>
    obtain same | ⟨target, rfl, untyped, reached, refused⟩ := type.pointee_cases
    · exact .inl same
    · exact .inr ⟨target, rfl, untyped, reached, refused⟩

/-- A field has a type behind an arrow if it has one behind a dereference. -/
theorem typeIn_arrow_eq_ok {pointer : Expr} {field : String} {type : CType} :
    (Expr.arrow pointer field).typeIn table machine = .ok type ↔
      (Expr.member (.unary .deref pointer) field).typeIn table machine = .ok type := by
  have shorthand : (Expr.arrow pointer field).typeIn table machine =
      pointer.typeIn table machine >>= fun t => t.pointee >>= (·.fieldType table field) := rfl
  have spelled : (Expr.member (.unary .deref pointer) field).typeIn table machine =
      pointer.typeIn table machine >>= CType.dereferenced >>= (·.fieldType table field) := rfl
  rw [shorthand, spelled]
  cases pointer.typeIn table machine with
  | error fault => exact Iff.rfl
  | ok t =>
    obtain same | ⟨target, rfl, untyped, reached, refused⟩ := t.pointee_cases
    · simp only [bind, Except.bind, same]
    · -- neither `void` nor a function has fields
      have none : target.fieldType table field = .error (.type (.notAStruct target)) := by
        obtain rfl | rfl := untyped <;> rfl
      simp only [bind, Except.bind, reached, refused, none, reduceCtorEq]

/-- The size of an expression is that of its static type. -/
theorem eval_sizeofExpr (env : Env) (operand : Expr) (machine : Machine) :
    ((Expr.sizeofExpr operand).eval env : Exec Value) machine =
      Exec.of (operand.typeIn env.structs machine >>= Value.ofSize env.structs) machine := by
  have sized : ((Expr.sizeofExpr operand).eval env : Exec Value) machine =
      (Exec.ask (fun machine => operand.typeIn env.structs machine) >>= fun type =>
        Exec.of (Value.ofSize env.structs type)) machine := rfl
  rw [sized]
  cases typed : operand.typeIn env.structs machine with
  | error fault =>
    have failed : Exec.ask (fun machine => operand.typeIn env.structs machine) machine =
        .error fault machine := by
      simp only [Exec.ask, typed]
    exact bind_of_error failed
  | ok type =>
    have answered : Exec.ask (fun machine => operand.typeIn env.structs machine) machine =
        .ok type machine := by
      simp only [Exec.ask, typed]
    exact bind_of_ok answered

theorem eval_sizeofExpr_eq_ok {env : Env} {operand : Expr} {machine machine' : Machine}
    {v : Value} : ((Expr.sizeofExpr operand).eval env : Exec Value) machine = .ok v machine' ↔
      machine' = machine ∧ ∃ type, operand.typeIn env.structs machine = .ok type ∧
        Value.ofSize env.structs type = .ok v := by
  rw [eval_sizeofExpr, ← bind_eq_ok]
  cases operand.typeIn env.structs machine >>= Value.ofSize env.structs with
  | error fault => simp [Exec.of]
  | ok size => simp [Exec.of, and_comm, eq_comm]

end Expr

/-! ## Together -/

/-- **Indexing and arrows are shorthands, but for the size of untyped elements.**  An index and an
arrow evaluate as the dereferences that they stand for, from every state: to the same value or the
same fault, and with the same state after it.  They have the same static types and sizes, or fail to
have any, with one exception.  Behind a pointer to `void` or to a function an index has the type
that the pointer names, and a dereference has none. -/
theorem shorthands_differ_in_untyped_elements (env : Env) (a i : Expr) (field : String) :
    ((Expr.index a i).eval env : Exec Value) = (Expr.unary .deref (.binary .add a i)).eval env ∧
      ((Expr.arrow a field).eval env : Exec Value) =
        (Expr.member (.unary .deref a) field).eval env ∧
      (∀ machine,
        ((Expr.index a i).typeIn env.structs machine =
            (Expr.unary .deref (.binary .add a i)).typeIn env.structs machine ∧
          ((Expr.sizeofExpr (.index a i)).eval env : Exec Value) machine =
            ((Expr.sizeofExpr (.unary .deref (.binary .add a i))).eval env : Exec Value) machine) ∨
        ∃ target, (Expr.binary .add a i).typeIn env.structs machine = .ok (.pointer target) ∧
          (target = .void ∨ target = .function) ∧
          (Expr.index a i).typeIn env.structs machine = .ok target ∧
          (Expr.unary .deref (.binary .add a i)).typeIn env.structs machine =
            .error (.type (.notDereferenceable (.pointer target)))) ∧
      ∀ machine,
        (∀ type, (Expr.arrow a field).typeIn env.structs machine = .ok type ↔
          (Expr.member (.unary .deref a) field).typeIn env.structs machine = .ok type) ∧
        ∀ v machine',
          ((Expr.sizeofExpr (.arrow a field)).eval env : Exec Value) machine = .ok v machine' ↔
            ((Expr.sizeofExpr (.member (.unary .deref a) field)).eval env : Exec Value) machine =
              .ok v machine' := by
  refine ⟨Expr.eval_congr fun user => Expr.evalWith_index env user a i,
    Expr.eval_congr fun user => Expr.evalWith_arrow env user a field, fun machine => ?_,
    fun machine => ⟨fun _ => Expr.typeIn_arrow_eq_ok, fun v machine' => ?_⟩⟩
  · obtain same | differ := Expr.typeIn_index_cases env.structs machine a i
    · refine .inl ⟨same, ?_⟩
      rw [Expr.eval_sizeofExpr, Expr.eval_sizeofExpr, same]
    · exact .inr differ
  · simp only [Expr.eval_sizeofExpr_eq_ok, Expr.typeIn_arrow_eq_ok]

/-- The element of a null pointer to `void`. -/
def untypedElement : Expr :=
  .index (.cast .voidPointer (.number .zero)) (.number .zero)

/-- The same element with its dereference written out. -/
def untypedDereference : Expr :=
  .unary .deref (.binary .add (.cast .voidPointer (.number .zero)) (.number .zero))

/-- The size operator takes an element of a pointer to `void` and refuses its dereference. -/
theorem untyped_element_has_a_size :
    let env : Env := ⟨.empty, ⟨10, 10⟩⟩
    let machine := Machine.start (Image.blank ⟨16, 32, 16, .reclaim⟩) (Console.start [])
    ((Expr.sizeofExpr untypedElement).eval env : Exec Value) machine = .ok (.ofInt 1) machine ∧
      ((Expr.sizeofExpr untypedDereference).eval env : Exec Value) machine =
        .error (.type (.notDereferenceable .voidPointer)) machine := by
  intro env machine
  have taken : untypedElement.typeIn env.structs machine = .ok .void := by decide +kernel
  have refused : untypedDereference.typeIn env.structs machine =
      .error (.type (.notDereferenceable .voidPointer)) := by decide +kernel
  rw [Expr.eval_sizeofExpr, Expr.eval_sizeofExpr, taken, refused]
  exact ⟨rfl, rfl⟩

end FlatC

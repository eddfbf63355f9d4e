import FlatC.Proofs.Eval.Visible
import FlatC.Proofs.Value.ResultType

/-!
# Static types and evaluation

The size operator gives an expression a type without evaluating it.  Evaluation gives its value a
type of its own, from the values of the operands and after conversions.  The two agree, except for
text literals, plain assignments and choices.

* `yields_callWithin` and `LibraryFunction.yields_call` give the types of the results of calls,
  which name no place;
* `Expr.mirrored` compares the types of an expression and of its value, case by case;
* `static_types_mirror_evaluation` is the agreement of the two.
-/

namespace FlatC

/-! ## Calls -/

open Step

theorem FunctionDef.isRvalue_result {function : FunctionDef} {flow : Flow} {v : Value}
    (h : function.result flow = .ok v) : v.IsRvalue function.returnType := by
  unfold result at h
  split at h
  · rename_i void
    cases h
    rw [void]
    exact ⟨_, rfl⟩
  · exact Value.isRvalue_implicit h
  · cases h
    exact ⟨_, rfl⟩

/-- A call of a function of the program yields a value of its result type. -/
theorem yields_callWithin (env : Env) (left : Nat) (function : FunctionDef)
    (arguments : List Value) :
    Yields (Value.IsRvalue function.returnType)
      (callWithin env left function arguments : Exec Value) := by
  unfold callWithin
  refine yields_bind fun body => yields_bind fun params => ?_
  cases left with
  | zero =>
    intro machine value machine' found
    cases found
  | succ left =>
    refine yields_bind fun line => yields_bind fun flow => yields_bind fun _ => ?_
    exact fun _ _ _ found => FunctionDef.isRvalue_result (Exec.of_eq_ok found)

/-- The values start with one of each of the types, which name no place. -/
def StartWith (types : List CType) (values : List Value) : Prop :=
  ∃ converted others, values = converted ++ others ∧ List.Forall₂ Value.IsRvalue types converted

/-- Converted arguments start with values of the types of the parameters. -/
theorem startWith_convertAll {function : String} {types : List CType} :
    ∀ {index : Nat} {arguments values : List Value}, types.length ≤ arguments.length →
      convertAll function index types arguments = .ok values → StartWith types values := by
  induction types with
  | nil => exact fun {_ _ values} _ _ => ⟨[], values, rfl, .nil⟩
  | cons type types ih =>
    intro index arguments values enough h
    cases arguments with
    | nil => cases enough
    | cons argument arguments =>
      obtain ⟨value, values', fits, rest, rfl⟩ := convertAll_cons h
      obtain ⟨converted, others, rfl, same⟩ := ih (Nat.le_of_succ_le_succ enough) rest
      exact ⟨value :: converted, others, rfl, .cons (Value.isRvalue_implicit fits) same⟩

theorem Image.yields_allocate (size : Int) :
    Yields (Value.IsRvalue .voidPointer) (allocate size) := by
  unfold allocate
  refine yields_unless _ (yields_unless _ ?_)
  exact yields_bind fun block => yields_bind fun _ => yields_bind fun _ => yields_pure ⟨_, rfl⟩

namespace LibraryFunction

theorem startWith_convertArguments {function : LibraryFunction} {arguments values : List Value}
    (h : function.convertArguments arguments = .ok values) : StartWith function.params values := by
  unfold convertArguments at h
  split at h
  · rename_i count
    refine startWith_convertAll ?_ h
    unfold takesCount at count
    split at count
    · exact of_decide_eq_true count
    · exact Nat.le_of_eq (beq_iff_eq.mp count).symm
  · cases h

/-- A library function that finds values for its parameters yields a value of its result type. -/
theorem yields_run {function : LibraryFunction} {values : List Value}
    (h : StartWith function.params values) :
    Yields (Value.IsRvalue function.returnType) (function.run values) := by
  unfold run
  split
  · exact Exec.yields_onImage (Image.yields_allocate _)
  · refine Exec.yields_onImage fun image value image' found => ?_
    obtain ⟨pointer, image₁, allocated, found⟩ := ok_of_bind found
    obtain ⟨-, image₂, -, found⟩ := ok_of_bind found
    cases found
    exact Image.yields_allocate _ _ _ _ allocated
  · split
    · exact yields_bind fun _ => yields_pure ⟨_, rfl⟩
    · exact yields_pure ⟨_, rfl⟩
  · refine yields_bind fun text => yields_bind fun _ => yields_pure ?_
    obtain ⟨converted, others, start, same⟩ := h
    cases same with
    | cons first _ =>
      rw [(List.cons.inj start).1]
      exact first
  · exact yields_bind fun text => yields_pure ⟨_, rfl⟩
  · exact yields_bind fun a => yields_bind fun b => yields_pure ⟨_, rfl⟩
  · exact yields_bind fun format => yields_bind fun text => yields_bind fun _ =>
      yields_pure ⟨_, rfl⟩
  · exact yields_bind fun text => yields_bind fun _ => yields_pure ⟨_, rfl⟩
  · exact yields_bind fun _ => yields_pure ⟨_, rfl⟩
  · exact yields_bind fun text => yields_bind fun stored => yields_pure ⟨_, rfl⟩
  · exact yields_throw _
  · -- too few values for the parameters
    obtain ⟨converted, others, rfl, same⟩ := h
    have count := same.length_eq
    exfalso
    rcases converted with _ | ⟨first, _ | ⟨second, rest⟩⟩ <;> cases function <;> simp_all [params]

theorem yields_call (function : LibraryFunction) (arguments : List Value) :
    Yields (Value.IsRvalue function.returnType) (function.call arguments) := by
  intro machine value machine' h
  obtain ⟨values, middle, converted, h⟩ := ok_of_bind h
  exact yields_run (startWith_convertArguments (Exec.of_eq_ok converted)) _ _ _ h

end LibraryFunction

theorem Callee.yields_callWith (env : Env) (left : Nat) (callee : Callee) (values : List Value) :
    Yields (Value.IsRvalue callee.returnType)
      (callee.callWith (callWithin env left) values : Exec Value) := by
  cases callee with
  | user function => exact yields_callWithin env left function values
  | library function => exact function.yields_call values

/-! ## Expressions -/

theorem Machine.type_valueOf {table : StructTable} {name : String} {machine : Machine} {v : Value}
    (h : machine.valueOf table name = .ok v) : machine.frame.typeOf name = .ok v.type := by
  obtain ⟨resolved, found, h⟩ := bind_eq_ok.mp h
  obtain ⟨binding, bound, found⟩ := bind_eq_ok.mp found
  split at found
  · obtain ⟨value, reading, found⟩ := bind_eq_ok.mp found
    cases found
    cases h
    rw [Image.type_read reading]
    exact bind_eq_ok.mpr ⟨binding, bound, rfl⟩
  · cases found
    cases h

theorem Image.yields_intern (text : List Char) :
    Yields (Value.IsRvalue .charPointer) (intern text) := by
  intro image v image' h
  simp only [intern] at h
  split at h
  · cases h
    exact ⟨_, rfl⟩
  · split at h <;> cases h
    exact ⟨_, rfl⟩

mutual

/-- No plain assignment and no choice stands anywhere in the expression. -/
def Expr.isDirect : Expr → Bool
  | .number _ | .text _ | .var _ | .sizeofType _ => true
  | .unary _ operand | .member operand _ | .arrow operand _ | .cast _ operand
  | .sizeofExpr operand => operand.isDirect
  | .binary _ left right | .index left right => left.isDirect && right.isDirect
  | .assign .plain _ _ | .conditional _ _ _ => false
  | .assign (.compound _) target value => target.isDirect && value.isDirect
  | .call _ arguments => Expr.areDirect arguments

/-- None stands in any of the arguments. -/
def Expr.areDirect : List Expr → Bool
  | [] => true
  | argument :: rest => argument.isDirect && Expr.areDirect rest

end

/-- How the type of an expression describes its value: it is the type of the value, but for a text
literal it is that of the storage behind the pointer. -/
def Expr.Describes (type : CType) (v : Value) : Expr → Prop
  | .text literal => type = .ofText literal ∧ v.type = .charPointer ∧ v.address = none
  | _ => v.type = type

theorem Expr.Describes.stands {expr : Expr} {type : CType} {v : Value}
    (h : expr.Describes type v) : v.Stands type := by
  cases expr with
  | text literal => exact .inr ⟨h.2.1, h.2.2, _, h.1⟩
  | _ => exact .inl h

/-- Evaluation of the expression succeeds only with a value that its type describes. -/
def Expr.Mirrored (env : Env) (left : Nat) (expr : Expr) : Prop :=
  ∀ machine v machine',
    (expr.evalWith env (callWithin env left) : Exec Value) machine = .ok v machine' →
    ∃ type, expr.typeIn env.structs machine = .ok type ∧ expr.Describes type v

namespace Expr

variable {env : Env} {left : Nat}

/-- An operand that comes second still has its type in the state before the first one. -/
theorem Mirrored.second {first second : Expr} (h : second.Mirrored env left)
    {machine middle machine' : Machine} {v w : Value}
    (ran : (first.evalWith env (callWithin env left) : Exec Value) machine = .ok v middle)
    (found : (second.evalWith env (callWithin env left) : Exec Value) middle = .ok w machine') :
    ∃ type, second.typeIn env.structs machine = .ok type ∧ second.Describes type w := by
  obtain ⟨type, typed, describes⟩ := h _ _ _ found
  have visible := keepsVisible_evalWith env left first machine
  rw [ran] at visible
  exact ⟨type, typeIn_of_visible visible typed, describes⟩

theorem mirrored_unary {op : UnaryOp} {operand : Expr} (h : operand.Mirrored env left) :
    (Expr.unary op operand).Mirrored env left := by
  intro machine v machine' found
  obtain ⟨inner, middle, ran, found⟩ := ok_of_bind found
  obtain ⟨image, found⟩ := Exec.onImage_eq_ok found
  obtain ⟨type, typed, describes⟩ := h _ _ _ ran
  obtain ⟨result, place⟩ := Value.type_unary found
  exact ⟨v.type, bind_eq_ok.mpr ⟨type, typed, describes.stands.unary place result⟩, rfl⟩

/-- The logical operators yield an `int`, whichever of their operands they evaluate. -/
theorem yields_logical {op : BinaryOp} (logical : op.isLogical) (first second : Expr)
    (user : UserCall Exec) :
    Yields (Value.IsRvalue .int)
      ((Expr.binary op first second).evalWith env user : Exec Value) := by
  have tested : Yields (Value.IsRvalue .int)
      (second.evalWith env user >>= fun w =>
        Exec.of w.condition >>= fun b => pure (Value.ofBool b)) :=
    yields_bind fun w => yields_bind fun b => yields_pure ⟨_, rfl⟩
  cases op <;> cases logical
  case and =>
    rw [evalWith]
    refine yields_bind fun v => yields_bind fun b => ?_
    cases b with
    | true => exact tested
    | false => exact yields_pure ⟨_, rfl⟩
  case or =>
    rw [evalWith]
    refine yields_bind fun v => yields_bind fun b => ?_
    cases b with
    | true => exact yields_pure ⟨_, rfl⟩
    | false => exact tested

/-- The other operators evaluate both of their operands. -/
theorem evalWith_binary {op : BinaryOp} (other : ¬ op.isLogical) (first second : Expr)
    (user : UserCall Exec) :
    ((Expr.binary op first second).evalWith env user : Exec Value) =
      (first.evalWith env user >>= fun v => second.evalWith env user >>= fun w =>
        Exec.of (Value.binary env.structs op v w)) := by
  cases op
  case and | or => exact absurd rfl other
  all_goals rfl

theorem mirrored_binary {op : BinaryOp} {first second : Expr} (hf : first.Mirrored env left)
    (hs : second.Mirrored env left) : (Expr.binary op first second).Mirrored env left := by
  intro machine v machine' found
  by_cases logical : op.isLogical
  · refine ⟨.int, by rw [typeIn, if_pos logical], ?_⟩
    exact (yields_logical logical first second _ _ _ _ found).type_eq
  · rw [evalWith_binary logical] at found
    obtain ⟨a, middle, ranFirst, found⟩ := ok_of_bind found
    obtain ⟨b, last, ranSecond, found⟩ := ok_of_bind found
    obtain ⟨s, typed, describes⟩ := hf _ _ _ ranFirst
    obtain ⟨t, typed', describes'⟩ := hs.second ranFirst ranSecond
    have result := Value.type_binary (Exec.of_eq_ok found)
    refine ⟨v.type, ?_, rfl⟩
    rw [typeIn, if_neg logical, typed, typed']
    exact describes.stands.binary describes'.stands result

theorem mirrored_assign {op : BinaryOp} {target value : Expr} (h : target.Mirrored env left) :
    (Expr.assign (.compound op) target value).Mirrored env left := by
  intro machine v machine' found
  obtain ⟨source, middle, first, found⟩ := ok_of_bind found
  obtain ⟨place, last, second, found⟩ := ok_of_bind found
  obtain ⟨image, found⟩ := Exec.onImage_eq_ok found
  obtain ⟨type, typed, describes⟩ := h.second first second
  obtain ⟨result, somewhere⟩ := Value.type_assign found
  exact ⟨type, typed, result.trans (describes.stands.type_eq somewhere)⟩

theorem mirrored_call (function : String) (arguments : List Expr) :
    (Expr.call function arguments).Mirrored env left := by
  intro machine v machine' found
  obtain ⟨callee, middle, named, found⟩ := ok_of_bind found
  obtain ⟨values, last, -, found⟩ := ok_of_bind found
  have bound := Exec.ask_eq_ok named
  exact ⟨callee.returnType, bind_eq_ok.mpr ⟨callee, bound, rfl⟩,
    (callee.yields_callWith env left values _ _ _ found).type_eq⟩

theorem mirrored_index {array position : Expr} (ha : array.Mirrored env left)
    (hp : position.Mirrored env left) : (Expr.index array position).Mirrored env left := by
  intro machine v machine' found
  obtain ⟨base, middle, first, found⟩ := ok_of_bind found
  obtain ⟨offset, last, second, found⟩ := ok_of_bind found
  obtain ⟨image, found⟩ := Exec.onImage_eq_ok found
  obtain ⟨place, sum, found⟩ := bind_eq_ok.mp (Image.query_eq_ok found)
  obtain ⟨s, typed, describes⟩ := ha _ _ _ first
  obtain ⟨t, typed', describes'⟩ := hp.second first second
  have pointer := describes.stands.binary describes'.stands (Value.type_plus sum)
  have element := CType.pointee_of_dereferenced (Value.type_deref found)
  refine ⟨v.type, ?_, rfl⟩
  simp only [typeIn, typed, typed', pointer, element, bind, Except.bind]

theorem mirrored_member {object : Expr} {field : String} (h : object.Mirrored env left) :
    (Expr.member object field).Mirrored env left := by
  intro machine v machine' found
  obtain ⟨struct, middle, ran, found⟩ := ok_of_bind found
  obtain ⟨image, found⟩ := Exec.onImage_eq_ok found
  obtain ⟨type, typed, describes⟩ := h _ _ _ ran
  have found := describes.stands.fieldType (Value.type_member (Image.query_eq_ok found))
  exact ⟨v.type, bind_eq_ok.mpr ⟨type, typed, found⟩, rfl⟩

theorem mirrored_arrow {pointer : Expr} {field : String} (h : pointer.Mirrored env left) :
    (Expr.arrow pointer field).Mirrored env left := by
  intro machine v machine' found
  obtain ⟨address, middle, ran, found⟩ := ok_of_bind found
  obtain ⟨image, found⟩ := Exec.onImage_eq_ok found
  obtain ⟨object, reached, found⟩ := bind_eq_ok.mp (Image.query_eq_ok found)
  obtain ⟨type, typed, describes⟩ := h _ _ _ ran
  have target := Value.type_deref reached
  rw [describes.stands.dereferenced_eq] at target
  have target := CType.pointee_of_dereferenced target
  refine ⟨v.type, ?_, rfl⟩
  simp only [typeIn, typed, target, Value.type_member found, bind, Except.bind]

theorem mirrored_var (name : String) : (Expr.var name).Mirrored env left := by
  intro machine v machine' found
  exact ⟨v.type, Machine.type_valueOf (Exec.ask_eq_ok found), rfl⟩

theorem mirrored_text (literal : String) : (Expr.text literal).Mirrored env left := by
  intro machine v machine' found
  obtain ⟨image, found⟩ := Exec.onImage_eq_ok found
  have pointer := Image.yields_intern _ _ _ _ found
  exact ⟨.ofText literal, rfl, rfl, pointer.type_eq, pointer.address_eq⟩

/-- Static types mirror evaluation. -/
theorem mirrored : ∀ expr : Expr, expr.isDirect → expr.Mirrored env left
  | .number value, _ => by
    intro machine v machine' found
    cases found
    exact ⟨_, rfl, rfl⟩
  | .text literal, _ => mirrored_text literal
  | .var name, _ => mirrored_var name
  | .binary op first second, h => by
    rw [isDirect, Bool.and_eq_true] at h
    exact mirrored_binary (mirrored first h.1) (mirrored second h.2)
  | .unary op operand, h => by
    rw [isDirect] at h
    exact mirrored_unary (mirrored operand h)
  | .assign .plain _ _, h => by
    rw [isDirect] at h
    cases h
  | .assign (.compound op) target value, h => by
    rw [isDirect, Bool.and_eq_true] at h
    exact mirrored_assign (mirrored target h.1)
  | .conditional _ _ _, h => by
    rw [isDirect] at h
    cases h
  | .call function arguments, _ => mirrored_call function arguments
  | .index array position, h => by
    rw [isDirect, Bool.and_eq_true] at h
    exact mirrored_index (mirrored array h.1) (mirrored position h.2)
  | .member object field, h => by
    rw [isDirect] at h
    exact mirrored_member (mirrored object h)
  | .arrow pointer field, h => by
    rw [isDirect] at h
    exact mirrored_arrow (mirrored pointer h)
  | .cast type operand, _ => by
    intro machine v machine' found
    obtain ⟨inner, middle, -, found⟩ := ok_of_bind found
    exact ⟨type, rfl, (Value.isRvalue_cast (Exec.of_eq_ok found)).type_eq⟩
  | .sizeofType type, _ => by
    intro machine v machine' found
    exact ⟨.int, rfl, (Value.isRvalue_ofSize (Exec.of_eq_ok found)).type_eq⟩
  | .sizeofExpr operand, _ => by
    intro machine v machine' found
    obtain ⟨type, middle, -, found⟩ := ok_of_bind found
    exact ⟨.int, rfl, (Value.isRvalue_ofSize (Exec.of_eq_ok found)).type_eq⟩

end Expr

/-- Whenever an expression without plain assignments and choices evaluates to a value, it has a
static type in the frame it is evaluated in, before and after, and that is the type of the value.
A text literal alone has the type of its storage, where its value is a pointer. -/
theorem static_types_mirror_evaluation (env : Env) (expr : Expr) (machine machine' : Machine)
    (v : Value) (direct : expr.isDirect)
    (found : (expr.eval env : Exec Value) machine = .ok v machine') :
    ∃ type, expr.typeIn env.structs machine = .ok type ∧
      expr.typeIn env.structs machine' = .ok type ∧
      match expr with
      | .text literal =>
        type = .array .char [(Text.literalBody literal.toList).length + 1] ∧ v.type = .charPointer
      | _ => v.type = type := by
  have ran : (expr.evalWith env (callWithin env (machine.callsLeft env)) : Exec Value) machine =
    .ok v machine' := found
  obtain ⟨type, typed, describes⟩ := Expr.mirrored expr direct _ _ _ ran
  have visible := keepsVisible_evalWith env (machine.callsLeft env) expr machine
  rw [ran] at visible
  refine ⟨type, typed, Expr.typeIn_of_visible visible.symm typed, ?_⟩
  cases expr with
  | text literal => exact ⟨describes.1, describes.2.1⟩
  | _ => exact describes

/-- The letter of a text literal behind a counter that is moved on. -/
def nextLetter : Expr :=
  .index (.text "\"abc\"") (.assign (.compound .add) (.var "n") (.number (.ofNat 1)))

/-- A machine with the counter declared. -/
def counting : Machine :=
  left (Machine.declareVariable .empty "n" .int
    (Machine.start (Image.blank ⟨16, 32, 16, .reclaim⟩) (Console.start [])))

/-- The literal is an array to the size operator and a pointer to evaluation, but its letter is a
`char` to both. -/
theorem nextLetter_type_mirrors_evaluation : ∃ v machine,
    (nextLetter.eval ⟨.empty, ⟨10, 10⟩⟩ : Exec Value) counting = .ok v machine ∧
      nextLetter.typeIn .empty counting = .ok .char ∧ v.type = .char := by
  have runs : ∃ v machine,
      (nextLetter.eval ⟨.empty, ⟨10, 10⟩⟩ : Exec Value) counting = .ok v machine := by
    cases ended : (nextLetter.eval ⟨.empty, ⟨10, 10⟩⟩ : Exec Value) counting with
    | ok v machine => exact ⟨v, machine, rfl⟩
    | error fault machine =>
      have fine : (match (nextLetter.eval ⟨.empty, ⟨10, 10⟩⟩ : Exec Value) counting with
          | .ok _ _ => true
          | .error _ _ => false) = true := by decide +kernel
      rw [ended] at fine
      cases fine
  obtain ⟨v, machine, found⟩ := runs
  obtain ⟨type, typed, -, mirrored⟩ := static_types_mirror_evaluation ⟨.empty, ⟨10, 10⟩⟩ nextLetter
    counting machine v rfl found
  have char : nextLetter.typeIn .empty counting = .ok .char := rfl
  rw [char] at typed
  cases typed
  exact ⟨v, machine, found, char, mirrored⟩

end FlatC

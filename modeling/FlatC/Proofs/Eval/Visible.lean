import FlatC.Proofs.Eval.ScopeKept
import FlatC.Proofs.Refine

/-!
# Names during an evaluation

An expression keeps the scope that it is evaluated in.  So it is evaluated in one and the same
environment from its beginning to its end, whatever it calls: only the cursor of the stack moves.

* `Machine.visible` is what names are bound to;
* `keepsVisible_evalWith` says that no evaluation changes it;
* `Expr.typeIn_refined` and `Expr.typeIn_of_visible` say what the type of an expression depends on.
-/

namespace FlatC

open Step

/-! ## The visible names -/

/-- The bindings that a frame sees, scope by scope. -/
def Frame.visible (frame : Frame) : List Bindings :=
  frame.scopes.map Scope.bindings

theorem Frame.find?_of_visible {frame frame' : Frame} (h : frame'.visible = frame.visible)
    (name : String) : frame'.find? name = frame.find? name := by
  have by_bindings (frame : Frame) :
      frame.find? name = frame.visible.findSome? fun bindings => bindings.find? name := by
    rw [visible, List.findSome?_map]
    rfl
  rw [by_bindings, by_bindings, h]

/-- The bindings that the open frame sees. -/
def Machine.visible (machine : Machine) : List Bindings :=
  machine.frame.visible

/-- What keeps the scope keeps the visible names. -/
theorem Machine.ScopeKept.visible {before after : Machine} (h : before.ScopeKept after) :
    after.visible = before.visible := by
  simp only [Machine.visible, Frame.visible, Frame.scopes, List.map_cons, h.bindings, h.outer]

/-- An expression has the names that it starts with from its beginning to its end. -/
theorem keepsVisible_evalWith (env : Env) (left : Nat) (expr : Expr) :
    Keeps Machine.visible (expr.evalWith env (callWithin env left) : Exec Value) :=
  fun machine => (scopeKept_evalWith env left expr machine).visible

/-! ## Types -/

/-- The type of an expression depends on the types of its variables and on its functions. -/
theorem Expr.typeIn_refined {seen : Fault → Prop} {table : StructTable} {machine machine' : Machine}
    (types : ∀ name, machine.frame.typeOf name = machine'.frame.typeOf name)
    (functions : ∀ name,
      Refined seen (machine.functionOf table name) (machine'.functionOf table name)) :
    ∀ expr : Expr, Refined seen (expr.typeIn table machine) (expr.typeIn table machine')
  | .number _ | .text _ | .cast _ _ | .sizeofType _ | .sizeofExpr _ => .same _
  | .var name => .of_eq (types name)
  | .binary op left right => by
    unfold typeIn
    split
    · exact .same _
    · refine .bind (typeIn_refined types functions left) fun _ _ => ?_
      exact .bind (typeIn_refined types functions right) fun _ _ => .same _
  | .unary _ operand => .bind (typeIn_refined types functions operand) fun _ _ => .same _
  | .assign _ target _ => typeIn_refined types functions target
  | .conditional _ whenTrue _ => typeIn_refined types functions whenTrue
  | .call function _ => .bind (functions function) fun _ _ => .same _
  | .index array position =>
    .bind (typeIn_refined types functions array) fun _ _ =>
      .bind (typeIn_refined types functions position) fun _ _ => .same _
  | .member object _ => .bind (typeIn_refined types functions object) fun _ _ => .same _
  | .arrow pointer _ => .bind (typeIn_refined types functions pointer) fun _ _ => .same _

/-- A type that an expression has, it has wherever the same names are visible. -/
theorem Expr.typeIn_of_visible {table : StructTable} {machine machine' : Machine}
    (h : machine'.visible = machine.visible) {expr : Expr} {type : CType}
    (found : expr.typeIn table machine' = .ok type) : expr.typeIn table machine = .ok type := by
  have binding (name : String) : machine'.frame.find? name = machine.frame.find? name :=
    Frame.find?_of_visible h name
  have types (name : String) : machine'.frame.typeOf name = machine.frame.typeOf name := by
    simp only [Frame.typeOf, Frame.find, binding]
  -- a variable may be readable in one state only, but then it is no function in either
  have functions (name : String) (callee : Callee)
      (is : machine'.functionOf table name = .ok callee) :
      machine.functionOf table name = .ok callee := by
    obtain ⟨type, bound⟩ := Machine.find?_of_functionOf is
    rw [binding] at bound
    simp [Machine.functionOf, Machine.resolve, Frame.find, bound, bind, Except.bind, pure,
      Except.pure]
  exact (typeIn_refined types (fun name => .of_ok (functions name)) expr).ok found

end FlatC

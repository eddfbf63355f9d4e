import FlatC.Proofs.Eval.ScopeKept
import FlatC.Proofs.Eval.StaticType
import FlatC.Proofs.Image.Faithful
import FlatC.Proofs.Image.Fill
import FlatC.Proofs.Value.Computed

/-!
# Values with an address are what memory holds

A value keeps the address that it was read from, and the number that was found there.  Memory may
change after the reading, but an expression that yields a value with an address reads it in its last
step, whatever its operands have done to memory before.  So where an assignment stores its result,
there is room for it.

* `Value.Fresh` says that memory holds a value at its address; `Image.fresh_read` that a value is
  fresh when it has been read, and `Expr.endsFresh` that it is when it has been evaluated;
* `Value.store_fault`, `Value.assign_fault` and `Value.stepBy_fault` are about what can go wrong
  with a store at the address of a fresh value;
* `lvalues_are_fresh` puts them together.
-/

namespace FlatC

/-! ## Fresh values -/

/-- Memory holds the value at the address: a value of its type lies there as a whole, not at address
zero, and is read as this one. -/
structure Value.FreshAt (table : StructTable) (image : Image) (v : Value) (address : Nat) :
    Prop where
  sized : ∃ size, table.sizeOf v.type = .ok size ∧ address + size ≤ image.size
  nonzero : address ≠ 0
  read_eq : image.read table address v.type = .ok v

/-- If the value names a place, memory holds it there. -/
def Value.Fresh (table : StructTable) (image : Image) (v : Value) : Prop :=
  ∀ address, v.address = some address → v.FreshAt table image address

namespace Image

variable {table : StructTable} {image : Image} {address : Nat} {type : CType} {v : Value}

/-- What is read has been found in memory, at the address that it is read from. -/
theorem place_of_read (found : image.read table address type = .ok v) :
    v.address = some address ∧ address ≠ 0 ∧
      ∃ size, table.sizeOf type = .ok size ∧ address + size ≤ image.size := by
  cases type with
  | void | function => cases found
  | array _ _ | struct _ =>
    obtain ⟨size, sized, found⟩ := bind_eq_ok.mp found
    obtain ⟨_, readable, found⟩ := bind_eq_ok.mp found
    obtain ⟨nonzero, inside⟩ := checkReadable_iff.mp readable
    cases found
    exact ⟨rfl, nonzero, size, sized, inside⟩
  | int | float | char | pointer _ =>
    obtain ⟨word, number, found⟩ := bind_eq_ok.mp found
    obtain ⟨bytes, taken, -⟩ := bind_eq_ok.mp number
    obtain ⟨_, readable, -⟩ := bind_eq_ok.mp taken
    obtain ⟨nonzero, inside⟩ := checkReadable_iff.mp readable
    rw [← Except.ok.inj found]
    exact ⟨rfl, nonzero, _, rfl, inside⟩

/-- A value is fresh when it has been read. -/
theorem fresh_read (found : image.read table address type = .ok v) : v.Fresh table image := by
  obtain ⟨place, nonzero, size, sized, inside⟩ := place_of_read found
  obtain rfl := type_read found
  intro address' place'
  obtain rfl : address = address' := Option.some.inj (place.symm.trans place')
  exact ⟨⟨size, sized, inside⟩, nonzero, found⟩

end Image

namespace Value

open Step

variable {table : StructTable} {v w r : Value} {image image' : Image} {address : Nat}
  {f : MemoryFault}

theorem fresh_of_rvalue (rvalue : v.address = none) : v.Fresh table image := by
  intro address place
  rw [rvalue] at place
  cases place

theorem fresh_deref (found : v.deref table image = .ok r) : r.Fresh table image := by
  obtain ⟨type, -, found⟩ := bind_eq_ok.mp found
  exact Image.fresh_read found

theorem fresh_member {name : String} (found : v.member table name image = .ok r) :
    r.Fresh table image := by
  unfold member at found
  split at found
  · obtain ⟨field, -, found⟩ := bind_eq_ok.mp found
    exact Image.fresh_read found
  · cases found

/-! ## Storing at the place of a value -/

/-- The fault is that the value names a place in the read-only region. -/
def ReadOnlyFault (v : Value) (image : Image) (f : MemoryFault) : Prop :=
  ∃ address, v.address = some address ∧ f = .readOnlyWrite address ∧ address < image.heapBottom

/-- Where memory holds a value, another one of its type can be stored unless the place is
read-only. -/
theorem store_fault (fresh : v.Fresh table image) (place : v.address = some address)
    (same : w.type = v.type)
    (failed : Image.store address w image = .error (.memory f) image') :
    v.ReadOnlyFault image f ∧ image' = image := by
  obtain ⟨⟨size, sized, inside⟩, nonzero, -⟩ := fresh address place
  unfold Image.store at failed
  cases bytes : Image.stored? w with
  | none =>
    rw [bytes] at failed
    cases failed
  | some data =>
    have storable : w.type.isStorable = true := by
      unfold Image.stored? at bytes
      cases type : w.type <;> rw [type] at bytes <;> first | rfl | cases bytes
    obtain ⟨data', bytes', sized'⟩ := Image.sizeOf_stored table storable
    obtain rfl : data = data' := Option.some.inj (bytes.symm.trans bytes')
    obtain rfl : size = data.length := by
      rw [same, sized] at sized'
      exact Except.ok.inj sized'
    have readable := image.checkReadable_eq nonzero inside
    simp only [bytes, Image.write, Image.checkWritable, readable, bind, Except.bind] at failed
    split at failed
    · cases failed
    · rename_i refused
      split at refused
      · cases refused
        cases failed
        exact ⟨⟨address, place, rfl, ‹_›⟩, rfl⟩
      · cases refused

/-- A fault of memory that follows a computation without any. -/
theorem fault_of_bind {α β : Type} {P : α → Prop} {x : Except Fault α} {next : α → Store β}
    (off : OffMemory P x) (failed : (Store.of x >>= next) image = .error (.memory f) image') :
    ∃ a, P a ∧ next a image = .error (.memory f) image' := by
  cases x with
  | ok a => exact ⟨a, off, failed⟩
  | error fault =>
    cases failed
    exact absurd rfl (off f)

/-- A store that is the last thing that can go wrong. -/
theorem fault_of_store {β : Type} {b : β}
    (failed : (Image.store address w >>= fun _ => pure b : Store β) image =
      .error (.memory f) image') :
    Image.store address w image = .error (.memory f) image' := by
  cases stored : Image.store address w image with
  | ok _ _ =>
    rw [bind_of_ok stored] at failed
    cases failed
  | error _ _ =>
    rw [bind_of_error stored] at failed
    cases failed
    rfl

/-- The only fault of memory that a step up or down has is that the place is read-only. -/
theorem stepBy_fault {op : UnaryOp} (step : op.isStep) (fresh : v.Fresh table image)
    (failed : v.stepBy table op image = .error (.memory f) image') :
    v.ReadOnlyFault image f ∧ image' = image := by
  unfold stepBy at failed
  cases place : v.address with
  | none =>
    rw [place] at failed
    cases failed
  | some address =>
    rw [place] at failed
    obtain ⟨updated, ⟨same, -⟩, failed⟩ :=
      fault_of_bind (endsWith_stepped step table v).offMemory failed
    exact store_fault fresh place same (fault_of_store failed)

/-- So has an assignment. -/
theorem assign_fault {op : AssignOp} (fresh : v.Fresh table image)
    (failed : v.assign table op w image = .error (.memory f) image') :
    v.ReadOnlyFault image f ∧ image' = image := by
  unfold assign at failed
  cases place : v.address with
  | none =>
    rw [place] at failed
    cases failed
  | some address =>
    simp only [place] at failed
    split at failed
    · obtain ⟨⟨stored, yielded⟩, ⟨same, -⟩, failed⟩ :=
        fault_of_bind (offMemory_assigned table op v w) failed
      exact store_fault fresh place same (fault_of_store failed)
    · cases failed

/-! ## Results of operators on places -/

/-- A step and an assignment yield what they compute, or an operand without its place. -/
theorem fresh_of_yielded (yielded : r.IsComputed ∨ r = v.toRvalue) : r.Fresh table image := by
  obtain computed | rfl := yielded
  · exact fresh_of_rvalue computed.address_eq
  · exact fresh_of_rvalue rfl

/-- Dereference reads the value that it yields, and the other unary operators yield no place. -/
theorem fresh_unary {op : UnaryOp} (found : v.unary table op image = .ok r image') :
    r.Fresh table image' := by
  cases op
  case deref =>
    obtain ⟨rfl, read⟩ := Image.query_done found
    exact fresh_deref read
  case addressOf =>
    have pointer := (computed_addressOf v).answer (Store.of_eq_ok found)
    exact fresh_of_rvalue pointer.address_eq
  case preInc | preDec | postInc | postDec =>
    exact fresh_of_yielded (yields_stepBy rfl table v _ _ _ found)
  case neg | plus | not | bitNot =>
    have number := (computed_plainUnary _ v).answer (Store.of_eq_ok found)
    exact fresh_of_rvalue number.address_eq

end Value

/-! ## Evaluation -/

open Step

/-- Whatever the step yields is what memory holds when it ends. -/
def EndsFresh (table : StructTable) (exec : Exec Value) : Prop :=
  ∀ machine v machine', exec machine = .ok v machine' → v.Fresh table machine'.image

namespace EndsFresh

variable {table : StructTable} {α : Type} {exec : Exec Value}

/-- Only the last step of a sequence matters. -/
theorem bind {first : Exec α} {next : α → Exec Value} (h : ∀ a, EndsFresh table (next a)) :
    EndsFresh table (first >>= next) := by
  intro machine v machine' found
  obtain ⟨a, middle, -, found⟩ := ok_of_bind found
  exact h a _ _ _ found

theorem of_rvalue (h : Yields (·.address = none) exec) : EndsFresh table exec :=
  fun _ _ _ found => Value.fresh_of_rvalue (h _ _ _ found)

theorem of_computed {F : Fault → Prop} {x : Except Fault Value} (h : Value.Computed F x) :
    EndsFresh table (Exec.of x) :=
  of_rvalue fun _ _ _ found => (h.answer (Exec.of_eq_ok found)).address_eq

theorem onImage {step : Store Value}
    (h : ∀ image v image', step image = .ok v image' → v.Fresh table image') :
    EndsFresh table (Exec.onImage step) := by
  intro machine v machine' found
  obtain ⟨image, ran, rfl⟩ := Exec.onImage_done found
  exact h _ _ _ ran

theorem query {question : Image → Except Fault Value}
    (h : ∀ image v, question image = .ok v → v.Fresh table image) :
    EndsFresh table (Exec.onImage (Image.query question)) := by
  refine onImage fun image v image' found => ?_
  obtain ⟨rfl, read⟩ := Image.query_done found
  exact h _ _ read

end EndsFresh

namespace Expr

variable {env : Env} {left : Nat}

theorem endsFresh_var (name : String) :
    EndsFresh env.structs (Exec.ask (Machine.valueOf env.structs name)) := by
  intro machine v machine' found
  unfold Exec.ask at found
  split at found
  · rename_i value
    cases found
    obtain ⟨resolved, found, value⟩ := bind_eq_ok.mp value
    obtain ⟨binding, -, found⟩ := bind_eq_ok.mp found
    split at found
    · obtain ⟨read, reading, found⟩ := bind_eq_ok.mp found
      cases found
      cases value
      exact Image.fresh_read reading
    · cases found
      cases value
  · cases found

theorem endsFresh_binary (op : BinaryOp) (first second : Expr) :
    EndsFresh env.structs
      ((Expr.binary op first second).evalWith env (callWithin env left) : Exec Value) := by
  by_cases logical : op.isLogical
  · exact .of_rvalue fun machine v machine' found =>
      (yields_logical logical first second _ machine v machine' found).address_eq
  · rw [evalWith_binary logical]
    exact .bind fun v => .bind fun w => .of_computed (Value.computed_binary env.structs op v w)

/-- The choice yields the value of a branch without its place. -/
theorem endsFresh_conditional (test whenTrue whenFalse : Expr) :
    EndsFresh env.structs
      ((Expr.conditional test whenTrue whenFalse).evalWith env (callWithin env left) :
        Exec Value) := by
  rw [evalWith]
  refine .bind fun tested => .bind fun holds => ?_
  cases holds with
  | true => exact .bind fun v => .of_rvalue (yields_pure rfl)
  | false => exact .bind fun v => .of_rvalue (yields_pure rfl)

/-- **Every expression ends fresh.**  The cases go by what an expression does last: read memory, or
compute a value without a place. -/
theorem endsFresh (expr : Expr) :
    EndsFresh env.structs (expr.evalWith env (callWithin env left) : Exec Value) := by
  cases expr with
  | number value => exact .of_rvalue (yields_pure rfl)
  | text literal =>
    refine .onImage fun image v image' found => ?_
    exact Value.fresh_of_rvalue (Image.yields_intern _ _ _ _ found).address_eq
  | var name => exact endsFresh_var name
  | binary op first second => exact endsFresh_binary op first second
  | unary op operand => exact .bind fun v => .onImage fun _ _ _ => Value.fresh_unary
  | assign op target value =>
    refine .bind fun source => .bind fun place => .onImage fun image v image' found => ?_
    exact Value.fresh_of_yielded (Value.yields_assign env.structs op place source _ _ _ found)
  | conditional test whenTrue whenFalse => exact endsFresh_conditional test whenTrue whenFalse
  | call function arguments =>
    refine .bind fun callee => .bind fun values => .of_rvalue fun _ _ _ found => ?_
    exact (callee.yields_callWith env left values _ _ _ found).address_eq
  | index array position =>
    refine .bind fun base => .bind fun offset => .query fun image v found => ?_
    obtain ⟨place, -, read⟩ := bind_eq_ok.mp found
    exact Value.fresh_deref read
  | member object field => exact .bind fun struct => .query fun _ _ => Value.fresh_member
  | arrow pointer field =>
    refine .bind fun address => .query fun image v found => ?_
    obtain ⟨object, -, read⟩ := bind_eq_ok.mp found
    exact Value.fresh_member read
  | cast type operand =>
    refine .bind fun v => .of_rvalue fun _ _ _ found => ?_
    exact (Value.isRvalue_cast (Exec.of_eq_ok found)).address_eq
  | sizeofType type =>
    exact .of_rvalue fun _ _ _ found => (Value.isRvalue_ofSize (Exec.of_eq_ok found)).address_eq
  | sizeofExpr operand =>
    refine .bind fun type => .of_rvalue fun _ _ _ found => ?_
    exact (Value.isRvalue_ofSize (Exec.of_eq_ok found)).address_eq

/-- However many calls were left before an evaluation, as many are left after it. -/
theorem callsLeft_of_eval {expr : Expr} {machine machine' : Machine} {v : Value}
    (found : (expr.eval env : Exec Value) machine = .ok v machine') :
    machine'.callsLeft env = machine.callsLeft env := by
  have ran : (expr.evalWith env (callWithin env (machine.callsLeft env)) : Exec Value) machine =
    .ok v machine' := found
  have kept := scopeKept_evalWith env (machine.callsLeft env) expr machine
  rw [ran] at kept
  have same : machine'.console.callDepth = machine.console.callDepth := kept.callDepth
  rw [Machine.callsLeft, Machine.callsLeft, same]

end Expr

/-- **Lvalues are fresh and in bounds.**  Whenever an expression evaluates to a value with an
address, memory holds this value there at the end: its type has a size, a value of this size lies at
the address inside memory, the address is not zero, and reading there gives the same value again.
So once its operands have been evaluated, an assignment has no fault of memory but that its target
lies in the read-only region, and a step up or down none but that its operand does.  Such a fault
leaves everything as the operands have left it. -/
theorem lvalues_are_fresh (env : Env) :
    (∀ (expr : Expr) machine v machine',
      (expr.eval env : Exec Value) machine = .ok v machine' →
      v.Fresh env.structs machine'.image) ∧
    (∀ op (target value : Expr) machine source machine₁ place machine₂ f machine',
      (value.eval env : Exec Value) machine = .ok source machine₁ →
      (target.eval env : Exec Value) machine₁ = .ok place machine₂ →
      ((Expr.assign op target value).eval env : Exec Value) machine =
        .error (.memory f) machine' →
      place.ReadOnlyFault machine₂.image f ∧ machine' = machine₂) ∧
    ∀ op (operand : Expr) machine place machine₁ f machine', op.isStep = true →
      (operand.eval env : Exec Value) machine = .ok place machine₁ →
      ((Expr.unary op operand).eval env : Exec Value) machine = .error (.memory f) machine' →
      place.ReadOnlyFault machine₁.image f ∧ machine' = machine₁ := by
  have fresh (expr : Expr) (machine : Machine) (v : Value) (machine' : Machine)
      (found : (expr.eval env : Exec Value) machine = .ok v machine') :
      v.Fresh env.structs machine'.image := Expr.endsFresh expr machine v machine' found
  refine ⟨fresh, ?_, ?_⟩
  · intro op target value machine source machine₁ place machine₂ f machine' first second failed
    have second' : (target.evalWith env (callWithin env (machine.callsLeft env)) : Exec Value)
        machine₁ = .ok place machine₂ := by
      rw [← Expr.callsLeft_of_eval first]
      exact second
    have last : Exec.onImage (place.assign env.structs op source) machine₂ =
        .error (.memory f) machine' :=
      ((Step.bind_of_ok first).trans (Step.bind_of_ok second')).symm.trans failed
    obtain ⟨image, refused, rfl⟩ := Exec.onImage_failed last
    obtain ⟨readOnly, rfl⟩ := Value.assign_fault (fresh _ _ _ _ second) refused
    exact ⟨readOnly, rfl⟩
  · intro op operand machine place machine₁ f machine' step found failed
    have last : Exec.onImage (place.unary env.structs op) machine₁ = .error (.memory f) machine' :=
      (Step.bind_of_ok found).symm.trans failed
    obtain ⟨image, refused, rfl⟩ := Exec.onImage_failed last
    have refused : place.stepBy env.structs op machine₁.image = .error (.memory f) image := by
      cases op <;> cases step <;> exact refused
    obtain ⟨readOnly, rfl⟩ := Value.stepBy_fault step (fresh _ _ _ _ found) refused
    exact ⟨readOnly, rfl⟩

/-- The letter of a literal behind a counter that is moved on is in memory when the counter has
moved, but neither an assignment nor a step can change it. -/
theorem letter_of_a_literal_is_read_only : ∃ letter machine f f',
    (nextLetter.eval ⟨.empty, ⟨10, 10⟩⟩ : Exec Value) counting = .ok letter machine ∧
      letter.address.isSome = true ∧ letter.Fresh .empty machine.image ∧
      ((Expr.assign .plain nextLetter (.number .one)).eval ⟨.empty, ⟨10, 10⟩⟩ : Exec Value)
        counting = .error (.memory f) machine ∧ letter.ReadOnlyFault machine.image f ∧
      UnaryOp.preInc.isStep = true ∧
      ((Expr.unary .preInc nextLetter).eval ⟨.empty, ⟨10, 10⟩⟩ : Exec Value) counting =
        .error (.memory f') machine ∧ letter.ReadOnlyFault machine.image f' := by
  have answered {x : EStateM.Result Fault Machine Value}
      (h : (match x with | .ok v _ => v.address.isSome | .error .. => false) = true) :
      ∃ v machine, x = .ok v machine ∧ v.address.isSome = true := by
    cases x with
    | ok v machine => exact ⟨v, machine, rfl, h⟩
    | error => cases h
  have refused {x : EStateM.Result Fault Machine Value}
      (h : (match x with | .error (.memory _) _ => true | _ => false) = true) :
      ∃ f machine, x = .error (.memory f) machine := by
    split at h
    · exact ⟨_, _, rfl⟩
    · cases h
  obtain ⟨fresh, assigned, stepped⟩ := lvalues_are_fresh ⟨.empty, ⟨10, 10⟩⟩
  obtain ⟨letter, machine, found, place⟩ := answered
    (x := (nextLetter.eval ⟨.empty, ⟨10, 10⟩⟩ : Exec Value) counting) (by decide +kernel)
  have one : ((Expr.number .one).eval ⟨.empty, ⟨10, 10⟩⟩ : Exec Value) counting =
    .ok (.literal .one) counting := rfl
  obtain ⟨f, machine₁, failed⟩ := refused
    (x := ((Expr.assign .plain nextLetter (.number .one)).eval ⟨.empty, ⟨10, 10⟩⟩ : Exec Value)
      counting) (by decide +kernel)
  obtain ⟨f', machine₂, failed'⟩ := refused
    (x := ((Expr.unary .preInc nextLetter).eval ⟨.empty, ⟨10, 10⟩⟩ : Exec Value) counting)
      (by decide +kernel)
  obtain ⟨readOnly, rfl⟩ := assigned _ _ _ _ _ _ _ _ _ _ one found failed
  obtain ⟨readOnly', rfl⟩ := stepped _ _ _ _ _ _ _ rfl found failed'
  exact ⟨letter, _, f, f', found, place, fresh _ _ _ _ found, failed, readOnly, rfl, failed',
    readOnly'⟩

end FlatC

import FlatC.Proofs.Eval.Reported
import FlatC.Proofs.Eval.StaticType
import FlatC.Proofs.Scope.Typed

/-!
# Evaluation that does not stop the machine

An evaluation asks more of the machine than its library does: it moves pointers and it places slots.
Both are computed with the sizes of types.  As long as the types that are written lead to modest
types only, and memory is ample, all of it can be computed.  So every evaluation is answered or
fails with something to be reported.

* `Steady` is said of steps that keep machines typed and do not stop them;
* `Steady.eval` and `Steady.exec` say that evaluation is made of such steps, and
  `Steady.callWithin` that calls are;
* `Steady.execute` is the statement about programs.
-/

namespace FlatC

open Step

/-- From a typed machine the step leads to one.  It answers with the property, or it has a fault
that is reported. -/
abbrev Steady {α : Type} (table : StructTable) (written : List CType) (P : α → Prop)
    (exec : Exec α) : Prop :=
  Upholds (Machine.Typed table written) P Fault.IsReported exec

namespace Steady

variable {table : StructTable} {written : List CType} {α : Type} {P : α → Prop} {x : Exec α}

/-! ## Steps -/

/-- What holds of steps on ample memory holds of those that keep the setting, and what is known of
their answers may come from elsewhere. -/
theorem of_reports (reports : Exec.Reports x) (kept : KeepsSetting x)
    (yields : Yields P x) : Steady table written P x := by
  intro machine typed
  have ending := reports machine typed.ample
  have same := kept machine
  cases ran : x machine with
  | ok a machine' =>
    rw [ran] at same
    exact ⟨typed.of_setting same, yields machine a machine' ran⟩
  | error fault machine' =>
    rw [ran] at ending same
    exact ⟨typed.of_setting same, ending.2⟩

theorem onImage {step : Store α} (reports : Image.Reports step)
    (kept : KeepsSetting (Exec.onImage step)) (yields : Yields P step) :
    Steady table written P (Exec.onImage step) :=
  of_reports (Exec.reports_onImage reports) kept (Exec.yields_onImage yields)

theorem of {result : Except Fault α} (h : EndsWith P Fault.IsReported result) :
    Steady table written P (Exec.of result) := by
  cases result with
  | ok a => exact upholds_pure h
  | error fault => exact upholds_throw h

theorem ask {question : Machine → Except Fault α}
    (h : ∀ machine, machine.Typed table written →
      EndsWith P Fault.IsReported (question machine)) :
    Steady table written P (Exec.ask question) := by
  intro machine typed
  unfold Exec.ask
  cases asked : question machine with
  | ok a => exact ⟨typed, (h machine typed).answer asked⟩
  | error fault => exact ⟨typed, (h machine typed).fault asked⟩

theorem setLine (line : Nat) : Steady table written (fun _ => True) (Exec.setLine line) :=
  upholds_modify fun _ typed => typed.onConsole _

theorem start (limits : Limits) (count : Nat) :
    Steady table written (fun _ => True) (Loop.start limits count) := by
  have reports : Exec.Reports (Loop.start limits count) := by
    refine Exec.reports_onConsole fun console fault console' failed => ?_
    unfold Console.countIteration at failed
    split at failed <;> cases failed
    exact nofun
  exact of_reports reports (Loop.keepsSetting_start limits count) fun _ _ _ _ => trivial

/-- Something between two changes of the machine. -/
theorem between {before after : Machine → Machine}
    (entering : ∀ machine, machine.Typed table written → (before machine).Typed table written)
    (leaving : ∀ machine, machine.Typed table written → (after machine).Typed table written)
    (inside : Steady table written P x) :
    Steady table written P (Runner.between before after x) := by
  intro machine typed
  have ending := inside (before machine) (entering machine typed)
  cases ran : x (before machine) with
  | ok a machine' =>
    have ended : (Runner.between before after x : Exec α) machine = .ok a (after machine') := by
      simp only [Runner.between, ran]
    rw [ran] at ending
    rw [ended]
    exact ⟨leaving machine' ending.1, ending.2⟩
  | error fault machine' =>
    have ended : (Runner.between before after x : Exec α) machine =
        .error fault (after machine') := by
      simp only [Runner.between, ran]
    rw [ran] at ending
    rw [ended]
    exact ⟨leaving machine' ending.1, ending.2⟩

theorem inBlock (inside : Steady table written P x) :
    Steady table written P (Runner.inBlock x) :=
  between (fun _ typed => typed.enterBlock) (fun _ typed => typed.close) inside

theorem asCall (inside : Steady table written P x) :
    Steady table written P (Runner.asCall x) :=
  between (fun _ typed => typed.onConsole _) (fun _ typed => typed.onConsole _)
    (between (fun _ typed => typed.enterActivation) (fun _ typed => typed.close) inside)

/-! ## Operators -/

variable {v w : Value}

theorem unary (h : v.Arises table written) (op : UnaryOp) :
    Steady table written (Value.Arises table written) (Exec.onImage (v.unary table op)) :=
  onImage (Image.reporting.unary table op v) (Primitive.unary op v).keepsSetting
    fun _ _ _ found => h.unary found

theorem member (h : v.Arises table written) (field : String) :
    Steady table written (Value.Arises table written)
      (Exec.onImage (Image.query (v.member table field))) :=
  onImage (Image.reports_query fun image _ => v.reported_member image field)
    (Primitive.member v field).keepsSetting fun _ _ _ found => h.member (Image.query_done found).2

theorem arrow (h : v.Arises table written) (field : String) :
    Steady table written (Value.Arises table written)
      (Exec.onImage (Image.query (v.arrow table field))) :=
  onImage (Image.reports_query fun image _ => v.reported_arrow image field)
    (Primitive.arrow v field).keepsSetting fun _ _ _ found => h.arrow (Image.query_done found).2

theorem cast (v : Value) {type : CType} (arises : CType.Arises table written type) :
    Steady table written (Value.Arises table written) (Exec.of (v.cast type)) := by
  have refused : UpToOperands (v.cast type) := by
    unfold Value.cast
    split
    · trivial
    · exact (v.computed_explicit _).forget
  exact of (refused.reported.answers fun _ found => .cast arises found)

theorem sizeOf (type : CType) :
    Steady table written (Value.Arises table written) (Exec.of (Value.ofSize table type)) := by
  have refused : UpToOperands (Value.ofSize table type) :=
    (table.upToOperands_sizeOf type).andThen fun _ => trivial
  exact of (refused.reported.answers fun _ found =>
    .of_isRvalue (Value.isRvalue_ofSize found) .int)

theorem condition (v : Value) :
    Steady table written (fun _ => True) (Exec.of v.condition) := by
  refine of ?_
  unfold Value.condition
  split
  · trivial
  · exact Fault.isReported_type _

/-! ## Names and library functions -/

theorem intern (text : List Char) :
    Steady table written (Value.Arises table written) (Exec.onImage (Image.intern text)) :=
  onImage (Image.reports_intern text) (Exec.keepsSetting_onImage (Image.keepsShape_intern text))
    fun _ _ _ found => .of_isRvalue (Image.yields_intern text _ _ _ found) .charPointer

theorem valueOf (name : String) :
    Steady table written (Value.Arises table written) (Exec.ask (Machine.valueOf table name)) :=
  ask fun machine typed =>
    (machine.reported_valueOf table name).answers fun _ found => typed.arises_valueOf found

/-- What is known of the functions that names stand for. -/
def Known (written : List CType) (callee : Callee) : Prop :=
  ∀ function, callee = .user function → function.types ⊆ written

theorem functionOf (name : String) :
    Steady table written (Known written) (Exec.ask (Machine.functionOf table name)) := by
  refine ask fun machine typed => ?_
  refine (machine.reported_functionOf table name).answers ?_
  rintro callee found function rfl
  exact typed.types_functionOf found

theorem library (function : LibraryFunction) (arguments : List Value) :
    Steady table written (Value.Arises table written) (function.call arguments) := by
  have result : CType.Arises table written function.returnType := by
    cases function with
    | malloc | calloc => exact .voidPointer
    | strcpy => exact .charPointer
    | free | exit => exact .void
    | strlen | strcmp | printf | puts | putchar | scanf => exact .int
  refine of_reports ((reportingSteps table).library function arguments)
    ((keepingSetting table).library function arguments) fun _ _ _ found => ?_
  exact .of_isRvalue (function.yields_call arguments _ _ _ found) result

/-! ## Sums, differences and slots -/

/-- A slot that is planned can be claimed, or the fault is reported. -/
theorem reports_claim (table : StructTable) (name : String) (type : CType) (address size : Nat) :
    Exec.Reports (do
      Exec.onImage (Image.fill address size 0)
      let value ← Exec.ask fun machine => machine.image.read table address type
      modify fun machine => { machine with frame := machine.frame.bindSlot name type address size }
      return value) := by
  have filled : Image.Reports (Image.fill address size 0) := Image.reporting.fill address size 0
  refine upholds_bind (Exec.reports_onImage filled) fun _ _ => ?_
  refine upholds_bind (Exec.reports_ask fun machine => ?_) fun value _ => ?_
  · exact machine.image.reported_read table address type
  · exact upholds_bind (upholds_modify fun _ ample => ample) fun _ _ => upholds_pure trivial

section Modest

variable (modest : CType.Modest table written)

include modest

/-- A declaration yields a value of its type, or it has a fault that is reported. -/
theorem declareVariable {type : CType} (arises : CType.Arises table written type) (name : String) :
    Steady table written (Value.Arises table written)
      (Machine.declareVariable table name type) := by
  have yields : Yields (Value.Arises table written)
      (Machine.declareVariable table name type) := by
    refine yields_bind fun slot => yields_bind fun _ => ?_
    refine yields_sequence (P := Value.Arises table written) ?_ fun value h => ?_
    · exact fun _ _ _ found => .read arises (Exec.ask_eq_ok found)
    · exact yields_bind fun _ => yields_pure h
  intro machine typed
  rcases machine.declareVariable_cases table name type with
    ⟨fault, machine', failed, kept⟩ | ⟨value, image, address, size, plan, shape, run⟩
  · rw [failed]
    refine ⟨typed.of_setting kept, ?_⟩
    cases plan : machine.planVariable table name type with
    | error refused =>
      rw [Machine.declareVariable_of_unplanned plan] at failed
      cases failed
      exact (typed.reported_planVariable modest arises name).fault plan
    | ok slot =>
      have asked : Exec.ask (Machine.planVariable table name type) machine = .ok slot machine := by
        simp only [Exec.ask, plan]
      have claimed := reports_claim table name type slot.1 slot.2 machine typed.ample
      rw [Machine.declareVariable, bind_of_ok asked] at failed
      dsimp only at failed
      rw [failed] at claimed
      exact claimed.2
  · rw [run]
    exact ⟨typed.withSlot arises plan shape, yields machine _ _ run⟩

theorem binary (left : v.Arises table written) (right : w.Arises table written) (op : BinaryOp) :
    Steady table written (Value.Arises table written) (Exec.of (Value.binary table op v w)) :=
  of ((left.computed_binary modest right op).answers fun _ found => left.binary right found)

theorem assign (place : v.Arises table written) (source : w.Arises table written)
    (op : AssignOp) :
    Steady table written (Value.Arises table written) (Exec.onImage (v.assign table op w)) :=
  onImage (Image.reporting.assign (Image.reporting.of (place.reported_assigned modest source op)))
    (Primitive.assign op v w).keepsSetting fun _ _ _ found => place.assign source found

theorem element (array : v.Arises table written) (position : w.Arises table written) :
    Steady table written (Value.Arises table written)
      (Exec.onImage (Image.query (v.elementAt table w))) :=
  onImage (Image.reports_query fun image _ => array.reported_elementAt image modest position)
    (Primitive.element v w).keepsSetting
    fun _ _ _ found => array.elementAt position (Image.query_done found).2

end Modest

/-! ## Expressions -/

/-- What expressions need: the types that are written lead to modest ones, and calls of functions
whose types are written do not stop the machine. -/
structure Safe (table : StructTable) (written : List CType) (user : UserCall Exec) : Prop where
  modest : CType.Modest table written
  call : ∀ function arguments, function.types ⊆ written →
    Steady table written (Value.Arises table written) (user function arguments)

section Evaluation

variable {env : Env} {user : UserCall Exec}

theorem callWith (safe : Safe env.structs written user) {callee : Callee}
    (known : Known written callee) (arguments : List Value) :
    Steady env.structs written (Value.Arises env.structs written)
      (callee.callWith user arguments) := by
  cases callee with
  | user function => exact safe.call function arguments (known function rfl)
  | library function => exact library function arguments

mutual

/-- Evaluation of an expression does not stop the machine if the calls in it do not. -/
theorem eval (safe : Safe env.structs written user) : ∀ expr : Expr, expr.types ⊆ written →
    Steady env.structs written (Value.Arises env.structs written) (expr.evalWith env user)
  | .number value, _ => upholds_pure (.rvalue _ (.ofLiteral value))
  | .text literal, _ => intern literal.toList
  | .var name, _ => valueOf name
  | .binary op left right, among => by
    obtain ⟨amongLeft, amongRight⟩ := List.append_subset.mp among
    have evalLeft := eval safe left amongLeft
    have evalRight := eval safe right amongRight
    have truth (b : Bool) : (Value.ofBool b).Arises env.structs written := .rvalue _ .int
    have tested : Steady env.structs written (Value.Arises env.structs written)
        (right.evalWith env user >>= fun v =>
          Exec.of v.condition >>= fun b => pure (Value.ofBool b)) :=
      upholds_bind evalRight fun v _ =>
        upholds_bind (condition v) fun b _ => upholds_pure (truth b)
    cases op
    -- only these two may leave their right side alone
    case and =>
      refine upholds_bind evalLeft fun v _ => upholds_bind (condition v) fun b _ => ?_
      cases b with
      | true => exact tested
      | false => exact upholds_pure (truth false)
    case or =>
      refine upholds_bind evalLeft fun v _ => upholds_bind (condition v) fun b _ => ?_
      cases b with
      | true => exact upholds_pure (truth true)
      | false => exact tested
    all_goals
      exact upholds_bind evalLeft fun v hv => upholds_bind evalRight fun w hw =>
        binary safe.modest hv hw _
  | .unary op operand, among => upholds_bind (eval safe operand among) fun _ h => unary h op
  | .assign op target value, among => by
    obtain ⟨amongValue, amongTarget⟩ := List.append_subset.mp among
    refine upholds_bind (eval safe value amongValue) fun source hs => ?_
    refine upholds_bind (eval safe target amongTarget) fun place hp => ?_
    exact assign safe.modest hp hs op
  | .conditional test whenTrue whenFalse, among => by
    obtain ⟨amongTest, amongRest⟩ := List.append_subset.mp among
    obtain ⟨amongTrue, amongFalse⟩ := List.append_subset.mp amongRest
    have yes := eval safe whenTrue amongTrue
    have no := eval safe whenFalse amongFalse
    refine upholds_bind (eval safe test amongTest) fun v _ => ?_
    refine upholds_bind (condition v) fun b _ => ?_
    cases b with
    | true => exact upholds_bind yes fun value h => upholds_pure h.toRvalue
    | false => exact upholds_bind no fun value h => upholds_pure h.toRvalue
  | .call function arguments, among => by
    refine upholds_bind (functionOf function) fun callee known => ?_
    exact upholds_bind (evalAll safe arguments among) fun values _ => callWith safe known values
  | .index array position, among => by
    obtain ⟨amongArray, amongPosition⟩ := List.append_subset.mp among
    refine upholds_bind (eval safe array amongArray) fun base hb => ?_
    refine upholds_bind (eval safe position amongPosition) fun offset ho => ?_
    exact element safe.modest hb ho
  | .member object field, among => upholds_bind (eval safe object among) fun _ h => member h field
  | .arrow pointer field, among => upholds_bind (eval safe pointer among) fun _ h => arrow h field
  | .cast type operand, among => by
    obtain ⟨here, inside⟩ := List.cons_subset.mp among
    exact upholds_bind (eval safe operand inside) fun v _ => cast v (.written here)
  | .sizeofType type, _ => sizeOf type
  | .sizeofExpr operand, _ => by
    refine upholds_bind (P := fun _ => True) ?_ fun type _ => sizeOf type
    exact ask fun machine _ => operand.reported_typeIn env.structs machine

/-- Neither does the evaluation of arguments. -/
theorem evalAll (safe : Safe env.structs written user) :
    ∀ arguments : List Expr, Expr.typesAll arguments ⊆ written →
    Steady env.structs written (fun _ => True) (Expr.evalAllWith env user arguments)
  | [], _ => upholds_pure trivial
  | argument :: rest, among => by
    obtain ⟨here, later⟩ := List.append_subset.mp among
    refine upholds_bind (eval safe argument here) fun value _ => ?_
    exact upholds_bind (evalAll safe rest later) fun values _ => upholds_pure trivial

end

theorem test (safe : Safe env.structs written user) (expr : Expr) (among : expr.types ⊆ written) :
    Steady env.structs written (fun _ => True) (expr.testWith env user) :=
  upholds_bind (eval safe expr among) fun v _ => condition v

theorem testOrTrue (safe : Safe env.structs written user) (expr : Option Expr)
    (among : Expr.typesOptional expr ⊆ written) :
    Steady env.structs written (fun _ => True) (FlatC.testOrTrue env user expr) := by
  cases expr with
  | none => exact upholds_pure trivial
  | some expr => exact test safe expr among

theorem evalOptional (safe : Safe env.structs written user) (expr : Option Expr)
    (among : Expr.typesOptional expr ⊆ written) :
    Steady env.structs written (fun _ => True) (FlatC.evalOptional env user expr) := by
  cases expr with
  | none => exact upholds_pure trivial
  | some expr => exact upholds_bind (eval safe expr among) fun _ _ => upholds_pure trivial

theorem returnedValue (safe : Safe env.structs written user) (expr : Option Expr)
    (among : Expr.typesOptional expr ⊆ written) :
    Steady env.structs written (fun _ => True) (FlatC.returnedValue env user expr) := by
  cases expr with
  | none => exact upholds_pure trivial
  | some expr => exact upholds_bind (eval safe expr among) fun _ _ => upholds_pure trivial

end Evaluation

/-! ## Loops -/

section Loops

variable {check : Exec Bool} {body : Exec Flow} {after : Exec Unit}

theorem proceed {next : Exec Flow} (flow : Flow)
    (h : Steady table written (fun _ => True) next) :
    Steady table written (fun _ => True) (Loop.proceed flow next) := by
  cases flow with
  | normal | continuing => exact h
  | breaking | returning _ => exact upholds_pure trivial

theorem repeatWhile (limits : Limits) (hc : Steady table written (fun _ => True) check)
    (hb : Steady table written (fun _ => True) body)
    (ha : Steady table written (fun _ => True) after) (left : Nat) :
    Steady table written (fun _ => True) (Loop.repeatWhile limits check body after left) := by
  induction left with
  | zero =>
    refine upholds_bind hc fun more _ => ?_
    cases more with
    | true => exact upholds_bind (start limits 0) fun _ _ => upholds_pure trivial
    | false => exact upholds_pure trivial
  | succ left ih =>
    refine upholds_bind hc fun more _ => ?_
    cases more with
    | true =>
      refine upholds_bind (start limits (left + 1)) fun _ _ => upholds_bind hb fun flow _ => ?_
      exact proceed flow (upholds_bind ha fun _ _ => ih)
    | false => exact upholds_pure trivial

theorem whileTrue (limits : Limits) (hc : Steady table written (fun _ => True) check)
    (hb : Steady table written (fun _ => True) body)
    (ha : Steady table written (fun _ => True) after) :
    Steady table written (fun _ => True) (Loop.whileTrue limits check body after) :=
  repeatWhile limits hc hb ha limits.loopLimit

theorem afterFirst (limits : Limits) (hc : Steady table written (fun _ => True) check)
    (hb : Steady table written (fun _ => True) body) :
    Steady table written (fun _ => True) (Loop.afterFirst limits check body) := by
  refine upholds_bind (start limits limits.loopLimit) fun _ _ => upholds_bind hb fun flow _ => ?_
  exact proceed flow (repeatWhile limits hc hb (upholds_pure trivial) _)

end Loops

/-! ## Statements -/

section Execution

variable {env : Env} {user : UserCall Exec}

theorem declareText (modest : CType.Modest env.structs written) (name literal : String)
    {length : Nat} (arises : CType.Arises env.structs written (.array .char [length])) :
    Steady env.structs written (fun _ => True) (FlatC.declareText env name literal length) := by
  have fitting : UpToOperands (bytesFitting literal length) := by
    unfold bytesFitting
    dsimp only
    split
    · trivial
    · trivial
  refine upholds_bind (declareVariable modest arises name) fun slot _ => ?_
  refine upholds_bind (of fitting.reported) fun bytes _ => ?_
  cases slot.address with
  | none => exact upholds_pure trivial
  | some address =>
    exact onImage (Image.reporting.write address bytes)
      (Exec.keepsSetting_onImage (Image.keepsShape_write address bytes)) fun _ _ _ _ => trivial

theorem declareWith (safe : Safe env.structs written user) (name : String) {type : CType}
    (arises : CType.Arises env.structs written type) (init : Option Expr)
    (among : Expr.typesOptional init ⊆ written) :
    Steady env.structs written (fun _ => True) (FlatC.declareWith env user name type init) := by
  unfold FlatC.declareWith
  cases isText : textArray? type init with
  | some text =>
    have array : type = .array .char [text.2] := by
      unfold textArray? at isText
      split at isText <;> cases isText
      rfl
    subst array
    exact declareText safe.modest name text.1 arises
  | none =>
    have declared := declareVariable safe.modest arises name
    cases init with
    | none => exact upholds_bind declared fun _ _ => upholds_pure trivial
    | some init =>
      refine upholds_bind (eval safe init among) fun value hv => ?_
      refine upholds_bind declared fun slot hs => ?_
      exact upholds_bind (assign safe.modest hs hv .plain) fun _ _ => upholds_pure trivial

/-- A statement moves to its line before anything else. -/
theorem statement {exec : Exec Flow} (stmt : Stmt)
    (h : Steady table written (fun _ => True) exec) :
    Steady table written (fun _ => True)
      (Runner.part (.statement stmt) (Runner.step (Exec.setLine stmt.line) >>= fun _ => exec)) :=
  upholds_bind (setLine stmt.line) fun _ _ => h

mutual

/-- Execution of a statement does not stop the machine if the calls in it do not. -/
theorem exec (safe : Safe env.structs written user) : ∀ stmt : Stmt, stmt.types ⊆ written →
    Steady env.structs written (fun _ => True) (stmt.execWith env user)
  | .declare line name type init, among => by
    obtain ⟨here, inside⟩ := List.cons_subset.mp among
    refine statement _ ?_
    exact upholds_bind (declareWith safe name (.written here) init inside) fun _ _ =>
      upholds_pure trivial
  | .expression line expr, among =>
    statement _ (upholds_bind (eval safe expr among) fun _ _ => upholds_pure trivial)
  | .block line body, among => statement _ (inBlock (execAll safe body among))
  | .ifElse line condition whenTrue whenFalse, among => by
    obtain ⟨amongTest, amongRest⟩ := List.append_subset.mp among
    obtain ⟨amongTrue, amongFalse⟩ := List.append_subset.mp amongRest
    have yes := inBlock (execAll safe whenTrue amongTrue)
    have no := inBlock (execAll safe whenFalse amongFalse)
    refine statement _ (upholds_bind (test safe condition amongTest) fun b _ => ?_)
    cases b with
    | true => exact yes
    | false => exact no
  | .whileLoop line condition body, among => by
    obtain ⟨amongTest, amongBody⟩ := List.append_subset.mp among
    have running := inBlock (execAll safe body amongBody)
    exact statement _ (whileTrue env.limits (test safe condition amongTest) running
      (upholds_pure trivial))
  | .doLoop line body condition, among => by
    obtain ⟨amongTest, amongBody⟩ := List.append_subset.mp among
    have running := inBlock (execAll safe body amongBody)
    exact statement _ (afterFirst env.limits (test safe condition amongTest) running)
  | .forLoop line init condition after body, among => by
    obtain ⟨amongInit, amongRest⟩ := List.append_subset.mp among
    obtain ⟨amongTest, amongRest⟩ := List.append_subset.mp amongRest
    obtain ⟨amongAfter, amongBody⟩ := List.append_subset.mp amongRest
    have running := inBlock (execAll safe body amongBody)
    have tested := testOrTrue safe condition amongTest
    have looping := whileTrue env.limits tested running (evalOptional safe after amongAfter)
    exact statement _ (inBlock (upholds_bind (execInit safe init amongInit) fun _ _ => looping))
  | .returnValue line value, among =>
    statement _ (upholds_bind (returnedValue safe value among) fun _ _ => upholds_pure trivial)
  | .breakLoop line, _ => statement _ (upholds_pure trivial)
  | .continueLoop line, _ => statement _ (upholds_pure trivial)

/-- Neither does that of the first statement of a loop. -/
theorem execInit (safe : Safe env.structs written user) :
    ∀ init : Option Stmt, Stmt.typesInit init ⊆ written →
    Steady env.structs written (fun _ => True) (Stmt.execInitWith env user init)
  | none, _ => upholds_pure trivial
  | some init, among => upholds_bind (exec safe init among) fun _ _ => upholds_pure trivial

/-- Neither does that of statements in order. -/
theorem execAll (safe : Safe env.structs written user) :
    ∀ body : List Stmt, Stmt.typesAll body ⊆ written →
    Steady env.structs written (fun _ => True) (Stmt.execAllWith env user body)
  | [], _ => upholds_pure trivial
  | stmt :: rest, among => by
    obtain ⟨here, later⟩ := List.append_subset.mp among
    refine upholds_bind (exec safe stmt here) fun flow _ => ?_
    cases flow with
    | normal => exact execAll safe rest later
    | breaking | continuing | returning _ => exact upholds_pure trivial

end

end Execution

/-! ## Calls -/

section Calls

variable {env : Env}

theorem storeParams (modest : CType.Modest env.structs written) (params : List BoundParam)
    (arise : ∀ param ∈ params, CType.Arises env.structs written param.type) :
    Steady env.structs written (fun _ => True) (FlatC.storeParams env params) := by
  induction params with
  | nil => exact upholds_pure trivial
  | cons param rest ih =>
    obtain ⟨first, others⟩ := List.forall_mem_cons.mp arise
    refine upholds_bind (declareVariable modest first param.name) fun slot _ => ?_
    cases slot.address with
    | none => exact ih others
    | some address =>
      have stored : Steady env.structs written (fun _ => True)
          (Exec.onImage (param.value.storeAs address param.type)) :=
        onImage (Image.reporting.storeAs param.value address param.type)
          (Exec.keepsSetting_onImage
            (Image.keepingShape.storeAs param.value address param.type))
          fun _ _ _ _ => trivial
      exact upholds_bind stored fun _ _ => ih others

/-- The parameters of a function get slots of types that arise. -/
theorem bindArguments (function : FunctionDef) (among : function.types ⊆ written)
    (arguments : List Value) :
    EndsWith (fun bound => ∀ param ∈ bound, CType.Arises table written param.type)
      Fault.IsReported (function.bindArguments arguments) := by
  unfold FunctionDef.bindArguments
  by_cases counted : arguments.length = function.params.length
  · rw [if_neg (not_not_intro counted)]
    refine (upToOperands_convertAll ..).reported.andThen fun values => ?_
    intro bound mem
    obtain ⟨⟨param, type, value⟩, paired, rfl⟩ := List.mem_map.mp mem
    have typed : type ∈ function.params.map fun param => param.type.decay :=
      (List.of_mem_zip (List.of_mem_zip paired).2).1
    obtain ⟨declared, member, rfl⟩ := List.mem_map.mp typed
    have isWritten : declared.type ∈ function.types :=
      List.mem_cons_of_mem _ (List.mem_append_left _ (List.mem_map_of_mem member))
    exact (CType.Arises.written (among isWritten)).decay
  · rw [if_pos counted]
    exact Fault.isReported_type _

theorem result (function : FunctionDef) (among : function.types ⊆ written) (flow : Flow) :
    EndsWith (Value.Arises table written) Fault.IsReported (function.result flow) := by
  have arises : CType.Arises table written function.returnType :=
    .written (among List.mem_cons_self)
  have refused : UpToOperands (function.result flow) := by
    unfold FunctionDef.result
    split
    · trivial
    · exact (Value.computed_implicit _ _).forget
    · trivial
  exact refused.reported.answers fun _ found =>
    .of_isRvalue (FunctionDef.isRvalue_result found) arises

/-- What follows the checks of a call may go by the function and by its parameters. -/
theorem checked {function : FunctionDef} (among : function.types ⊆ written)
    (arguments : List Value) {next : List Stmt → List BoundParam → Exec α}
    (h : ∀ body params, Stmt.typesAll body ⊆ written →
      (∀ param ∈ params, CType.Arises table written param.type) →
      Steady table written P (next body params)) :
    Steady table written P (Exec.of function.definedBody >>= fun body =>
      Exec.of (function.bindArguments arguments) >>= fun params => next body params) := by
  have defined : EndsWith (fun body => Stmt.typesAll body ⊆ written) Fault.IsReported
      function.definedBody := by
    unfold FunctionDef.definedBody
    split
    · rename_i body found
      refine fun type mem => among (List.mem_cons_of_mem _ (List.mem_append_right _ ?_))
      rwa [found]
    · exact Fault.isReported_type _
  have bound : Steady table written
      (fun bound => ∀ param ∈ bound, CType.Arises table written param.type)
      (Exec.of (function.bindArguments arguments)) := of (bindArguments function among arguments)
  exact upholds_bind (of defined) fun body inside => upholds_bind bound fun params arise =>
    h body params inside arise

/-- However many calls are left, no call of a function whose types are written stops the machine.
The induction is on the calls that are left. -/
theorem callWithin (modest : CType.Modest env.structs written) (left : Nat) :
    Safe env.structs written (callWithin env left) := by
  refine ⟨modest, ?_⟩
  induction left with
  | zero =>
    intro function arguments among
    refine checked among arguments fun body params _ _ => of ?_
    exact nofun
  | succ left ih =>
    intro function arguments among
    refine checked among arguments fun body params inside arise => ?_
    have ran := asCall (upholds_bind (storeParams modest params arise) fun _ _ =>
      execAll ⟨modest, ih⟩ body inside)
    refine upholds_bind (P := fun _ => True) (ask fun _ _ => trivial) fun line _ => ?_
    refine upholds_bind ran fun flow _ => upholds_bind (setLine line) fun _ _ => ?_
    exact of (result function among flow)

/-- What depends on the calls that are left does not stop the machine if it does so with none. -/
theorem withCalls (modest : CType.Modest env.structs written) {inside : UserCall Exec → Exec α}
    (h : ∀ user, Safe env.structs written user → Steady env.structs written P (inside user)) :
    Steady env.structs written P (FlatC.withCalls env inside) :=
  upholds_bind (P := fun _ => True) (ask fun _ _ => trivial) fun left _ =>
    h _ (callWithin modest left)

end Calls

/-! ## Programs -/

theorem declareFunction (name : String) {callee : Callee} (known : Known written callee) :
    Steady table written (fun _ => True) (Machine.declareFunction name callee) := by
  intro machine typed
  have kept : (left (Machine.declareFunction name callee machine)).Typed table written :=
    typed.declareFunction known
  have refused := machine.frame.upToOperands_declareFunction name callee
  unfold Machine.declareFunction at kept ⊢
  cases bound : machine.frame.declareFunction name callee with
  | ok frame =>
    rw [bound] at kept
    exact ⟨kept, trivial⟩
  | error fault => exact ⟨typed, (refused.fault bound).isReported⟩

theorem bindAll (functions : List LibraryFunction) :
    Steady table written (fun _ => True) (FlatC.bindAll functions) := by
  induction functions with
  | nil => exact upholds_pure trivial
  | cons function rest ih => exact upholds_bind (declareFunction function.name nofun) fun _ _ => ih

theorem declareFunctions (functions : List FunctionDef)
    (among : functions.flatMap FunctionDef.types ⊆ written) :
    Steady table written (fun _ => True) (FlatC.declareFunctions functions) := by
  induction functions with
  | nil => exact upholds_pure trivial
  | cons function rest ih =>
    obtain ⟨here, later⟩ := List.append_subset.mp among
    have known : Known written (.user function) := by
      rintro _ ⟨⟩
      exact here
    refine upholds_bind (setLine function.line) fun _ _ => ?_
    exact upholds_bind (declareFunction function.name known) fun _ _ => ih later

theorem executeGlobals {env : Env} (modest : CType.Modest env.structs written)
    (globals : List Stmt) (among : Stmt.typesAll globals ⊆ written) :
    Steady env.structs written (fun _ => True) (FlatC.executeGlobals env globals) := by
  induction globals with
  | nil => exact upholds_pure trivial
  | cons stmt rest ih =>
    obtain ⟨here, later⟩ := List.append_subset.mp among
    exact upholds_bind (withCalls modest fun _ safe => exec safe stmt here) fun _ _ => ih later

/-- The execution of a program does not stop the machine. -/
theorem execute (env : Env) {program : Program} (modest : CType.Modest env.structs program.types) :
    Steady env.structs program.types (fun _ => True) (program.execute env) := by
  obtain ⟨amongFunctions, amongGlobals⟩ := List.append_subset.mp (List.Subset.refl program.types)
  have declared : Steady env.structs program.types (fun _ => True) (program.declare env) :=
    upholds_bind (declareFunctions _ amongFunctions) fun _ _ =>
      executeGlobals modest _ amongGlobals
  refine upholds_bind (bindAll LibraryFunction.all) fun _ _ => inBlock ?_
  refine upholds_bind declared fun _ _ => upholds_bind (functionOf "main") fun main known => ?_
  have called := withCalls modest fun _ safe => callWith safe known []
  exact upholds_bind called fun _ _ => upholds_pure trivial

end Steady

end FlatC

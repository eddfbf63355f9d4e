import FlatC.Proofs.Image.Operation

/-!
# The steps that evaluation is made of

Besides declarations, frames and loops, evaluation takes a small number of kinds of steps: questions
about the machine, operations on memory, and reading and printing.  None of them opens or closes a
frame, binds a name, moves a stack cursor, counts a call, looks at the line or moves to another.

* `Primitive` lists the steps, and `Machine.Question` the questions that they ask;
* `ExecRules` is a property of steps on a machine with its rules, and `ExecRules.library` says that
  calls of library functions have it;
* `AbortingRules` adds rules for what may stop the machine, and `AbortingRules.primitive` says that
  all primitive steps have the property.
-/

namespace FlatC

/-- A question that evaluation asks about a machine, on a program with the given struct types. -/
inductive Machine.Question (table : StructTable) :
    {α : Type} → (Machine → Except Fault α) → Prop where
  | var (name : String) : Question table (Machine.valueOf table name)
  | typeOf (expr : Expr) : Question table fun machine => expr.typeIn table machine
  | text (v : Value) : Question table fun machine => v.readText machine.image
  | length (v : Value) : Question table fun machine => v.textLength machine.image
  | render (pieces : List Print.Piece) (arguments : List Value) :
      Question table fun machine => Print.render machine.image pieces arguments

/-- A step of evaluation on a program with the given struct types.  Function names, declarations,
loops, frames and lines are not among them. -/
inductive Primitive (table : StructTable) : {α : Type} → Exec α → Prop where
  | of {α : Type} (result : Except Fault α) : Primitive table (Exec.of result)
  | var (name : String) : Primitive table (Exec.ask (Machine.valueOf table name))
  | typeOf (expr : Expr) : Primitive table (Exec.ask fun machine => expr.typeIn table machine)
  | intern (text : List Char) : Primitive table (Exec.onImage (Image.intern text))
  | unary (op : UnaryOp) (v : Value) : Primitive table (Exec.onImage (v.unary table op))
  | assign (op : AssignOp) (target source : Value) :
      Primitive table (Exec.onImage (target.assign table op source))
  | element (array position : Value) :
      Primitive table (Exec.onImage (Image.query (array.elementAt table position)))
  | member (object : Value) (field : String) :
      Primitive table (Exec.onImage (Image.query (object.member table field)))
  | arrow (pointer : Value) (field : String) :
      Primitive table (Exec.onImage (Image.query (pointer.arrow table field)))
  | write (address : Nat) (bytes : List UInt8) :
      Primitive table (Exec.onImage (Image.write address bytes))
  | storeAs (value : Value) (address : Nat) (type : CType) :
      Primitive table (Exec.onImage (value.storeAs address type))
  | library (function : LibraryFunction) (arguments : List Value) :
      Primitive table (function.call arguments)

/-! ## Arguments -/

/-- The conversion of arguments may be refused, and nothing else can happen to it. -/
theorem upToOperands_convertAll (function : String) (index : Nat) (types : List CType)
    (arguments : List Value) : UpToOperands (convertAll function index types arguments) := by
  induction types generalizing index arguments with
  | nil => trivial
  | cons type types ih =>
    cases arguments with
    | nil => trivial
    | cons argument arguments =>
      rw [convertAll]
      cases argument.implicit type with
      | ok converted => exact (ih (index + 1) arguments).andThen fun others => trivial
      | error fault => trivial

theorem LibraryFunction.upToOperands_convertArguments (function : LibraryFunction)
    (arguments : List Value) : UpToOperands (function.convertArguments arguments) := by
  unfold convertArguments
  split
  · exact upToOperands_convertAll ..
  · trivial

/-! ## Rules -/

/-- A property of steps on a machine that single steps have and that sequences keep, with one of
steps on its memory. -/
structure ExecRules (table : StructTable) where
  holds {α : Type} : Exec α → Prop
  memory : StoreRules
  answer {α : Type} (a : α) : holds (pure a)
  fault {α : Type} {fault : Fault} : fault.IsReported → holds (throw fault : Exec α)
  sequence {α β : Type} {x : Exec α} {f : α → Exec β} :
    holds x → (∀ a, holds (f a)) → holds (x >>= f)
  ask {α : Type} {question : Machine → Except Fault α} :
    Machine.Question table question → holds (Exec.ask question)
  onImage {α : Type} {step : Store α} : memory.holds step → holds (Exec.onImage step)
  print (text : List Char) : holds (LibraryFunction.print text)
  nextWord : holds Scan.nextWord
  nextChar : holds Scan.nextChar

namespace ExecRules

variable {table : StructTable} (R : ExecRules table) {α : Type}

theorem choose {c : Prop} [Decidable c] {x y : Exec α} (yes : R.holds x) (no : R.holds y) :
    R.holds (if c then x else y) := by
  split
  · exact yes
  · exact no

theorem upTo {P : α → Prop} {result : Except Fault α}
    (h : EndsWith P Fault.IsOfOperands result) : R.holds (Exec.of result) := by
  cases result with
  | ok a => exact R.answer a
  | error fault => exact R.fault h.isReported

/-! ## Formatted input -/

theorem storing (item : Option α) {store : α → Store Unit} (h : ∀ a, R.memory.holds (store a)) :
    R.holds (Scan.storing item store) := by
  unfold Scan.storing
  cases item with
  | none => exact R.answer _
  | some a => exact R.sequence (R.onImage (h a)) fun _ => R.answer _

theorem directive (letter : Char) (target : Value) : R.holds (Scan.directive letter target) := by
  unfold Scan.directive
  refine R.choose (R.fault (Fault.isReported_type _)) ?_
  refine R.sequence (R.upTo target.type.upToOperands_pointee) fun type => ?_
  split
  · refine R.sequence R.nextWord fun word => ?_
    exact R.storing _ fun n => R.memory.storeAs _ _ _
  · refine R.sequence R.nextWord fun word => ?_
    exact R.storing _ fun n => R.memory.storeAs _ _ _
  · refine R.sequence R.nextWord fun word => ?_
    exact R.storing _ fun x => R.memory.storeAs _ _ _
  · refine R.sequence R.nextChar fun c => ?_
    exact R.storing _ fun c => R.memory.storeAs _ _ _
  · refine R.sequence R.nextWord fun word => ?_
    exact R.storing _ fun text => R.memory.write _ _
  · exact R.fault (Fault.isReported_type _)

theorem scan (text : List Char) (targets : List Value) (stored : Nat) :
    R.holds (Scan.run text targets stored) := by
  fun_induction Scan.run text targets stored with
  | case1 => exact R.answer _
  | case2 _ _ _ _ _ ih => exact ih
  | case3 => exact R.fault (Fault.isReported_type _)
  | case4 _ _ _ _ _ ih => exact ih
  | case5 => exact R.fault (Fault.isReported_type _)
  | case6 _ _ _ _ _ _ _ _ ih =>
    refine R.sequence (R.directive _ _) fun found => ?_
    cases found with
    | false => exact R.answer _
    | true => exact ih

/-! ## Library functions -/

theorem textOf (argument : Value) : R.holds (LibraryFunction.textOf argument) :=
  R.ask (.text argument)

theorem lengthOf (argument : Value) : R.holds (LibraryFunction.lengthOf argument) :=
  R.ask (.length argument)

theorem run (function : LibraryFunction) (arguments : List Value) :
    R.holds (function.run arguments) := by
  unfold LibraryFunction.run
  split
  · exact R.onImage (R.memory.allocate _)
  · exact R.onImage (R.memory.allocateZeroed _)
  · refine R.choose (R.sequence (R.onImage (R.memory.release _)) fun _ => ?_) (R.answer _)
    exact R.answer _
  · refine R.sequence (R.textOf _) fun text => ?_
    exact R.sequence (R.onImage (R.memory.write _ _)) fun _ => R.answer _
  · exact R.sequence (R.lengthOf _) fun length => R.answer _
  · refine R.sequence (R.textOf _) fun a => ?_
    exact R.sequence (R.textOf _) fun b => R.answer _
  · refine R.sequence (R.textOf _) fun format => ?_
    refine R.sequence (R.ask (.render _ _)) fun text => ?_
    exact R.sequence (R.print _) fun _ => R.answer _
  · refine R.sequence (R.textOf _) fun text => ?_
    exact R.sequence (R.print _) fun _ => R.answer _
  · exact R.sequence (R.print _) fun _ => R.answer _
  · refine R.sequence (R.textOf _) fun text => ?_
    exact R.sequence (R.scan _ _ _) fun _ => R.answer _
  · exact R.fault nofun
  · exact R.answer _

/-- Calls of library functions have every property with these rules. -/
theorem library (function : LibraryFunction) (arguments : List Value) :
    R.holds (function.call arguments) :=
  R.sequence (R.upTo (function.upToOperands_convertArguments arguments)) fun values =>
    R.run function values

end ExecRules

/-- A property that also steps have which stop the machine. -/
structure AbortingRules (table : StructTable) extends ExecRules table where
  abort {α : Type} (fault : OverflowFault) : holds (throw (.overflow fault) : Exec α)
  abortStore {α : Type} (fault : OverflowFault) : memory.holds (throw (.overflow fault) : Store α)
  element (array position : Value) : memory.holds (Image.query (array.elementAt table position))

namespace AbortingRules

variable {table : StructTable} (R : AbortingRules table) {α : Type}

/-- Whatever a result is, it may be given. -/
theorem of (result : Except Fault α) : R.holds (Exec.of result) := by
  cases result with
  | ok a => exact R.answer a
  | error fault =>
    cases fault with
    | overflow fault => exact R.abort fault
    | type _ | arithmetic _ | memory _ | resource _ | exit _ => exact R.fault nofun

theorem ofStore (result : Except Fault α) : R.memory.holds (Store.of result) := by
  cases result with
  | ok a => exact R.memory.answer a
  | error fault =>
    cases fault with
    | overflow fault => exact R.abortStore fault
    | type _ | arithmetic _ | memory _ | resource _ | exit _ => exact R.memory.fault nofun

/-- Primitive steps have every property with these rules. -/
theorem primitive {exec : Exec α} (h : Primitive table exec) : R.holds exec := by
  cases h with
  | of result => exact R.of result
  | var name => exact R.ask (.var name)
  | typeOf expr => exact R.ask (.typeOf expr)
  | intern text => exact R.onImage (R.memory.intern text)
  | unary op v => exact R.onImage (R.memory.unary table op v)
  | assign op target source => exact R.onImage (R.memory.assign (R.ofStore _))
  | element array position => exact R.onImage (R.element array position)
  | member object field => exact R.onImage (R.memory.ask (.member table object field))
  | arrow pointer field => exact R.onImage (R.memory.ask (.arrow table pointer field))
  | write address bytes => exact R.onImage (R.memory.write address bytes)
  | storeAs value address type => exact R.onImage (R.memory.storeAs value address type)
  | library function arguments => exact R.library function arguments

end AbortingRules

end FlatC

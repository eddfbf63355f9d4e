import FlatC.Number.Width
import FlatC.Proofs.Value.ResultType

/-!
# The types that a program can get to

The values of a run have the types that are written in the program, and others that operators make
of these: pointers to them, what they point at, their elements and fields, and the types of numbers.
There may be no end to them, but all are found from what is written.

* `Expr.types`, `Stmt.types`, `FunctionDef.types` and `Program.types` are the types that are written;
* `CType.Arises` is the types that arise from given ones, and `CType.Arises.binary` and the like say
  that operators lead to no others;
* `CType.Modest` says that all of them leave a word of the address space free.
-/

namespace FlatC

/-! ## Types that are written -/

mutual

/-- The types that an expression gives to values, those of its casts. -/
def Expr.types : Expr → List CType
  | .number _ | .text _ | .var _ | .sizeofType _ | .sizeofExpr _ => []
  | .unary _ operand | .member operand _ | .arrow operand _ => operand.types
  | .binary _ left right | .index left right => left.types ++ right.types
  | .assign _ target value => value.types ++ target.types
  | .conditional test whenTrue whenFalse => test.types ++ (whenTrue.types ++ whenFalse.types)
  | .call _ arguments => Expr.typesAll arguments
  | .cast type operand => type :: operand.types

/-- The types written in the arguments of a call. -/
def Expr.typesAll : List Expr → List CType
  | [] => []
  | argument :: rest => argument.types ++ Expr.typesAll rest

end

/-- The types written in an expression that may be missing. -/
def Expr.typesOptional : Option Expr → List CType
  | some expr => expr.types
  | none => []

mutual

/-- The types that a statement gives to variables and values. -/
def Stmt.types : Stmt → List CType
  | .declare _ _ type init => type :: Expr.typesOptional init
  | .expression _ expr => expr.types
  | .block _ body => Stmt.typesAll body
  | .ifElse _ test whenTrue whenFalse =>
    test.types ++ (Stmt.typesAll whenTrue ++ Stmt.typesAll whenFalse)
  | .whileLoop _ test body | .doLoop _ body test => test.types ++ Stmt.typesAll body
  | .forLoop _ init test after body =>
    Stmt.typesInit init ++
      (Expr.typesOptional test ++ (Expr.typesOptional after ++ Stmt.typesAll body))
  | .returnValue _ value => Expr.typesOptional value
  | .breakLoop _ | .continueLoop _ => []

/-- The types written in the first statement of a loop. -/
def Stmt.typesInit : Option Stmt → List CType
  | some init => init.types
  | none => []

/-- The types written in a list of statements. -/
def Stmt.typesAll : List Stmt → List CType
  | [] => []
  | stmt :: rest => stmt.types ++ Stmt.typesAll rest

end

/-- The types written in a function: that of its result, those of its parameters and those in its
body. -/
def FunctionDef.types (function : FunctionDef) : List CType :=
  function.returnType :: (function.params.map (·.type) ++
    match function.body with
    | some body => Stmt.typesAll body
    | none => [])

/-- The types written in a program. -/
def Program.types (program : Program) : List CType :=
  program.functions.flatMap FunctionDef.types ++ Stmt.typesAll program.globals

/-! ## Types that arise -/

namespace CType

/-- The types that arise from those written: they themselves, the types of numbers, pointers to
types that arise, and what these reach by a dereference or as a field. -/
inductive Arises (table : StructTable) (written : List CType) : CType → Prop where
  | written {type : CType} : type ∈ written → Arises table written type
  | int : Arises table written .int
  | float : Arises table written .float
  | char : Arises table written .char
  | void : Arises table written .void
  | pointer {type : CType} : Arises table written type → Arises table written (.pointer type)
  | pointee {type target : CType} : Arises table written type → type.pointee? = some target →
      Arises table written target
  | field {ref : StructRef} {name : String} {field : Field} :
      Arises table written (.struct ref) → table.field ref name = .ok field →
      Arises table written field.type

/-- Every type that arises and has a size leaves a word of the address space free. -/
def Modest (table : StructTable) (written : List CType) : Prop :=
  ∀ type, Arises table written type → ∀ size, table.sizeOf type = .ok size →
    size + wordSize ≤ wordRange

namespace Arises

variable {table : StructTable} {written : List CType} {s t u : CType}

theorem charPointer : Arises table written .charPointer :=
  .pointer .char

theorem voidPointer : Arises table written .voidPointer :=
  .pointer .void

theorem decay (h : Arises table written t) : Arises table written t.decay := by
  cases t with
  | array element dims =>
    rcases dims with _ | ⟨_, _ | _⟩ <;> exact .pointer (h.pointee rfl)
  | _ => exact h

/-- The innermost element of an array is reached one dimension after the other. -/
theorem element {element : CType} {dims : List Nat}
    (h : Arises table written (.array element dims)) : Arises table written element := by
  induction dims with
  | nil => exact h.pointee rfl
  | cons count dims ih =>
    cases dims with
    | nil => exact h.pointee rfl
    | cons next dims => exact ih (h.pointee rfl)

theorem arithmeticBinary {op : BinaryOp} (typed : arithmeticBinary? op s t = some u) :
    Arises table written u := by
  unfold arithmeticBinary? at typed
  split at typed
  · cases typed
    exact .int
  · split at typed
    · split at typed <;> cases typed
      exact .float
    · cases typed
      exact .int

/-- An operation on a pointer yields the decayed pointer or an `int`. -/
theorem pointerBinary {op : BinaryOp} (h : Arises table written s)
    (typed : pointerBinary? op s t = some u) : Arises table written u := by
  have kinds : u = s.decay ∨ u = .int := by
    unfold pointerBinary? at typed
    dsimp only at typed
    repeat' split at typed
    all_goals simp_all
  rcases kinds with rfl | rfl
  · exact h.decay
  · exact .int

theorem binary {op : BinaryOp} (left : Arises table written s) (right : Arises table written t)
    (typed : CType.binary op s t = .ok u) : Arises table written u := by
  have found := CType.binary_eq_ok.mp typed
  unfold binary? at found
  split at found
  · split at found
    · exact arithmeticBinary found
    · split at found
      · exact right.pointerBinary found
      · cases found
  · split at found
    · exact left.pointerBinary found
    · cases found

theorem dereferenced (h : Arises table written t) (typed : t.dereferenced = .ok u) :
    Arises table written u := by
  have reached := pointee_of_dereferenced typed
  unfold CType.pointee at reached
  cases found : t.pointee? with
  | none => simp [found] at reached
  | some target =>
    simp only [found] at reached
    cases reached
    exact h.pointee found

theorem unary {op : UnaryOp} (h : Arises table written t)
    (typed : CType.unaryResult op t = .ok u) : Arises table written u := by
  by_cases isDeref : op = .deref
  · subst isDeref
    exact h.dereferenced typed
  · have found : unary? op t = some u := by
      cases op <;> first | exact absurd rfl isDeref | exact unary_eq_ok.mp typed
    have kinds : u = .int ∨ u = .float ∨ u = t ∨ u = .pointer t := by
      unfold unary? arithmeticUnary? at found
      grind
    rcases kinds with rfl | rfl | rfl | rfl
    · exact .int
    · exact .float
    · exact h
    · exact .pointer h

theorem fieldType {name : String} (h : Arises table written t)
    (typed : t.fieldType table name = .ok u) : Arises table written u := by
  cases t with
  | struct ref =>
    obtain ⟨field, found, typed⟩ := bind_eq_ok.mp typed
    cases typed
    exact h.field found
  | _ => cases typed

theorem ofLiteral (x : Binary64) : Arises table written (.ofLiteral x) := by
  unfold CType.ofLiteral
  split
  · exact .float
  · split
    · exact .char
    · exact .int

end Arises

/-- The elements of a type that arises are no larger than any type that does. -/
theorem Modest.elementSize_le {table : StructTable} {written : List CType} {type : CType}
    {size : Nat} (modest : Modest table written) (h : Arises table written type)
    (sized : table.elementSize type = .ok size) : size + wordSize ≤ wordRange := by
  cases type with
  | array element dims => exact modest element h.element size sized
  | _ => exact modest _ h size sized

/-! ## Plain types -/

/-- The type is that of a number, or of pointers to numbers, to pointers and so on. -/
def isPlain : CType → Bool
  | .int | .float | .char | .void => true
  | .pointer target => target.isPlain
  | .array _ _ | .struct _ | .function => false

/-- Plain types lead to plain types alone. -/
theorem Arises.isPlain {table : StructTable} {written : List CType}
    (plain : ∀ type ∈ written, type.isPlain = true) {type : CType}
    (h : Arises table written type) : type.isPlain = true := by
  induction h with
  | written mem => exact plain _ mem
  | int | float | char | void => rfl
  | pointer _ ih => exact ih
  | pointee _ reached ih =>
    rename_i type target _
    cases type with
    | pointer => cases reached; exact ih
    | array => cases ih
    | int | float | char | void | struct | function => cases reached
  | field _ _ ih => cases ih

/-- So they lead to modest types. -/
theorem modest_of_isPlain {table : StructTable} {written : List CType}
    (plain : ∀ type ∈ written, type.isPlain = true) : Modest table written := by
  intro type arises size sized
  have isPlain := arises.isPlain plain
  cases type with
  | int | float | char | void | pointer => cases sized; decide
  | array | struct | function => cases isPlain

end CType

end FlatC

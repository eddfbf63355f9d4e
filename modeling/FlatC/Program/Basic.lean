import FlatC.CType.Struct
import FlatC.Number.Binary64

/-!
# Programs

The tree of a program: expressions, statements, functions and file-scope items.  Statements and
functions carry the line they stand on.
-/

namespace FlatC

/-- An expression. -/
inductive Expr where
  /-- A number, whose type follows from its value. -/
  | number (value : Binary64)
  /-- A text literal. -/
  | text (literal : String)
  /-- A variable. -/
  | var (name : String)
  | binary (op : BinaryOp) (left right : Expr)
  | unary (op : UnaryOp) (operand : Expr)
  | assign (op : AssignOp) (target value : Expr)
  /-- One of two branches, chosen by a condition. -/
  | conditional (test whenTrue whenFalse : Expr)
  | call (function : String) (arguments : List Expr)
  /-- An element of an array. -/
  | index (array position : Expr)
  /-- A field of a struct. -/
  | member (object : Expr) (field : String)
  /-- A field of a struct behind a pointer. -/
  | arrow (pointer : Expr) (field : String)
  | cast (type : CType) (operand : Expr)
  /-- The size of a type. -/
  | sizeofType (type : CType)
  /-- The size of the type of an expression, which is not evaluated. -/
  | sizeofExpr (operand : Expr)
deriving Repr, Inhabited

/-- A statement, with its line. -/
inductive Stmt where
  /-- Declares a variable, with an optional initial value. -/
  | declare (line : Nat) (name : String) (type : CType) (init : Option Expr)
  | expression (line : Nat) (expr : Expr)
  /-- Statements in a scope of their own. -/
  | block (line : Nat) (body : List Stmt)
  /-- A choice between two scopes; a missing branch is an empty one. -/
  | ifElse (line : Nat) (test : Expr) (whenTrue whenFalse : List Stmt)
  | whileLoop (line : Nat) (test : Expr) (body : List Stmt)
  | doLoop (line : Nat) (body : List Stmt) (test : Expr)
  /-- A loop with a first statement, a condition and a last expression, all optional. -/
  | forLoop (line : Nat) (init : Option Stmt) (test after : Option Expr) (body : List Stmt)
  | returnValue (line : Nat) (value : Option Expr)
  | breakLoop (line : Nat)
  | continueLoop (line : Nat)
deriving Repr, Inhabited

/-- The line of a statement. -/
def Stmt.line : Stmt → Nat
  | .declare line .. | .expression line _ | .block line _ | .ifElse line .. | .whileLoop line ..
  | .doLoop line .. | .forLoop line .. | .returnValue line _ | .breakLoop line
  | .continueLoop line => line

/-- A parameter of a function. -/
structure Param where
  name : String
  type : CType
deriving DecidableEq, Repr, Inhabited

/-- A function; without a body it is a prototype. -/
structure FunctionDef where
  name : String
  returnType : CType
  params : List Param
  body : Option (List Stmt)
  line : Nat
deriving Repr, Inhabited

/-- The text of a function type, which declarations of one function must share. -/
def signatureText (result : CType) (params : List String) : String :=
  result.spelling ++ "(" ++ ",".intercalate params ++ ")"

/-- The signature of a function. -/
def FunctionDef.signature (function : FunctionDef) : String :=
  signatureText function.returnType (function.params.map fun param => param.type.spelling)

/-- Whether the function has a body. -/
def FunctionDef.isDefined (function : FunctionDef) : Bool :=
  function.body.isSome

/-- The functions and file-scope statements of a program, each in the order of the program. -/
structure Program where
  functions : List FunctionDef
  globals : List Stmt
deriving Repr, Inhabited

end FlatC

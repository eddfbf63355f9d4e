import FlatC.Program.Basic

/-!
# Library functions

The functions that every program finds without defining them, with their types.
-/

namespace FlatC

/-- A function of the library. -/
inductive LibraryFunction where
  | malloc | calloc | free
  | strcpy | strlen | strcmp
  | printf | puts | putchar
  | scanf
  | exit
deriving DecidableEq, Repr, Inhabited

namespace LibraryFunction

/-- Every library function, in the order in which they are declared. -/
def all : List LibraryFunction :=
  [malloc, calloc, free, strcpy, strlen, strcmp, printf, puts, putchar, scanf, exit]

/-- The name of the function. -/
def name : LibraryFunction → String
  | malloc => "malloc"
  | calloc => "calloc"
  | free => "free"
  | strcpy => "strcpy"
  | strlen => "strlen"
  | strcmp => "strcmp"
  | printf => "printf"
  | puts => "puts"
  | putchar => "putchar"
  | scanf => "scanf"
  | exit => "exit"

/-- The type of its result. -/
def returnType : LibraryFunction → CType
  | malloc | calloc => .voidPointer
  | strcpy => .charPointer
  | free | exit => .void
  | strlen | strcmp | printf | puts | putchar | scanf => .int

/-- The types of its parameters, without those behind a format text. -/
def params : LibraryFunction → List CType
  | malloc | putchar | exit => [.int]
  | calloc => [.int, .int]
  | free => [.voidPointer]
  | strcpy | strcmp => [.charPointer, .charPointer]
  | strlen | puts | printf | scanf => [.charPointer]

/-- Whether further arguments may follow. -/
def isVariadic : LibraryFunction → Bool
  | printf | scanf => true
  | _ => false

/-- The signature of the function. -/
def signature (function : LibraryFunction) : String :=
  signatureText function.returnType
    (function.params.map CType.spelling ++ if function.isVariadic then ["..."] else [])

end LibraryFunction

/-- Something that can be called by its name. -/
inductive Callee where
  /-- A function of the program. -/
  | user (function : FunctionDef)
  /-- A function of the library. -/
  | library (function : LibraryFunction)
deriving Repr, Inhabited

namespace Callee

/-- The name of the function. -/
def name : Callee → String
  | .user function => function.name
  | .library function => function.name

/-- The signature of the function. -/
def signature : Callee → String
  | .user function => function.signature
  | .library function => function.signature

/-- Whether there is something to run; prototypes have nothing. -/
def isDefined : Callee → Bool
  | .user function => function.isDefined
  | .library _ => true

/-- The type of its result. -/
def returnType : Callee → CType
  | .user function => function.returnType
  | .library function => function.returnType

end Callee

end FlatC

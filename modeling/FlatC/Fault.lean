import FlatC.CType.Basic
import FlatC.Operator

/-!
# Faults

Everything that can stop a step of the machine, by cause, and the text of each.  A fault keeps the
types, names and numbers it is about; only `message` turns them into words.
-/

namespace FlatC

/-- What an expression without an address was used for. -/
inductive AddressUse where
  /-- Its address was asked for. -/
  | addressOf
  /-- It was to be incremented or decremented. -/
  | step (op : UnaryOp)
  /-- It was to be assigned to. -/
  | assign (op : AssignOp)
deriving DecidableEq, Repr

/-- What is wrong with a format text or with the arguments for it. -/
inductive FormatFault where
  /-- The text ends after a percent sign. -/
  | unfinished
  /-- A directive has no argument left. -/
  | missingArgument
  /-- A directive got an argument of the wrong type. -/
  | mismatch (directive : Char) (expected : String) (got : CType)
  /-- There is no such directive. -/
  | unsupported (directive : Char)
deriving DecidableEq, Repr

/-- Wrong use of types, operators and names. -/
inductive TypeFault where
  | illegalCast (source target : CType) (explicit : Bool)
  | invalidOperands (op : BinaryOp) (left right : CType)
  | invalidUnaryOperand (op : UnaryOp) (operand : CType)
  | notAnLvalue (use : AddressUse)
  | notDereferenceable (type : CType)
  /-- Values of the type cannot be written to memory as a unit. -/
  | notStorable (type : CType)
  | incompleteType (type : CType)
  /-- The size of the type does not fit the address space. -/
  | tooLarge (type : CType)
  | redefinition (name : String)
  | conflictingSignature (name existing new : String)
  | undeclaredSymbol (name : String)
  | undefinedFunction (name : String)
  | notCallable (name : String)
  /-- A function was named where a value is needed. -/
  | notAValue (name : String)
  | argumentCount (function : String) (expected got : Nat)
  | argumentType (function : String) (index : Nat) (expected got : CType)
  | missingField (type : CType) (field : String)
  | notAStruct (type : CType)
  | invalidFormat (function : String) (fault : FormatFault)
deriving DecidableEq, Repr

/-- A right operand of zero. -/
inductive ArithmeticFault where
  | divisionByZero
  | moduloByZero
deriving DecidableEq, Repr

/-- Why regions of the asked sizes cannot form an image. -/
inductive LayoutFault where
  /-- The read-only region does not cover the guard of the null address. -/
  | guardUncovered (size guard : Nat)
  /-- The heap is too small for a block or too large for its length field. -/
  | heapSize (size least most : Nat)
  /-- The regions do not fit the address space. -/
  | addressSpace
deriving DecidableEq, Repr

/-- Failures of the memory image. -/
inductive MemoryFault where
  | outOfBounds (address size : Nat)
  | nullDereference
  | readOnlyWrite (address : Nat)
  | outOfMemory (requested : Nat)
  | readOnlyExhausted (requested available : Nat)
  | stackOverflow (requested available : Nat)
  /-- The address is not a live allocation. -/
  | invalidFree (address : Nat)
  | invalidAllocationSize (size : Int)
  | unterminatedString (address : Nat)
  /-- The tag at the address does not describe a block. -/
  | heapCorrupted (address : Nat)
  | invalidLayout (fault : LayoutFault)
deriving DecidableEq, Repr

/-- An exhausted budget. -/
inductive ResourceFault where
  | runawayLoop (limit : Nat)
  | callDepth (limit : Nat)
deriving DecidableEq, Repr

/-- An operation of the machine itself whose result does not fit the width of its numbers. -/
inductive OverflowFault where
  | add
  | subtract
  | multiply
deriving DecidableEq, Repr

/-- The reason a step stopped. -/
inductive Fault where
  | type (fault : TypeFault)
  | arithmetic (fault : ArithmeticFault)
  | memory (fault : MemoryFault)
  | resource (fault : ResourceFault)
  /-- The machine could not compute an address.  Nothing in the program answers to this: the run is
  aborted, and no failure is reported. -/
  | overflow (fault : OverflowFault)
  /-- The program asked to end with a status. -/
  | exit (status : Int)
deriving DecidableEq, Repr

/-! ## Texts -/

/-- A natural number as text. -/
private def numberText (n : Nat) : String :=
  String.ofList (Decimal.digits n)

/-- An address as text. -/
def addressText (address : Nat) : String :=
  "0x" ++ String.ofList (Decimal.hexText address)

/-- The letter that marks a plural, for a count other than one. -/
private def plural (count : Nat) : String :=
  if count = 1 then "" else "s"

/-- The text of a use that needs an address. -/
def AddressUse.message : AddressUse → String
  | .addressOf => "unary '&'"
  | .step op => "'" ++ op.symbol ++ "'"
  | .assign op => "'" ++ op.symbol ++ "'"

/-- The text of a format fault. -/
def FormatFault.message : FormatFault → String
  | .unfinished => "format ends after '%'"
  | .missingArgument => "not enough arguments for format string"
  | .mismatch directive expected got =>
    "%" ++ directive.toString ++ " expects " ++ expected ++ ", got '" ++ got.spelling ++ "'"
  | .unsupported directive => "unsupported format specifier: %" ++ directive.toString

/-- The text of a type fault. -/
def TypeFault.message : TypeFault → String
  | .illegalCast source target explicit =>
    "cannot " ++ (if explicit then "explicitly" else "implicitly") ++ " cast '" ++
      source.spelling ++ "' to '" ++ target.spelling ++ "'"
  | .invalidOperands op left right =>
    "invalid operands to '" ++ op.symbol ++ "' ('" ++ left.spelling ++ "' and '" ++
      right.spelling ++ "')"
  | .invalidUnaryOperand op operand =>
    "invalid operand to unary '" ++ op.symbol ++ "' ('" ++ operand.spelling ++ "')"
  | .notAnLvalue use => use.message ++ " requires an lvalue"
  | .notDereferenceable type =>
    "cannot dereference a value of type '" ++ type.spelling ++ "'"
  | .notStorable type =>
    "values of type '" ++ type.spelling ++ "' cannot be stored directly"
  | .incompleteType type => "type '" ++ type.spelling ++ "' is incomplete"
  | .tooLarge type => "type '" ++ type.spelling ++ "' is too large"
  | .redefinition name => "redefinition of '" ++ name ++ "'"
  | .conflictingSignature name existing new =>
    "conflicting types for '" ++ name ++ "': '" ++ existing ++ "' vs '" ++ new ++ "'"
  | .undeclaredSymbol name => "'" ++ name ++ "' undeclared"
  | .undefinedFunction name => "function '" ++ name ++ "' declared but never defined"
  | .notCallable name => "'" ++ name ++ "' is not a function"
  | .notAValue name => "function '" ++ name ++ "' used as a value"
  | .argumentCount function expected got =>
    "function '" ++ function ++ "' expects " ++ numberText expected ++ " argument" ++
      plural expected ++ ", got " ++ numberText got
  | .argumentType function index expected got =>
    "argument " ++ numberText (index + 1) ++ " of '" ++ function ++ "' expects '" ++
      expected.spelling ++ "', got '" ++ got.spelling ++ "'"
  | .missingField type field =>
    "'" ++ type.spelling ++ "' has no field named '" ++ field ++ "'"
  | .notAStruct type => "member access on non-struct type '" ++ type.spelling ++ "'"
  | .invalidFormat function fault => function ++ ": " ++ fault.message

/-- The text of an arithmetic fault. -/
def ArithmeticFault.message : ArithmeticFault → String
  | .divisionByZero => "division by zero"
  | .moduloByZero => "modulo by zero"

/-- The text of a layout fault. -/
def LayoutFault.message : LayoutFault → String
  | .guardUncovered size guard =>
    "read-only region of " ++ numberText size ++ " bytes is smaller than the " ++
      numberText guard ++ " byte NULL guard"
  | .heapSize size least most =>
    "heap of " ++ numberText size ++ " bytes must be between " ++ numberText least ++ " and " ++
      numberText most ++ " bytes"
  | .addressSpace => "regions exceed the 32-bit address space"

/-- The text of a memory fault. -/
def MemoryFault.message : MemoryFault → String
  | .outOfBounds address size =>
    "access of " ++ numberText size ++ " byte" ++ plural size ++ " at " ++ addressText address ++
      " is out of bounds"
  | .nullDereference => "null pointer dereference"
  | .readOnlyWrite address => "write to read-only memory at " ++ addressText address
  | .outOfMemory requested =>
    "out of heap memory: requested " ++ numberText requested ++ " bytes"
  | .readOnlyExhausted requested available =>
    "read-only region exhausted: requested " ++ numberText requested ++ " bytes, " ++
      numberText available ++ " available"
  | .stackOverflow requested available =>
    "stack overflow: requested " ++ numberText requested ++ " bytes, " ++
      numberText available ++ " available"
  | .invalidFree address =>
    "invalid free: " ++ addressText address ++ " is not a live allocation"
  | .invalidAllocationSize size =>
    "invalid allocation size: " ++ String.ofList (Decimal.intText size) ++ " (must be positive)"
  | .unterminatedString address =>
    "string at " ++ addressText address ++ " is missing its terminator"
  | .heapCorrupted address =>
    "heap corrupted: invalid block tag at " ++ addressText address
  | .invalidLayout fault => "invalid memory layout: " ++ fault.message

/-- The text of a resource fault. -/
def ResourceFault.message : ResourceFault → String
  | .runawayLoop limit => "loop exceeded " ++ numberText limit ++ " iterations"
  | .callDepth limit => "call depth exceeded " ++ numberText limit ++ " frames"

/-- The text of an overflow. -/
def OverflowFault.message : OverflowFault → String
  | .add => "attempt to add with overflow"
  | .subtract => "attempt to subtract with overflow"
  | .multiply => "attempt to multiply with overflow"

/-- The text of a fault, with the group it belongs to in front. -/
def Fault.message : Fault → String
  | .type fault => "Type error: " ++ fault.message
  | .arithmetic fault => "Arithmetic error: " ++ fault.message
  | .memory fault => "Memory error: " ++ fault.message
  | .resource fault => "Resource exceeded: " ++ fault.message
  | .overflow fault => fault.message
  | .exit status => "Program exited with status " ++ String.ofList (Decimal.intText status)

/-- Whether the fault is a request to end with success. -/
def Fault.isCleanExit : Fault → Bool
  | .exit status => status == 0
  | _ => false

/-- A fault together with the line that was being executed. -/
structure Failure where
  fault : Fault
  line : Nat
deriving DecidableEq, Repr

/-- The text of a failure: the fault and its line. -/
def Failure.message (failure : Failure) : String :=
  failure.fault.message ++ " at line " ++ numberText failure.line

end FlatC

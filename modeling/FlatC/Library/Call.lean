import FlatC.Heap.Release
import FlatC.Library.Print
import FlatC.Library.Scan
import FlatC.Text.Order

/-!
# Calls of library functions

* `LibraryFunction.convertArguments` checks and converts the arguments of a call;
* `LibraryFunction.call` runs it.
-/

namespace FlatC

/-- Converts arguments to the types of their parameters, in order.  The argument at `index` is
named in the fault when it does not convert. -/
def convertAll (function : String) : (index : Nat) → List CType → List Value →
    Except Fault (List Value)
  | index, type :: types, argument :: arguments => do
    let converted ←
      match argument.implicit type with
      | .ok converted => pure converted
      | .error _ => throw (.type (.argumentType function index type argument.type))
    let others ← convertAll function (index + 1) types arguments
    return converted :: others
  | _, _, arguments => .ok arguments

namespace LibraryFunction

/-- Whether a call with `count` arguments is complete. -/
def takesCount (function : LibraryFunction) (count : Nat) : Bool :=
  if function.isVariadic then function.params.length ≤ count
  else count == function.params.length

/-- Checks the number of arguments and converts those that have a parameter. -/
def convertArguments (function : LibraryFunction) (arguments : List Value) :
    Except Fault (List Value) :=
  if function.takesCount arguments.length then
    convertAll function.name 0 function.params arguments
  else
    .error (.type (.argumentCount function.name function.params.length arguments.length))

/-- The text an argument points to. -/
def textOf (argument : Value) : Exec (List Char) :=
  Exec.ask fun machine => argument.readText machine.image

/-- The length of the text an argument points to. -/
def lengthOf (argument : Value) : Exec Nat :=
  Exec.ask fun machine => argument.textLength machine.image

/-- Prints a text. -/
def print (text : List Char) : Exec Unit :=
  Exec.console (·.print text)

/-- The order of two texts, as a number. -/
def textOrder (a b : List Char) : Int :=
  match Text.order a b with
  | .lt => -1
  | .eq => 0
  | .gt => 1

/-- Allocates memory and fills it with zeros. -/
def allocateZeroed (size : Int) : Store Value := do
  let pointer ← Image.allocate size
  Image.fill pointer.toAddress size.toNat 0
  return pointer

/-- Runs a library function on converted arguments. -/
def run (function : LibraryFunction) (arguments : List Value) : Exec Value := do
  match function, arguments with
  | malloc, size :: _ => Exec.onImage (Image.allocate size.toInt32)
  | calloc, count :: size :: _ => Exec.onImage (allocateZeroed (count.toInt32 * size.toInt32))
  | free, pointer :: _ =>
    if pointer.toAddress ≠ 0 then
      Exec.onImage (Image.release pointer.toAddress)
    return .void
  | strcpy, target :: source :: _ =>
    let text ← textOf source
    Exec.onImage (Image.writeText target.toAddress text)
    return target
  | strlen, source :: _ =>
    let length ← lengthOf source
    return .ofInt length
  | strcmp, left :: right :: _ =>
    let a ← textOf left
    let b ← textOf right
    return .ofInt (textOrder a b)
  | printf, format :: rest =>
    let pieces := Print.pieces (← textOf format)
    let text ← Exec.ask fun machine => Print.render machine.image pieces rest
    print text
    return .ofInt text.length
  | puts, source :: _ =>
    let text ← textOf source
    print (text ++ ['\n'])
    return .ofInt (text.length + 1)
  | putchar, c :: _ =>
    let code := (c.toInt32 % byteRange).toNat
    print [Char.ofNat code]
    return .ofInt code
  | scanf, format :: rest =>
    let text ← textOf format
    let stored ← Scan.run text rest 0
    return .ofInt stored
  | exit, status :: _ => throw (.exit status.toInt32)
  | _, _ => return .void

/-- Calls a library function. -/
def call (function : LibraryFunction) (arguments : List Value) : Exec Value := do
  let converted ← Exec.of (function.convertArguments arguments)
  function.run converted

end LibraryFunction

end FlatC

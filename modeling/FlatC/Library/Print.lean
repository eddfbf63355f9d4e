import FlatC.Decimal.Fixed
import FlatC.Value.Place

/-!
# Formatted output

A format text is read into pieces first: characters to be copied, and directives that take an
argument each.  A directive is a percent sign, an optional precision and a letter.

* `Print.pieces` reads a format text;
* `Print.render` writes the pieces with their arguments.
-/

namespace FlatC.Print

/-- A part of a format text. -/
inductive Piece where
  /-- A character to be copied. -/
  | char (c : Char)
  /-- A directive with its precision and its letter. -/
  | directive (precision : Option Nat) (letter : Char)
deriving DecidableEq, Repr, Inhabited

/-- Where the reader of a format text is. -/
inductive Mode where
  /-- Between directives. -/
  | copying
  /-- Behind a percent sign. -/
  | percent
  /-- Among the digits of a precision. -/
  | precision (digits : List Char)
deriving DecidableEq, Repr, Inhabited

/-- The precision that a run of digits stands for; none at all, and one beyond 64 bits, stand for
zero. -/
def precisionValue (digits : List Char) : Nat :=
  let value := Decimal.digitsValue digits
  if value < longRange then value else 0

/-- The piece of a finished directive.  The percent sign as a letter stands for itself. -/
def finished (precision : Option Nat) (letter : Char) : Piece :=
  if letter = '%' then .char '%' else .directive precision letter

/-- Reads the pieces of a format text.  A text that ends inside a directive ends in a percent
sign. -/
def piecesFrom : Mode → List Char → List Piece
  | .copying, [] => []
  | .copying, c :: rest =>
    if c = '%' then piecesFrom .percent rest else .char c :: piecesFrom .copying rest
  | .percent, [] => [.char '%']
  | .percent, c :: rest =>
    if c = '.' then piecesFrom (.precision []) rest
    else finished none c :: piecesFrom .copying rest
  | .precision _, [] => [.char '%']
  | .precision digits, c :: rest =>
    if c.isDigit then piecesFrom (.precision (digits ++ [c])) rest
    else finished (some (precisionValue digits)) c :: piecesFrom .copying rest

/-- The pieces of a format text. -/
def pieces (text : List Char) : List Piece :=
  piecesFrom .copying text

/-- A fault of a format text for output. -/
def outputFault (fault : FormatFault) : Fault :=
  .type (.invalidFormat "printf" fault)

/-- A whole number as its directive writes it. -/
def wholeText (letter : Char) (n : Int) : List Char :=
  match letter with
  | 'u' => Decimal.digits (n % wordRange).toNat
  | 'x' => Decimal.hexText (n % wordRange).toNat
  | 'c' => [Char.ofNat (n % byteRange).toNat]
  | _ => Decimal.intText n

/-- The text of one directive. -/
def directiveText (image : Image) (precision : Option Nat) (letter : Char) (argument : Value) :
    Except Fault (List Char) :=
  let type := argument.type
  let mismatch (expected : String) := outputFault (.mismatch letter expected type)
  match letter with
  | 'd' | 'i' | 'u' | 'x' | 'c' =>
    if type.isWhole then .ok (wholeText letter argument.toInt32)
    else .error (mismatch "int or char")
  | 'f' =>
    if type.isArithmetic then .ok (Decimal.fixedText (precision.getD 6) argument.number)
    else .error (mismatch "float")
  | 's' =>
    if type.isPointerLike then image.readText argument.toAddress
    else .error (mismatch "char*")
  | 'p' =>
    if type.isPointerLike then .ok ('0' :: 'x' :: Decimal.hexText argument.toAddress)
    else .error (mismatch "a pointer")
  | _ => .error (outputFault (.unsupported letter))

/-- The text of all pieces; each directive takes the next argument. -/
def render (image : Image) : List Piece → List Value → Except Fault (List Char)
  | [], _ => .ok []
  | .char c :: rest, arguments => do
    let text ← render image rest arguments
    return c :: text
  | .directive .. :: _, [] => .error (outputFault .missingArgument)
  | .directive precision letter :: rest, argument :: arguments => do
    let text ← directiveText image precision letter argument
    let others ← render image rest arguments
    return text ++ others

end FlatC.Print

import FlatC.Decimal.Reader
import FlatC.Machine.Basic

/-!
# Formatted input

Each directive of a format text reads a word or a character of the input and stores it behind the
next argument, which must be a pointer.  Reading stops at the first directive whose input is
missing or is no number; the answer is the count of things stored.  What stands between
directives has no effect.
-/

namespace FlatC.Scan

/-- A fault of a format text for input. -/
def inputFault (fault : FormatFault) : Fault :=
  .type (.invalidFormat "scanf" fault)

/-- Takes the next word of the input. -/
def nextWord : Exec (Option (List Char)) :=
  modifyGet fun ⟨image, frame, openers, console⟩ =>
    let (word, console) := console.nextWord
    (word, ⟨image, frame, openers, console⟩)

/-- Takes the next character of the input. -/
def nextChar : Exec (Option Char) :=
  modifyGet fun ⟨image, frame, openers, console⟩ =>
    let (c, console) := console.nextChar
    (c, ⟨image, frame, openers, console⟩)

/-- Runs a store for something read, and says whether there was something. -/
def storing {α : Type} (item : Option α) (store : α → Store Unit) : Exec Bool := do
  match item with
  | some item =>
    Exec.onImage (store item)
    return true
  | none => return false

/-- Reads the input of one directive and stores it; `false` if there was nothing to store. -/
def directive (letter : Char) (target : Value) : Exec Bool := do
  if !target.type.isPointerLike then
    throw (inputFault (.mismatch letter "a pointer" target.type))
  let type ← Exec.of target.type.pointee
  let address := target.toAddress
  match letter with
  | 'd' | 'i' =>
    let word ← nextWord
    storing (word.bind Decimal.readInt64?) fun n => (Value.ofInt n).storeAs address type
  | 'f' =>
    let word ← nextWord
    storing (word.bind Decimal.readBinary64?) fun x => (Value.rvalue x .float).storeAs address type
  | 'c' =>
    let c ← nextChar
    storing c fun c =>
      (Value.rvalue (.ofNat (Text.encodeChar c).toNat) .char).storeAs address type
  | 's' =>
    let word ← nextWord
    storing word (Image.writeText address)
  | _ => throw (inputFault (.unsupported letter))

/-- Runs the directives of a format text on their targets, `stored` having been stored before. -/
def run : List Char → List Value → (stored : Nat) → Exec Nat
  | [], _, stored => pure stored
  | c :: rest, targets, stored =>
    if c ≠ '%' then run rest targets stored
    else
      match rest with
      | [] => throw (inputFault .unfinished)
      | letter :: rest =>
        if letter = '%' then run rest targets stored
        else
          match targets with
          | [] => throw (inputFault .missingArgument)
          | target :: targets => do
            if ← directive letter target then run rest targets (stored + 1)
            else return stored

end FlatC.Scan

import FlatC.Fault
import FlatC.Text.Blank

/-!
# The console

What a run keeps besides memory and scopes: the text it has printed, the input it has not read
yet, the line being executed, and the counters that bound loops and calls.

* `Console.nextWord` and `Console.nextChar` read from the same pending input;
* `Console.countIteration` holds a loop to its `Limits`, and `Console.enterCall` says when one more
  call may be opened.

Evaluation does not ask `Console.enterCall`: it carries along how many calls may still be opened, so
that it is seen to end.  That comes to the same, by `callWithin_eq_enterCall`.
-/

namespace FlatC

/-- The budgets of a run. -/
structure Limits where
  /-- Iterations that one execution of a loop may start. -/
  loopLimit : Nat := 0x100000
  /-- Calls of program functions that may be open at once. -/
  maxCallDepth : Nat := 256
deriving DecidableEq, Repr, Inhabited

/-- Output, input, line and counters of a run. -/
structure Console where
  /-- Everything printed so far. -/
  output : String
  /-- The input that has not been read. -/
  pending : List Char
  /-- The line being executed. -/
  line : Nat
  /-- Open calls of program functions. -/
  callDepth : Nat
  /-- Loop iterations started so far, over all loops. -/
  iterations : Nat
deriving DecidableEq, Repr, Inhabited

/-- A step on a console.  Whether it succeeds or fails, it leaves a console behind. -/
abbrev ConsoleStep (α : Type) : Type := EStateM Fault Console α

namespace Console

/-- The console at the start of a run. -/
def start (input : List Char) : Console :=
  { output := "", pending := input, line := 0, callDepth := 0, iterations := 0 }

/-! ## Output -/

/-- Appends text to the output. -/
def print (console : Console) (text : List Char) : Console :=
  { console with output := console.output ++ String.ofList text }

/-- The output line by line, without an empty last line. -/
def outputLines (console : Console) : List String :=
  let lines := console.output.splitOn "\n"
  if lines.getLast? = some "" then lines.dropLast else lines

/-- The console with nothing printed. -/
def clearOutput (console : Console) : Console :=
  { console with output := "" }

/-! ## Input -/

/-- Skips blanks and takes the word behind them, if any input is left. -/
def nextWord (console : Console) : Option (List Char) × Console :=
  let rest := console.pending.dropWhile Text.isBlank
  let word := rest.takeWhile fun c => !Text.isBlank c
  let console := { console with pending := rest.dropWhile fun c => !Text.isBlank c }
  if word.isEmpty then (none, console) else (some word, console)

/-- Takes one character, blank or not, if any input is left. -/
def nextChar (console : Console) : Option Char × Console :=
  match console.pending with
  | [] => (none, console)
  | c :: rest => (some c, { console with pending := rest })

/-! ## Lines and budgets -/

/-- Moves to a line. -/
def setLine (console : Console) (line : Nat) : Console :=
  { console with line := line }

/-- Adds one to the count of iterations. -/
def addIteration (console : Console) : Console :=
  { console with iterations := console.iterations + 1 }

/-- Counts one more iteration of a loop that has started `soFar` of them.  The count grows even
when the budget is spent. -/
def countIteration (limits : Limits) (soFar : Nat) : ConsoleStep Unit := fun console =>
  if soFar < limits.loopLimit then .ok () console.addIteration
  else .error (.resource (.runawayLoop limits.loopLimit)) console.addIteration

/-- One more open call. -/
def deepen (console : Console) : Console :=
  { console with callDepth := console.callDepth + 1 }

/-- One open call less. -/
def exitCall (console : Console) : Console :=
  { console with callDepth := console.callDepth - 1 }

/-- Opens a call, unless as many as allowed are open.  This is what the number of calls that
evaluation carries along amounts to. -/
def enterCall (limits : Limits) : ConsoleStep Unit := fun console =>
  if console.callDepth < limits.maxCallDepth then .ok () console.deepen
  else .error (.resource (.callDepth limits.maxCallDepth)) console

end Console

end FlatC

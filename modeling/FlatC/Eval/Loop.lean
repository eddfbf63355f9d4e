import FlatC.Machine.Runner

/-!
# Flow and loops

A statement ends normally, or by one of the ways to leave a loop or a function.  All three loops
of the language are one scheme: a test before each iteration, a body, and a step after it.  A loop
that tests after its body is one iteration without a test, and then the same scheme.

* `Flow` is how a statement ended;
* `Loop.repeatWhile` runs the scheme with a given number of iterations left;
* `Loop.whileTrue` and `Loop.afterFirst` are the loops of the language.
-/

namespace FlatC

/-- How a statement ended. -/
inductive Flow where
  /-- At its end. -/
  | normal
  /-- By leaving a loop. -/
  | breaking
  /-- By going on with the next iteration of a loop. -/
  | continuing
  /-- By leaving a function, with the value to return if there is one. -/
  | returning (value : Option Value)
deriving Inhabited

namespace Loop

open Runner

variable {μ : Type → Type} [Monad μ] [Runner μ]

/-- Counts the start of an iteration when `left` of them are left; with none left, the loop has
run away. -/
def start (limits : Limits) (left : Nat) : Exec Unit :=
  Exec.onConsole (Console.countIteration limits (limits.loopLimit - left))

/-- Runs `next` if the body ended so that the loop goes on, and ends the loop otherwise. -/
@[specialize] def proceed (flow : Flow) (next : μ Flow) : μ Flow :=
  match flow with
  | .normal | .continuing => next
  | .breaking => pure .normal
  | .returning value => pure (.returning value)

/-- Repeats a body and a step after it as long as a test holds, with `left` iterations left. -/
@[specialize] def repeatWhile (limits : Limits) (test : μ Bool) (body : μ Flow) (after : μ Unit) :
    (left : Nat) → μ Flow
  | 0 => do
    if ← test then
      step (start limits 0)
      return .normal
    else
      return .normal
  | left + 1 => do
    if ← test then
      step (start limits (left + 1))
      let flow ← part .iteration body
      proceed flow do
        after
        repeatWhile limits test body after left
    else
      return .normal

/-- A loop that tests before each iteration. -/
@[specialize] def whileTrue (limits : Limits) (test : μ Bool) (body : μ Flow) (after : μ Unit) :
    μ Flow :=
  part .loop (repeatWhile limits test body after limits.loopLimit)

/-- A loop that tests after each iteration. -/
@[specialize] def afterFirst (limits : Limits) (test : μ Bool) (body : μ Flow) : μ Flow :=
  part .loop do
    step (start limits limits.loopLimit)
    let flow ← part .iteration body
    proceed flow (repeatWhile limits test body (pure ()) (limits.loopLimit - 1))

end Loop

end FlatC

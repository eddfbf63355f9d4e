import FlatC.Proofs.Eval.Congruence

/-!
# Larger budgets change nothing but runs that exceed them

Two runs of one program with different budgets take the same steps until the one with the smaller
budgets runs out of them.  Nothing in evaluation looks at a budget but the start of an iteration
and the opening of a call, and nothing catches the fault of a budget that is spent.

* `Exec.Agrees` is the relation between the two runs;
* `Exec.growing` says that all rules of evaluation keep it.
-/

namespace FlatC

namespace Exec

open Step

variable {α β : Type}

/-- From every machine the first step ends like the second, or in a spent budget. -/
def Agrees (x y : Exec α) : Prop :=
  ∀ machine, x machine = y machine ∨ ∃ fault machine', x machine = .error (.resource fault) machine'

namespace Agrees

variable {x y : Exec α} {f g : α → Exec β}

theorem refl (x : Exec α) : Agrees x x :=
  fun _ => Or.inl rfl

/-- What starts by spending a budget agrees with everything. -/
theorem of_spent {z : Exec β}
    (h : ∀ machine, ∃ fault machine', x machine = .error (.resource fault) machine') :
    Agrees (x >>= f) z := by
  intro machine
  obtain ⟨fault, machine', spent⟩ := h machine
  exact Or.inr ⟨fault, machine', bind_of_error spent⟩

theorem bind (first : Agrees x y) (next : ∀ a, Agrees (f a) (g a)) :
    Agrees (x >>= f) (y >>= g) := by
  intro machine
  rcases first machine with same | ⟨fault, machine', spent⟩
  · cases h : x machine with
    | ok a machine' =>
      rw [bind_of_ok h, bind_of_ok (same.symm.trans h)]
      exact next a machine'
    | error fault machine' =>
      rw [bind_of_error h, bind_of_error (same.symm.trans h)]
      exact Or.inl rfl
  · exact Or.inr ⟨fault, machine', bind_of_error spent⟩

theorem between (before after : Machine → Machine) (inside : Agrees x y) :
    Agrees (Runner.between before after x) (Runner.between before after y) := by
  intro machine
  rcases inside (before machine) with same | ⟨fault, machine', spent⟩
  · left
    simp only [Runner.between, same]
  · right
    exact ⟨fault, after machine', by simp only [Runner.between, spent]⟩

theorem ite {b : Bool} {x' y' : Exec α} (yes : Agrees x y) (no : Agrees x' y') :
    Agrees (if b then x else x') (if b then y else y') := by
  cases b with
  | true => exact yes
  | false => exact no

/-! ### Loops -/

section Loops

variable {limits limits' : Limits} {test test' : Exec Bool} {body body' : Exec Flow}
  {after after' : Exec Unit}

theorem proceed {next next' : Exec Flow} (flow : Flow) (h : Agrees next next') :
    Agrees (Loop.proceed flow next) (Loop.proceed flow next') := by
  cases flow with
  | normal | continuing => exact h
  | breaking | returning _ => exact refl _

/-- Without iterations left the next one is refused. -/
theorem start_zero (machine : Machine) :
    ∃ fault machine', Loop.start limits 0 machine = .error (.resource fault) machine' := by
  simp [Loop.start, Exec.onConsole, Console.countIteration]

/-- An iteration that the smaller budget allows is started alike. -/
theorem start_succ {extra count : Nat} (total : limits'.loopLimit = limits.loopLimit + extra)
    (le : count + 1 ≤ limits.loopLimit) :
    Loop.start limits (count + 1) = Loop.start limits' (count + extra + 1) := by
  have soFar : limits'.loopLimit - (count + extra + 1) = limits.loopLimit - (count + 1) := by omega
  have allowed : limits.loopLimit - (count + 1) < limits.loopLimit := by omega
  have allowed' : limits.loopLimit - (count + 1) < limits'.loopLimit := by omega
  funext machine
  simp only [Loop.start, Exec.onConsole, Console.countIteration, soFar, if_pos allowed,
    if_pos allowed']

theorem repeatWhile {extra : Nat} (total : limits'.loopLimit = limits.loopLimit + extra)
    (ht : Agrees test test') (hb : Agrees body body') (ha : Agrees after after') (count : Nat)
    (le : count ≤ limits.loopLimit) :
    Agrees (Loop.repeatWhile limits test body after count)
      (Loop.repeatWhile limits' test' body' after' (count + extra)) := by
  induction count with
  | zero =>
    cases extra with
    | zero => exact bind ht fun more => ite (of_spent start_zero) (refl _)
    | succ extra => exact bind ht fun more => ite (of_spent start_zero) (refl _)
  | succ count ih =>
    rw [Nat.add_right_comm]
    refine bind ht fun more => ite ?_ (refl _)
    rw [start_succ total le]
    refine bind (refl _) fun _ => bind hb fun flow => proceed flow ?_
    exact bind ha fun _ => ih (Nat.le_of_succ_le le)

theorem whileTrue (le : limits.loopLimit ≤ limits'.loopLimit) (ht : Agrees test test')
    (hb : Agrees body body') (ha : Agrees after after') :
    Agrees (Loop.whileTrue limits test body after) (Loop.whileTrue limits' test' body' after') := by
  obtain ⟨extra, total⟩ := Nat.exists_eq_add_of_le le
  have repeated := repeatWhile total ht hb ha limits.loopLimit (Nat.le_refl _)
  rw [← total] at repeated
  exact repeated

theorem afterFirst (le : limits.loopLimit ≤ limits'.loopLimit) (ht : Agrees test test')
    (hb : Agrees body body') :
    Agrees (Loop.afterFirst limits test body) (Loop.afterFirst limits' test' body') := by
  obtain ⟨extra, total⟩ := Nat.exists_eq_add_of_le le
  unfold Loop.afterFirst
  cases budget : limits.loopLimit with
  | zero => exact of_spent start_zero
  | succ count =>
    have more : limits'.loopLimit = count + extra + 1 := by omega
    have allowed : count + 1 ≤ limits.loopLimit := by omega
    rw [more, start_succ total allowed]
    refine bind (refl _) fun _ => bind hb fun flow => proceed flow ?_
    exact repeatWhile total ht hb (refl _) count (by omega)

end Loops

end Agrees

/-! ## Evaluation -/

/-- The rules of evaluation keep the agreement, from smaller to larger budgets. -/
def growingParts (table : StructTable) {limits limits' : Limits}
    (le : limits.loopLimit ≤ limits'.loopLimit) : Congruence Exec Exec table limits limits' where
  rel _ x y := Agrees x y
  known _ := True
  weaken h _ := h
  answer _ := .refl _
  sequence := .bind
  step _ := .refl _
  check result _ _ h := by
    cases result with
    | ok a => exact fun machine => h a rfl machine
    | error fault => exact fun _ => Or.inl rfl
  declare _ _ := .refl _
  lookup _ _ _ h := .bind (.refl _) fun callee => h callee trivial
  part _ _ h := h
  statement _ h := .bind (.refl _) fun _ => h
  inFrame h := .between _ _ h
  whileTrue := .whileTrue le
  afterFirst := .afterFirst le

open Congruence in
/-- Calls agree if the larger budget has at least as many calls left. -/
theorem agrees_callWithin (table : StructTable) {limits limits' : Limits}
    (le : limits.loopLimit ≤ limits'.loopLimit) (count : Nat) : ∀ count', count ≤ count' →
    (growingParts table le).CallsRelated 0 (callWithin ⟨table, limits⟩ count)
      (callWithin ⟨table, limits'⟩ count') := by
  induction count with
  | zero =>
    intro count' _ function arguments _
    cases count' with
    | zero | succ _ =>
      refine Agrees.bind (.refl _) fun body => Agrees.bind (.refl _) fun params => ?_
      exact fun machine => Or.inr ⟨_, _, rfl⟩
  | succ count ih =>
    intro count' more function arguments _
    obtain ⟨count', rfl⟩ : ∃ fewer, count' = fewer + 1 := ⟨count' - 1, by omega⟩
    refine callWithin_succ (C := growingParts table le) (n := 0) function arguments (.refl _)
      (fun _ => .refl _) ?_
    intro params body _
    have inside := callBody (ih count' (Nat.le_of_succ_le_succ more)) params body
    exact Agrees.between _ _ (Agrees.between _ _ inside)

/-- The rules of a run keep the agreement, from smaller to larger budgets. -/
def growing (table : StructTable) {limits limits' : Limits}
    (loops : limits.loopLimit ≤ limits'.loopLimit)
    (calls : limits.maxCallDepth ≤ limits'.maxCallDepth) :
    RunCongruence Exec Exec table limits limits' where
  toCongruence := growingParts table loops
  call := 0
  library _ := trivial
  setLine _ := .refl _
  bindFunction _ _ _ := .refl _
  withCalls h machine := by
    have more : machine.callsLeft ⟨table, limits⟩ ≤ machine.callsLeft ⟨table, limits'⟩ :=
      Nat.sub_le_sub_right calls _
    exact h _ _ (agrees_callWithin table loops _ _ more) machine

theorem agrees_execute (table : StructTable) {limits limits' : Limits}
    (loops : limits.loopLimit ≤ limits'.loopLimit)
    (calls : limits.maxCallDepth ≤ limits'.maxCallDepth) (program : Program) :
    Agrees (program.execute ⟨table, limits⟩) (program.execute ⟨table, limits'⟩) :=
  RunCongruence.execute (C := growing table loops calls) program fun _ _ => trivial

end Exec

/-! ## Runs -/

/-- A run that has not exceeded its budgets has the same outcome under all larger ones: the same
end, output, rest of the input, line, count of iterations and open calls. -/
theorem run_unchanged_by_larger_budgets (structs : StructTable) (regions : Regions)
    (input : String) (program : Program) (limits limits' : Limits)
    (loops : limits.loopLimit ≤ limits'.loopLimit)
    (calls : limits.maxCallDepth ≤ limits'.maxCallDepth)
    (enough : ∀ fault line,
      (program.run structs ⟨regions, limits⟩ input).ending ≠ .failed ⟨.resource fault, line⟩) :
    program.run structs ⟨regions, limits'⟩ input = program.run structs ⟨regions, limits⟩ input := by
  unfold Program.run at enough ⊢
  cases created : Image.create regions with
  | error fault => rfl
  | ok image =>
    simp only [created] at enough ⊢
    rcases Exec.agrees_execute structs loops calls program
      (Machine.start image (Console.start input.toList)) with same | ⟨fault, machine, spent⟩
    · rw [same]
    · rw [spent] at enough
      exact absurd rfl (enough fault machine.console.line)

/-- A program that halves a number in a loop, by calls, until it is one. -/
def halving : Program :=
  { functions :=
      [⟨"half", .int, [⟨"n", .int⟩],
          some [.returnValue 2 (some (.binary .div (.var "n") (.number (.ofNat 2))))], 1⟩,
        ⟨"main", .int, [],
          some
            [.declare 4 "n" .int (some (.number (.ofNat 4))),
              .whileLoop 5 (.binary .gt (.var "n") (.number (.ofNat 1)))
                [.expression 6 (.assign .plain (.var "n") (.call "half" [.var "n"]))],
              .returnValue 7 (some (.var "n"))], 3⟩]
    globals := [] }

/-- Two iterations and two open calls are just enough for it, so all larger budgets give the same
outcome. -/
theorem halving_unchanged_by_larger_budgets :
    (halving.run .empty ⟨⟨4, 16, 32, .reclaim⟩, ⟨2, 2⟩⟩ "").ending = .finished 1 ∧
    halving.run .empty ⟨⟨4, 16, 32, .reclaim⟩, ⟨1000, 256⟩⟩ "" =
      halving.run .empty ⟨⟨4, 16, 32, .reclaim⟩, ⟨2, 2⟩⟩ "" := by
  have ending : (halving.run .empty ⟨⟨4, 16, 32, .reclaim⟩, ⟨2, 2⟩⟩ "").ending = .finished 1 := by
    decide +kernel
  refine ⟨ending, run_unchanged_by_larger_budgets .empty ⟨4, 16, 32, .reclaim⟩ "" halving ⟨2, 2⟩
    ⟨1000, 256⟩ (by decide) (by decide) fun fault line spent => ?_⟩
  rw [ending] at spent
  cases spent

end FlatC

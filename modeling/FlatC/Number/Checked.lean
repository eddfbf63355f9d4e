import FlatC.Fault
import FlatC.Number.Width

/-!
# Numbers of a fixed width

Addresses and the distances between them are computed in numbers of a fixed width.  A result that
does not fit is not wrapped: the computation stops there.

* `checkedWord` is for unsigned 32-bit numbers;
* `checkedLong` is for signed 64-bit numbers, which distances are computed in.
-/

namespace FlatC

/-- The result of an operation on unsigned 32-bit numbers. -/
def checkedWord (operation : OverflowFault) (n : Nat) : Except Fault Nat :=
  if n < wordRange then .ok n else .error (.overflow operation)

theorem checkedWord_of_lt {operation : OverflowFault} {n : Nat} (fits : n < wordRange) :
    checkedWord operation n = .ok n :=
  if_pos fits

theorem checkedWord_of_le {operation : OverflowFault} {n : Nat} (large : wordRange ≤ n) :
    checkedWord operation n = .error (.overflow operation) :=
  if_neg (Nat.not_lt.mpr large)

theorem checkedWord_eq_ok {operation : OverflowFault} {n m : Nat} :
    checkedWord operation n = .ok m ↔ n < wordRange ∧ n = m := by
  unfold checkedWord
  split <;> simp [*]

/-- The number is one of the signed 64-bit numbers. -/
def FitsLong (n : Int) : Prop :=
  -longTop ≤ n ∧ n < longTop

instance (n : Int) : Decidable (FitsLong n) :=
  inferInstanceAs (Decidable (_ ∧ _))

/-- The result of an operation on signed 64-bit numbers. -/
def checkedLong (operation : OverflowFault) (n : Int) : Except Fault Int :=
  if FitsLong n then .ok n else .error (.overflow operation)

theorem checkedLong_of_fits {operation : OverflowFault} {n : Int} (fits : FitsLong n) :
    checkedLong operation n = .ok n :=
  if_pos fits

theorem checkedLong_of_not_fits {operation : OverflowFault} {n : Int} (large : ¬ FitsLong n) :
    checkedLong operation n = .error (.overflow operation) :=
  if_neg large

end FlatC

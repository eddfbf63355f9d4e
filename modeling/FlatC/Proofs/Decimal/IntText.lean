import FlatC.Decimal.Digits
import FlatC.Text.Blank

/-!
# Whole numbers in base ten

A whole number is written as its digits, behind a minus sign if it is negative.  The text is a word
of the input: it is not empty, and none of its characters is blank.  Read again as a signed 64-bit
number, it gives the number that was written.

* `Decimal.readInt64?_intText` is the way there and back;
* `Decimal.intText_ne_nil` and `Decimal.isBlank_of_mem_intText` make the text a word.
-/

namespace FlatC.Decimal

variable {c : Char}

/-! ## Digits -/

theorem isDigit_of_mem_digits {n : Nat} (among : c ∈ digits n) : c.isDigit = true :=
  Nat.isDigit_of_mem_toDigits (by decide) (by decide) among

theorem digitsValue_digits (n : Nat) : digitsValue (digits n) = n :=
  Nat.ofDigitChars_ten_toDigits

theorem digits_ne_nil (n : Nat) : digits n ≠ [] :=
  Nat.toDigits_ne_nil

/-- Digits are not taken for a sign. -/
theorem splitSign_digits (n : Nat) : splitSign (digits n) = (false, digits n) := by
  unfold splitSign
  split
  case h_1 rest start | h_2 rest start =>
    exact absurd (isDigit_of_mem_digits (start ▸ List.mem_cons_self)) (by decide)
  case h_3 => rfl

/-- The ranges of blanks end before the digits or start behind them. -/
theorem isBlank_of_isDigit (digit : c.isDigit = true) : Text.isBlank c = false := by
  obtain ⟨lower, upper⟩ := Char.isDigit_iff_toNat.mp digit
  have apart : ∀ range ∈ Text.blankRanges, range.2 < '0'.toNat ∨ '9'.toNat < range.1 := by decide
  refine List.any_eq_false.mpr fun range among => ?_
  have outside := apart range among
  simp only [Bool.and_eq_true, decide_eq_true_eq]
  omega

/-! ## Signed numbers -/

theorem splitSign_intText (n : Int) :
    splitSign (intText n) = (decide (n < 0), digits n.natAbs) := by
  unfold intText
  by_cases negative : n < 0
  · rw [if_pos negative, decide_eq_true negative]
    rfl
  · rw [if_neg negative, decide_eq_false negative, splitSign_digits]

theorem intText_ne_nil (n : Int) : intText n ≠ [] := by
  unfold intText
  split
  · exact List.cons_ne_nil _ _
  · exact digits_ne_nil _

theorem isBlank_of_mem_intText {n : Int} (among : c ∈ intText n) : Text.isBlank c = false := by
  unfold intText at among
  split at among
  · rcases List.mem_cons.mp among with rfl | digit
    · decide
    · exact isBlank_of_isDigit (isDigit_of_mem_digits digit)
  · exact isBlank_of_isDigit (isDigit_of_mem_digits among)

/-- A signed 64-bit number is read back as it was written. -/
theorem readInt64?_intText {n : Int} (lower : -longTop ≤ n) (upper : n < longTop) :
    readInt64? (intText n) = some n := by
  have digits : (digits n.natAbs).all Char.isDigit = true :=
    List.all_eq_true.mpr fun _ => isDigit_of_mem_digits
  have some : (Decimal.digits n.natAbs).isEmpty = false := by simpa using digits_ne_nil n.natAbs
  have value : (if decide (n < 0) = true then -(n.natAbs : Int) else n.natAbs) = n := by
    by_cases negative : n < 0
    · rw [if_pos (decide_eq_true negative)]
      omega
    · rw [if_neg (by simpa using negative)]
      omega
  simp only [readInt64?, splitSign_intText, digits, some, digitsValue_digits, value, lower, upper,
    Bool.not_true, Bool.or_self, Bool.false_eq_true, and_self, if_true, if_false]

/-- The least number that can be read has no positive counterpart. -/
example : readInt64? (intText (-9223372036854775808)) = some (-9223372036854775808) ∧
    readInt64? (intText 9223372036854775808) = none := by
  decide +kernel

end FlatC.Decimal

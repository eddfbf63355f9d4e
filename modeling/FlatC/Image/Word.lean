/-!
# Little-endian words

Numbers of several bytes are stored with their lowest byte first.

* `Word.toBytes` and `Word.ofBytes` relate numbers and bytes;
* `Word.ofBytes_toBytes` says that a word reads back, up to its width.
-/

namespace FlatC.Word

/-- The lowest `count` bytes of a number, lowest first. -/
def toBytes : (count : Nat) → (word : Nat) → List UInt8
  | 0, _ => []
  | count + 1, word => (word % 256).toUInt8 :: toBytes count (word / 256)

/-- The number of a run of bytes, lowest first. -/
def ofBytes : List UInt8 → Nat
  | [] => 0
  | byte :: rest => byte.toNat + 256 * ofBytes rest

@[simp] theorem length_toBytes (count word : Nat) : (toBytes count word).length = count := by
  induction count generalizing word with
  | zero => rfl
  | succ count ih => simp [toBytes, ih]

/-- A word reads back as its low bytes. -/
theorem ofBytes_toBytes (count word : Nat) :
    ofBytes (toBytes count word) = word % Nat.pow 256 count := by
  induction count generalizing word with
  | zero => simp [toBytes, ofBytes, Nat.mod_one]
  | succ count ih =>
    have low : (word % 256).toUInt8.toNat = word % 256 := by simp
    have grow : Nat.pow 256 (count + 1) = 256 * Nat.pow 256 count := Nat.mul_comm _ _
    rw [toBytes, ofBytes, ih, low, grow, Nat.mod_mul]

end FlatC.Word

/-!
# Widths of stored numbers

How many numbers fit the widths that memory and conversions deal in.
-/

namespace FlatC

/-- The number of byte patterns. -/
def byteRange : Nat := 0x100

/-- The number of 32-bit patterns.  Addresses and sizes stay below it. -/
def wordRange : Nat := 0x100000000

/-- Half the number of 32-bit patterns: the weight of the top bit of a word. -/
def wordTop : Nat := 0x80000000

/-- The number of 64-bit patterns. -/
def longRange : Nat := 0x10000000000000000

/-- Half the number of 64-bit patterns.  Signed 64-bit numbers lie below it and not below its
negative. -/
def longTop : Nat := 0x8000000000000000

end FlatC

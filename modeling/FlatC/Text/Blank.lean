/-!
# Blank characters

The characters with the Unicode property `White_Space`: they separate the words of an input.
-/

namespace FlatC.Text

/-- Whether a character lies in one of some ranges, given by first and last code point. -/
def isWithin (ranges : List (Nat × Nat)) (c : Char) : Bool :=
  ranges.any fun (first, last) => first ≤ c.toNat && c.toNat ≤ last

/-- The ranges of blank characters, first and last code point, in increasing order. -/
def blankRanges : List (Nat × Nat) :=
  [(0x09, 0x0d), (0x20, 0x20), (0x85, 0x85), (0xa0, 0xa0), (0x1680, 0x1680), (0x2000, 0x200a),
    (0x2028, 0x2029), (0x202f, 0x202f), (0x205f, 0x205f), (0x3000, 0x3000)]

/-- Whether a character is blank. -/
def isBlank (c : Char) : Bool :=
  isWithin blankRanges c

end FlatC.Text

/-!
# Latin-1 text

A stored text has one byte for each character: the characters up to `U+00FF` are their own
bytes, and any other character is stored as a question mark.

* `encode` and `decode` relate texts and bytes;
* `decode_encode` says that a text of Latin-1 characters survives storage;
* `literalBody` takes the quotes off a literal, if the text has them.
-/

namespace FlatC.Text

/-- The byte of one character. -/
def encodeChar (c : Char) : UInt8 :=
  if c.toNat < 256 then c.toNat.toUInt8 else '?'.toNat.toUInt8

/-- The character of one byte. -/
def decodeByte (b : UInt8) : Char :=
  Char.ofNat b.toNat

/-- The bytes of a text, one for each character. -/
def encode (text : List Char) : List UInt8 :=
  text.map encodeChar

/-- The text of a run of bytes. -/
def decode (bytes : List UInt8) : List Char :=
  bytes.map decodeByte

@[simp] theorem length_encode (text : List Char) : (encode text).length = text.length := by
  simp [encode]

@[simp] theorem length_decode (bytes : List UInt8) : (decode bytes).length = bytes.length := by
  simp [decode]

/-- A Latin-1 character is stored as itself. -/
theorem decodeByte_encodeChar {c : Char} (h : c.toNat < 256) : decodeByte (encodeChar c) = c := by
  have : c.toNat.toUInt8.toNat = c.toNat := by simp; omega
  rw [decodeByte, encodeChar, if_pos h, this, Char.ofNat_toNat]

/-- A text of Latin-1 characters survives storage. -/
theorem decode_encode {text : List Char} (h : ∀ c ∈ text, c.toNat < 256) :
    decode (encode text) = text := by
  induction text with
  | nil => rfl
  | cons c rest ih =>
    have head := decodeByte_encodeChar (h c List.mem_cons_self)
    have tail := ih fun d hd => h d (List.mem_cons_of_mem c hd)
    simp only [decode, encode, List.map_cons, List.map_map] at tail ⊢
    rw [head, tail]

/-- The text of a literal without the double quotes around it.  A text that does not both start
and end with a quote is left as it is, and so is a lone quote. -/
def literalBody : List Char → List Char
  | '"' :: rest => if rest.getLast? = some '"' then rest.dropLast else '"' :: rest
  | text => text

end FlatC.Text

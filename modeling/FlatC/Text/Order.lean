/-!
# The order of texts

Two texts are compared by the bytes that write them in UTF-8, from the first byte on, and a text
comes before every longer one that it begins.
-/

namespace FlatC.Text

/-- The bytes of a text in UTF-8. -/
def utf8 (text : List Char) : List UInt8 :=
  text.flatMap String.utf8EncodeChar

/-- How two texts compare. -/
def order (a b : List Char) : Ordering :=
  compare (utf8 a) (utf8 b)

end FlatC.Text

import FlatC.Image.Access
import FlatC.Value.Basic

/-!
# Text literals

Each text literal has one place in the read-only region.  The same text, with or without quotes
around it, always has the same address.
-/

namespace FlatC.Image

/-- The address of a literal that has been placed. -/
def literalAddress? (image : Image) (body : List Char) : Option Nat :=
  image.literals.lookup body

/-- The image with a new literal at the top of the used part of the read-only region. -/
def placeLiteral (image : Image) (body : List Char) : Image :=
  let address := image.readOnlyTop
  let data := Text.encode body ++ [0]
  { image.put address data with
    readOnlyTop := address + data.length
    literals := (body, address) :: image.literals }

/-- A pointer to the place of a literal, which is claimed if the text is new. -/
def intern (text : List Char) : Store Value := fun image =>
  let body := Text.literalBody text
  match image.literalAddress? body with
  | some address => .ok (.pointerTo address .charPointer) image
  | none =>
    let needed := body.length + 1
    if image.readOnlyAvailable < needed then
      .error (.memory (.readOnlyExhausted needed image.readOnlyAvailable)) image
    else
      let address := image.readOnlyTop
      .ok (.pointerTo address .charPointer) (image.placeLiteral body)

end FlatC.Image

import FlatC.CType.Basic

/-!
# Conversions between types

Which conversions happen without being asked for, and which a cast may ask for.
-/

namespace FlatC.CType

/-- Conversions of a type that is no array. -/
def convertsPlainly (source target : CType) : Bool :=
  match source with
  | .int | .char => target.isArithmetic
  | .float => target.isFloat
  | .pointer _ =>
    target.isPointer && (source.same target || source.isVoidPointer || target.isVoidPointer)
  | .struct _ => source.same target
  | .array .. | .void | .function => false

/-- Whether a value of type `source` may be used where `target` is wanted.  An array converts as
the pointer it decays to. -/
def convertsTo (source target : CType) : Bool :=
  source.decay.convertsPlainly target

/-- Whether a cast may ask for the conversion from `source` to `target`. -/
def castsTo (source target : CType) : Bool :=
  source.convertsTo target ||
    match source.decay with
    | .int | .char => target.isPointer
    | .float => target.isWhole
    | .pointer _ =>
      target.isPointer ||
        match target with
        | .int => true
        | _ => false
    | _ => false

end FlatC.CType

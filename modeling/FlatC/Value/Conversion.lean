import FlatC.Value.Basic

/-!
# Conversions of values

* `Value.castTo` gives a value another type, whether or not the language allows it;
* `Value.implicit` converts where no cast is written;
* `Value.explicit` converts where a cast is written.

The null constant converts to any pointer type.
-/

namespace FlatC.Value

/-- The number of a value of type `source`, as a conversion to `target` takes it up.  A `float`
loses its fraction on the way to another type, and a number on its way to `char` is reduced to a
byte before it is fitted. -/
def carried (x : Binary64) (source target : CType) : Binary64 :=
  if source.same target || (source.isPointerLike && target.isPointer) then x
  else
    let whole := if source.isFloat then x.trunc else x
    match target with
    | .char => whole.remEuclid 256
    | _ => whole

/-- The value as a value of another type.  With `keepAddress` it still names the same place. -/
def castTo (v : Value) (target : CType) (keepAddress : Bool) : Value :=
  { number := target.fit (carried v.number v.type target)
    type := target
    address := if keepAddress then v.address else none }

@[simp] theorem type_castTo (v : Value) (target : CType) (keepAddress : Bool) :
    (v.castTo target keepAddress).type = target := rfl

/-- Conversion without a cast: in assignments, arguments and returned values. -/
def implicit (v : Value) (target : CType) : Except Fault Value :=
  if v.type.convertsTo target || (target.isPointer && v.isNullConstant) then
    .ok (v.castTo target false)
  else .error (.type (.illegalCast v.type target false))

/-- Conversion by a cast. -/
def explicit (v : Value) (target : CType) : Except Fault Value :=
  if v.type.castsTo target || (target.isPointer && v.isNullConstant) then
    .ok (v.castTo target false)
  else .error (.type (.illegalCast v.type target true))

end FlatC.Value

import FlatC.Decimal.Digits

/-!
# Types

The types of the language, how they are spelled, when two of them are the same type, and the
classes of types that the rules speak of.

* `CType.spelling` writes a type and `CType.same` compares two;
* `CType.arrayOf` builds arrays whose element is never itself an array;
* `CType.pointee?` is what one dereference reaches;
* `CType.decay` turns an array into a pointer to its first element.
-/

namespace FlatC

/-- A reference to a declared struct: its place among the declarations, and its tag. -/
structure StructRef where
  /-- The place of the declaration, counted from zero. -/
  index : Nat
  /-- The tag, by which struct types are compared. -/
  tag : String
deriving DecidableEq, Repr, Inhabited

/-- A type. -/
inductive CType where
  | int
  | float
  | char
  | void
  | function
  /-- A pointer to a type. -/
  | pointer (target : CType)
  /-- An array: the type of its elements and its dimensions, outermost first. -/
  | array (element : CType) (dims : List Nat)
  /-- A struct. -/
  | struct (ref : StructRef)
deriving DecidableEq, Repr, Inhabited

namespace CType

/-! ## Building types -/

/-- A pointer to no particular type. -/
def voidPointer : CType := .pointer .void

/-- A pointer to characters, the type of a text literal. -/
def charPointer : CType := .pointer .char

/-- An array of `element`.  An array of arrays is one array with all dimensions. -/
def arrayOf (element : CType) (dims : List Nat) : CType :=
  match element with
  | .array inner innerDims => .array inner (dims ++ innerDims)
  | other => .array other dims

/-! ## Spelling and comparison -/

/-- How a type is written: pointers with a star, arrays with their dimensions behind. -/
def spelling : CType → String
  | .int => "int"
  | .float => "float"
  | .char => "char"
  | .void => "void"
  | .function => "function"
  | .pointer target => target.spelling ++ "*"
  | .array element dims =>
    element.spelling ++
      String.join (dims.map fun dim => "[" ++ String.ofList (Decimal.digits dim) ++ "]")
  | .struct ref => "struct " ++ ref.tag

/-- Whether two types are the same type.  Structs are compared by their tags alone. -/
def same : CType → CType → Bool
  | .int, .int => true
  | .float, .float => true
  | .char, .char => true
  | .void, .void => true
  | .function, .function => true
  | .pointer a, .pointer b => a.same b
  | .array a dims, .array b dims' => a.same b && dims == dims'
  | .struct a, .struct b => a.tag == b.tag
  | _, _ => false

/-- Every type is the same as itself. -/
@[simp] theorem same_self (t : CType) : t.same t = true := by
  induction t with
  | pointer target ih => exact ih
  | array element dims ih => simp [same, ih]
  | struct ref => simp [same]
  | _ => rfl

/-- Sameness does not depend on the order of the two types. -/
theorem same_comm (s t : CType) : s.same t = t.same s := by
  induction s generalizing t with
  | pointer a ih => cases t <;> simp [same, ih]
  | array a dims ih => cases t <;> simp [same, ih, Bool.beq_comm]
  | struct a => cases t <;> simp [same, Bool.beq_comm]
  | _ => cases t <;> rfl

/-! ## Classes of types -/

/-- Types with arithmetic: `int`, `float` and `char`. -/
def isArithmetic : CType → Bool
  | .int | .float | .char => true
  | _ => false

/-- Types of whole numbers: `int` and `char`. -/
def isWhole : CType → Bool
  | .int | .char => true
  | _ => false

/-- Whether the type is `float`. -/
def isFloat : CType → Bool
  | .float => true
  | _ => false

/-- Pointers. -/
def isPointer : CType → Bool
  | .pointer _ => true
  | _ => false

/-- Arrays. -/
def isArray : CType → Bool
  | .array .. => true
  | _ => false

/-- Pointers and arrays, which share arithmetic and dereference. -/
def isPointerLike : CType → Bool
  | .pointer _ | .array .. => true
  | _ => false

/-- Pointers to no particular type. -/
def isVoidPointer : CType → Bool
  | .pointer .void => true
  | _ => false

/-- Structs. -/
def isStruct : CType → Bool
  | .struct _ => true
  | _ => false

/-- Types whose values can be tested for truth. -/
def isScalar (t : CType) : Bool :=
  t.isArithmetic || t.isPointerLike

/-- Types whose values are stored as one unit: the scalars that are not arrays. -/
def isStorable (t : CType) : Bool :=
  t.isScalar && !t.isArray

/-! ## Dereference and decay -/

/-- What one dereference reaches: the target of a pointer, or an array without its outermost
dimension. -/
def pointee? : CType → Option CType
  | .pointer target => some target
  | .array element (_ :: next :: dims) => some (.array element (next :: dims))
  | .array element _ => some element
  | _ => none

/-- The type of a value used in an expression: an array becomes a pointer to its first element
or row, and every other type stays. -/
def decay : CType → CType
  | .array element (_ :: next :: dims) => .pointer (.array element (next :: dims))
  | .array element _ => .pointer element
  | other => other

/-- A decayed type is no array. -/
@[simp] theorem isArray_decay (t : CType) : t.decay.isArray = false := by
  cases t with
  | array element dims => rcases dims with _ | ⟨_, _ | _⟩ <;> rfl
  | _ => rfl

/-- Decay keeps what one dereference reaches. -/
@[simp] theorem pointee?_decay (t : CType) : t.decay.pointee? = t.pointee? := by
  cases t with
  | array element dims => rcases dims with _ | ⟨_, _ | _⟩ <;> rfl
  | _ => rfl

end CType

end FlatC

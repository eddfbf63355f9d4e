import FlatC.Fault
import FlatC.Number.Width
import FlatC.Text.Quoted

/-!
# Structs and sizes

A struct is declared by its tag and may be defined once, later, by its fields, which are laid out
one after another without gaps.  Declarations stand in a table; a type refers to one by its place
there, so a field may point back at the struct it belongs to.

* `StructTable.declare` and `StructTable.define` grow the table;
* `StructTable.sizeOf` is the size of a type, in bytes;
* `StructTable.field` finds a field of a struct.

The size of a struct is fixed when it is defined.  All its fields have a size by then, so no
struct can contain itself.
-/

namespace FlatC

/-- A field of a struct, with its offset from the start. -/
structure Field where
  name : String
  type : CType
  offset : Nat
deriving DecidableEq, Repr, Inhabited

/-- The fields of a defined struct, in order, and its size. -/
structure Layout where
  fields : List Field
  size : Nat
deriving DecidableEq, Repr, Inhabited

/-- A declared struct; without a layout it is incomplete. -/
structure StructDecl where
  tag : String
  layout : Option Layout
deriving DecidableEq, Repr, Inhabited

/-- The struct declarations of a program, in the order in which they were made. -/
structure StructTable where
  decls : List StructDecl
deriving DecidableEq, Repr, Inhabited

namespace StructTable

/-- The table without declarations. -/
def empty : StructTable := ⟨[]⟩

/-- Adds a struct without fields and gives a reference to it. -/
def declare (table : StructTable) (tag : String) : StructTable × StructRef :=
  (⟨table.decls ++ [⟨tag, none⟩]⟩, ⟨table.decls.length, tag⟩)

/-- The layout of a struct, if it is defined. -/
def layout? (table : StructTable) (ref : StructRef) : Option Layout :=
  table.decls[ref.index]?.bind (·.layout)

/-- The layout of a struct, which must be defined. -/
def layout (table : StructTable) (ref : StructRef) : Except Fault Layout :=
  match table.layout? ref with
  | some layout => .ok layout
  | none => .error (.type (.incompleteType (.struct ref)))

/-! ## Sizes -/

/-- The size of `count` times `size` bytes, which must fit the address space. -/
def repeated (whole : CType) (size count : Nat) : Except Fault Nat :=
  if count < wordRange ∧ size * count < wordRange then .ok (size * count)
  else .error (.type (.tooLarge whole))

/-- The size of a type in bytes. -/
def sizeOf (table : StructTable) : CType → Except Fault Nat
  | .int | .float | .pointer _ => .ok 4
  | .char | .void => .ok 1
  | .function => .error (.type (.incompleteType .function))
  | .array element dims => do
    let size ← table.sizeOf element
    dims.foldlM (repeated (.array element dims)) size
  | .struct ref => do
    let layout ← table.layout ref
    return layout.size

/-- The size of one element of an array, and of any other type as a whole. -/
def elementSize (table : StructTable) : CType → Except Fault Nat
  | .array element _ => table.sizeOf element
  | other => table.sizeOf other

/-! ## Definitions -/

/-- Adds a field behind a layout.  Its name must be new, its type must have a size, and the whole
must fit the address space. -/
def appendField (table : StructTable) (ref : StructRef) (layout : Layout)
    (field : String × CType) : Except Fault Layout := do
  let (name, type) := field
  if layout.fields.any fun f => f.name == name then
    throw (.type (.redefinition name))
  let size ← table.sizeOf type
  if layout.size + size < wordRange then
    return ⟨layout.fields ++ [⟨name, type, layout.size⟩], layout.size + size⟩
  else
    throw (.type (.tooLarge (.struct ref)))

/-- Lays out fields one after another. -/
def layOut (table : StructTable) (ref : StructRef) (fields : List (String × CType)) :
    Except Fault Layout :=
  fields.foldlM (table.appendField ref) ⟨[], 0⟩

/-- Gives a declared struct its fields.  The fields are checked first, and a struct can be
defined only once. -/
def define (table : StructTable) (ref : StructRef) (fields : List (String × CType)) :
    Except Fault StructTable := do
  let layout ← table.layOut ref fields
  match table.layout? ref with
  | some _ => throw (.type (.redefinition (CType.struct ref).spelling))
  | none => return ⟨table.decls.set ref.index ⟨ref.tag, some layout⟩⟩

/-- Declares and defines a struct in one step. -/
def declareDefined (table : StructTable) (tag : String) (fields : List (String × CType)) :
    Except Fault (StructTable × StructRef) := do
  let (table, ref) := table.declare tag
  let table ← table.define ref fields
  return (table, ref)

/-! ## Fields -/

/-- The fields of a struct, none if it is not defined. -/
def fields (table : StructTable) (ref : StructRef) : List Field :=
  match table.layout? ref with
  | some layout => layout.fields
  | none => []

/-- The field with a given name. -/
def field (table : StructTable) (ref : StructRef) (name : String) : Except Fault Field := do
  let layout ← table.layout ref
  match layout.fields.find? fun f => f.name == name with
  | some field => return field
  | none => throw (.type (.missingField (.struct ref) name))

/-- The inspection text of a struct: its tag and the names of its fields. -/
def inspect (table : StructTable) (ref : StructRef) : String :=
  let names := (table.fields ref).map fun f => Text.quoted f.name
  "StructType \x7b tag: " ++ Text.quoted ref.tag ++ ", fields: [" ++
    ", ".intercalate names ++ "] \x7d"

end StructTable

end FlatC

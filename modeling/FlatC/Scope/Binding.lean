import FlatC.Library.Basic

/-!
# Bindings

A scope gives names a meaning: a slot on the stack or a function.  Bindings are kept in the order
of their declaration.

* `Bindings.find?` finds the binding of a name and `Bindings.bind` gives it one;
* `Bindings.declareFunction` adds a function, with the rules for prototypes.
-/

namespace FlatC

/-- What a name stands for. -/
inductive Meaning where
  /-- A slot on the stack. -/
  | slot (address : Nat)
  /-- A function. -/
  | function (callee : Callee)
deriving Repr, Inhabited

/-- The declared type of a name and its meaning. -/
structure Binding where
  type : CType
  meaning : Meaning
deriving Repr, Inhabited

/-- Names and their bindings, in the order of their declaration. -/
abbrev Bindings : Type := List (String × Binding)

namespace Bindings

/-- The binding of a name. -/
def find? (bindings : Bindings) (name : String) : Option Binding :=
  bindings.lookup name

/-- The meaning of a name. -/
def meaning? (bindings : Bindings) (name : String) : Option Meaning :=
  match bindings.find? name with
  | some binding => some binding.meaning
  | none => none

/-- Whether a name is bound. -/
def binds (bindings : Bindings) (name : String) : Bool :=
  (bindings.find? name).isSome

/-- Binds a name.  A name that was bound keeps its place. -/
def bind (bindings : Bindings) (name : String) (binding : Binding) : Bindings :=
  if bindings.binds name then
    bindings.map fun entry => if entry.1 == name then (name, binding) else entry
  else bindings ++ [(name, binding)]

/-- The names, in the order of their declaration. -/
def names (bindings : Bindings) : List String :=
  bindings.map (·.1)

/-- Binds a function to its name. -/
def bindFunction (bindings : Bindings) (name : String) (callee : Callee) : Bindings :=
  bindings.bind name ⟨.function, .function callee⟩

/-- Declares a function.  All declarations of a name must have one signature, at most one of them
may be a definition, and a prototype never replaces what is there. -/
def declareFunction (bindings : Bindings) (name : String) (callee : Callee) :
    Except Fault Bindings :=
  match bindings.meaning? name with
  | none => .ok (bindings.bindFunction name callee)
  | some (.slot _) => .error (.type (.redefinition name))
  | some (.function existing) =>
    if existing.signature ≠ callee.signature then
      .error (.type (.conflictingSignature name existing.signature callee.signature))
    else if !callee.isDefined then .ok bindings
    else if existing.isDefined then .error (.type (.redefinition name))
    else .ok (bindings.bindFunction name callee)

end Bindings

end FlatC

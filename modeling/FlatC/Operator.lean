/-!
# Operators

The binary, unary and assignment operators of the language, with their symbols and the families
that typing and evaluation tell apart.
-/

namespace FlatC

/-- A binary operator. -/
inductive BinaryOp where
  | add | sub | mul | div | mod
  | eq | ne | lt | le | gt | ge
  | and | or
  | bitAnd | bitOr | bitXor | shiftLeft | shiftRight
deriving DecidableEq, Repr, Inhabited

namespace BinaryOp

/-- Every binary operator, family by family. -/
def all : List BinaryOp :=
  [add, sub, mul, div, mod, eq, ne, lt, le, gt, ge, and, or,
    bitAnd, bitOr, bitXor, shiftLeft, shiftRight]

/-- How the operator is written. -/
def symbol : BinaryOp → String
  | add => "+"
  | sub => "-"
  | mul => "*"
  | div => "/"
  | mod => "%"
  | eq => "=="
  | ne => "!="
  | lt => "<"
  | le => "<="
  | gt => ">"
  | ge => ">="
  | and => "&&"
  | or => "||"
  | bitAnd => "&"
  | bitOr => "|"
  | bitXor => "^"
  | shiftLeft => "<<"
  | shiftRight => ">>"

/-- The operator with a given symbol. -/
def ofSymbol? (symbol : String) : Option BinaryOp :=
  all.find? fun op => op.symbol == symbol

/-- Equality and order comparisons. -/
def isRelational : BinaryOp → Bool
  | eq | ne | lt | le | gt | ge => true
  | _ => false

/-- Comparisons for equality only. -/
def isEquality : BinaryOp → Bool
  | eq | ne => true
  | _ => false

/-- The operators that evaluate their right operand only when it matters. -/
def isLogical : BinaryOp → Bool
  | and | or => true
  | _ => false

/-- The operators on bit patterns. -/
def isBitwise : BinaryOp → Bool
  | bitAnd | bitOr | bitXor | shiftLeft | shiftRight => true
  | _ => false

/-- The operators whose operands may be swapped without changing the type of the result. -/
def isCommutative : BinaryOp → Bool
  | sub | div | mod | shiftLeft | shiftRight => false
  | _ => true

end BinaryOp

/-- A unary operator. -/
inductive UnaryOp where
  | neg | plus | not | bitNot
  | preInc | preDec | postInc | postDec
  | deref | addressOf
deriving DecidableEq, Repr, Inhabited

namespace UnaryOp

/-- Every unary operator. -/
def all : List UnaryOp :=
  [neg, plus, not, bitNot, preInc, preDec, postInc, postDec, deref, addressOf]

/-- How the operator is written; the two places of an increment share one symbol. -/
def symbol : UnaryOp → String
  | neg => "-"
  | plus => "+"
  | not => "!"
  | bitNot => "~"
  | preInc | postInc => "++"
  | preDec | postDec => "--"
  | deref => "*"
  | addressOf => "&"

/-- The operators that change their operand by one step. -/
def isStep : UnaryOp → Bool
  | preInc | preDec | postInc | postDec => true
  | _ => false

end UnaryOp

/-- An assignment operator. -/
inductive AssignOp where
  /-- Plain assignment. -/
  | plain
  /-- Assignment of the result of a binary operator on the old value. -/
  | compound (op : BinaryOp)
deriving DecidableEq, Repr, Inhabited

/-- How the assignment is written. -/
def AssignOp.symbol : AssignOp → String
  | .plain => "="
  | .compound op => op.symbol ++ "="

end FlatC

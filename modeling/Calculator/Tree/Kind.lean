/-!
# Kinds of trees
-/

namespace Calculator

/-- What the root of a tree is. -/
inductive Tree.Kind where
  | program
  | literal
  | binary
  | unary
  | identifier
  | declaration
  | assignment
  deriving DecidableEq

/-- The name that messages give to a kind of tree. -/
def Tree.Kind.name : Tree.Kind → String
  | .program => "Program"
  | .literal => "IntegerLiteral"
  | .binary => "BinaryOp"
  | .unary => "UnaryOp"
  | .identifier => "Identifier"
  | .declaration => "VarDecl"
  | .assignment => "VarAssign"

end Calculator

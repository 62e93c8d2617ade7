import Calculator.Token.Basic

/-!
# Operators

The four operators on two operands, their two levels of precedence, and the two signs.
-/

namespace Calculator

/-- An operator on two operands. -/
inductive Operator where
  | add
  | subtract
  | multiply
  | divide
  deriving DecidableEq

/-- A level of precedence. Operators of the multiplicative level bind tighter. -/
inductive Operator.Level where
  | additive
  | multiplicative
  deriving DecidableEq

namespace Operator

/-- The character that writes an operator. -/
def symbol : Operator → String
  | .add => "+"
  | .subtract => "-"
  | .multiply => "*"
  | .divide => "/"

/-- The operator that a kind of token stands for between two operands. -/
def ofKind? : Token.Kind → Option Operator
  | .plus => some .add
  | .minus => some .subtract
  | .star => some .multiply
  | .slash => some .divide
  | _ => none

/-- The level of an operator. -/
def level : Operator → Level
  | .add | .subtract => .additive
  | .multiply | .divide => .multiplicative

/-- The operator of the given level that a kind of token stands for. -/
def Level.operator? (level : Level) (kind : Token.Kind) : Option Operator :=
  (ofKind? kind).filter (·.level = level)

end Operator

/-- A sign in front of an operand. -/
inductive Sign where
  | plus
  | minus
  deriving DecidableEq

/-- The character that writes a sign. -/
def Sign.symbol : Sign → String
  | .plus => "+"
  | .minus => "-"

end Calculator

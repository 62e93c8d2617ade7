import Calculator.Tree.Basic

/-!
# Prefix form

A tree as text, each operator in front of its operands, for instance `(+ (* 2 3) 4)`.
-/

namespace Calculator.Tree

mutual

/-- The prefix form of a tree. -/
def display : Tree → String
  | .program statements _ => displayAll statements
  | .literal value _ => Numeral.write value
  | .binary operator _ left right =>
    "(" ++ operator.symbol ++ " " ++ left.display ++ " " ++ right.display ++ ")"
  | .unary sign _ operand => "(" ++ sign.symbol ++ " " ++ operand.display ++ ")"
  | .identifier token => token.lexeme
  | .declaration name _ value => "(var " ++ name.lexeme ++ " " ++ value.display ++ ")"
  | .assignment name _ value => "(= " ++ name.lexeme ++ " " ++ value.display ++ ")"

/-- The prefix forms of the statements of a program, with a semicolon between any two. -/
def displayAll : List Tree → String
  | [] => ""
  | [statement] => statement.display
  | statement :: statements => statement.display ++ "; " ++ displayAll statements

end

end Calculator.Tree

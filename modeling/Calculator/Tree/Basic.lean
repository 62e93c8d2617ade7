import Calculator.Fault
import Calculator.Operator

/-!
# Trees

The syntax trees of expressions, statements and programs. A tree keeps the tokens it was read
from, so every part of it has a span.
-/

namespace Calculator

/-- A syntax tree. A tree that was read has a program at its root only, and declarations and
assignments only as statements; one that was put together by hand may have them anywhere. -/
inductive Tree where
  /-- Statements in order, and the stretch of text they came from. -/
  | program (statements : List Tree) (span : Span)
  | literal (value : Int64) (token : Token)
  | binary (operator : Operator) (token : Token) (left right : Tree)
  | unary (sign : Sign) (token : Token) (operand : Tree)
  | identifier (token : Token)
  /-- A name that comes into being with a value. -/
  | declaration (name equals : Token) (value : Tree)
  /-- A name that gets another value. -/
  | assignment (name equals : Token) (value : Tree)

namespace Tree

/-- What the root of a tree is. -/
def kind : Tree → Kind
  | .program _ _ => .program
  | .literal _ _ => .literal
  | .binary _ _ _ _ => .binary
  | .unary _ _ _ => .unary
  | .identifier _ => .identifier
  | .declaration _ _ _ => .declaration
  | .assignment _ _ _ => .assignment

/-- The stretch of text that a tree covers, from its first token to its last. -/
def span : Tree → Span
  | .program _ span => span
  | .literal _ token => token.span
  | .binary _ _ left right => ⟨left.span.start, right.span.stop⟩
  | .unary _ token operand => ⟨token.span.start, operand.span.stop⟩
  | .identifier token => token.span
  | .declaration name _ value => ⟨name.span.start, value.span.stop⟩
  | .assignment name _ value => ⟨name.span.start, value.span.stop⟩

/-- The trees right below the root, in the order of the text. -/
def children : Tree → List Tree
  | .program statements _ => statements
  | .literal _ _ | .identifier _ => []
  | .binary _ _ left right => [left, right]
  | .unary _ _ operand => [operand]
  | .declaration _ _ value | .assignment _ _ value => [value]

/-- The literal that a token writes. The token's text decides, whatever its kind. -/
def integer (token : Token) : Except Fault Tree :=
  match Numeral.read? token.lexeme with
  | some value => .ok (.literal value token)
  | none => .error ⟨.notAnInteger token.lexeme, token.span⟩

end Tree

end Calculator

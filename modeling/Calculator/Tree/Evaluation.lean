import Calculator.Environment
import Calculator.Tree.Basic

/-!
# Evaluation

The value of an expression in an environment, and the changes that statements make to one. All
arithmetic is on 64-bit integers and wraps around; division goes toward zero.
-/

namespace Calculator

/-- The value of an operator at two operands. A division by zero has none. -/
def Operator.apply? (operator : Operator) (left right : Int64) : Option Int64 :=
  match operator with
  | .add => some (left + right)
  | .subtract => some (left - right)
  | .multiply => some (left * right)
  | .divide => if right = 0 then none else some (left / right)

/-- The value of a signed operand. -/
def Sign.apply (sign : Sign) (operand : Int64) : Int64 :=
  match sign with
  | .plus => operand
  | .minus => -operand

namespace Tree

/-- The fault of a tree that has no value where it stands. -/
def misplaced (tree : Tree) : Fault :=
  ⟨.unrecognizedNode tree.kind, tree.span⟩

/-- The value of an expression: left operand first, then right operand, then the operator. -/
def value (env : Environment) : Tree → Except Fault Int64
  | .literal value _ => .ok value
  | .binary operator _ left right => do
    let leftValue ← left.value env
    let rightValue ← right.value env
    match operator.apply? leftValue rightValue with
    | some result => .ok result
    | none => .error ⟨.divisionByZero, right.span⟩
  | .unary sign _ operand => do
    let operandValue ← operand.value env
    return sign.apply operandValue
  | .identifier token =>
    match env.get? token.lexeme with
    | some value => .ok value
    | none => .error ⟨.undefinedVariable token.lexeme, token.span⟩
  | .program statements span => .error (misplaced (.program statements span))
  | .declaration name equals value => .error (misplaced (.declaration name equals value))
  | .assignment name equals value => .error (misplaced (.assignment name equals value))

/-- Binds a name to the value of an expression, which is the value of the statement too. -/
def store (name : Token) (expression : Tree) : EStateM Fault Environment Int64 := do
  let env ← get
  let value ← MonadExcept.ofExcept (expression.value env)
  set (env.bind name.lexeme value)
  return value

/-- Executes a statement. A declaration is refused if its name has a value, an assignment if its
name has none, and both before their expression is looked at. -/
def execute : Tree → EStateM Fault Environment Int64
  | .declaration name _ expression => do
    if (← get).binds name.lexeme then
      throw ⟨.variableRedeclared name.lexeme, name.span⟩
    store name expression
  | .assignment name _ expression => do
    if !(← get).binds name.lexeme then
      throw ⟨.undefinedVariable name.lexeme, name.span⟩
    store name expression
  | .program statements span => throw (misplaced (.program statements span))
  | expression => do MonadExcept.ofExcept (expression.value (← get))

/-- Executes statements in order up to the first that fails. The value is that of the last one. -/
def executeAll (statements : List Tree) : EStateM Fault Environment (Option Int64) :=
  statements.foldlM (fun _ statement => some <$> statement.execute) none

/-- Evaluates a program or a statement. Statements before one that fails keep their effect. -/
def evaluate : Tree → EStateM Fault Environment Int64
  | .program statements span => do
    match ← executeAll statements with
    | some value => return value
    | none => throw ⟨.emptyProgram, span⟩
  | statement => statement.execute

end Tree

end Calculator

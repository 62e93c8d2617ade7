import Calculator.Numeral
import Calculator.Token.Basic
import Calculator.Tree.Kind

/-!
# Faults

Why a text has no value, and where. A fault has a cause and a span; its message and its help are
functions of the cause.
-/

namespace Calculator

/-- Why reading or evaluating a text failed. -/
inductive Fault.Cause where
  /-- No token begins with the character. -/
  | unrecognizedCharacter (character : Char)
  /-- The run of digits exceeds the largest integer. -/
  | malformedInteger (text : String)
  /-- Another kind of token had to stand here. -/
  | unexpectedToken (found expected : Token.Kind)
  /-- The text of a literal is no integer in range. -/
  | notAnInteger (text : String)
  /-- The right operand of a division is zero. -/
  | divisionByZero
  /-- A name is read or assigned before its declaration. -/
  | undefinedVariable (name : String)
  /-- A name is declared a second time. -/
  | variableRedeclared (name : String)
  /-- A tree of this kind has no value where it stands. -/
  | unrecognizedNode (kind : Tree.Kind)
  /-- There is no statement whose value a program could have. -/
  | emptyProgram
  deriving DecidableEq

/-- The stage of the work at which a fault arises. -/
inductive Fault.Stage where
  | lexical
  | grammar
  | value
  | runtime
  deriving DecidableEq

/-- A cause of failure and the stretch of the text it is about. -/
structure Fault where
  cause : Fault.Cause
  span : Span
  deriving DecidableEq

namespace Fault

/-- The stage at which a cause arises. -/
def Cause.stage : Cause → Stage
  | .unrecognizedCharacter _ | .malformedInteger _ => .lexical
  | .unexpectedToken _ _ => .grammar
  | .notAnInteger _ => .value
  | .divisionByZero | .undefinedVariable _ | .variableRedeclared _ | .unrecognizedNode _
  | .emptyProgram => .runtime

/-- A cause in words. -/
def Cause.message : Cause → String
  | .unrecognizedCharacter character => "unrecognized character `" ++ character.toString ++ "`"
  | .malformedInteger text => "malformed integer literal `" ++ text ++ "`"
  | .unexpectedToken found expected =>
    "unexpected token `" ++ found.name ++ "`, expected `" ++ expected.name ++ "`"
  | .notAnInteger text => "`" ++ text ++ "` is not a 64-bit integer"
  | .divisionByZero => "division by zero"
  | .undefinedVariable name => "undefined variable `" ++ name ++ "`"
  | .variableRedeclared name => "variable `" ++ name ++ "` is already declared"
  | .unrecognizedNode kind => "unrecognized node `" ++ kind.name ++ "`"
  | .emptyProgram => "program contains no statements"

/-- What to do about a missing token of a kind, where there is something to say. -/
def missingTokenHelp : Token.Kind → Option String
  | .rightParen => some "Every '(' must be closed by a matching ')'."
  | .semicolon =>
    some ("Separate statements with ';'. Only one operator per precedence level is folded " ++
      "at a time, so group longer chains: '(1 + 2) + 3'.")
  | .identifier => some "A declaration looks like 'var name = expression'."
  | _ => none

/-- What to do about a cause, where there is something to say. -/
def Cause.help : Cause → Option String
  | .unrecognizedCharacter _ =>
    some "Only digits, identifiers and the symbols + - * / ( ) \x7b \x7d = ; : are allowed."
  | .malformedInteger _ | .notAnInteger _ =>
    some ("Integer literals must fit in a signed 64-bit integer (at most " ++
      Numeral.write Int64.maxValue ++ ").")
  | .unexpectedToken _ expected => missingTokenHelp expected
  | .undefinedVariable name => some ("Declare it first with 'var " ++ name ++ " = ...'.")
  | .variableRedeclared name =>
    some ("Use '" ++ name ++ " = ...' to change the value of an existing variable.")
  | .divisionByZero | .unrecognizedNode _ | .emptyProgram => none

/-- The message of a fault. -/
def message (fault : Fault) : String :=
  fault.cause.message

/-- The help of a fault. -/
def help (fault : Fault) : Option String :=
  fault.cause.help

end Fault

end Calculator

import Calculator.Token.Scanner
import Calculator.Tree.Basic

/-!
# Parsing

A parser holds one token and pulls the others from a scanner as it needs them. The grammar, the
loosest rule first:

```text
program    := (statement (';' statement)* ';'?)? end
statement  := 'var' IDENTIFIER '=' expression | IDENTIFIER '=' expression | expression
expression := term (('+' | '-') term)?
term       := factor (('*' | '/') factor)?
factor     := INTEGER | '(' expression ')' | ('+' | '-') factor | IDENTIFIER
```

Each level takes one operator at most: `2 * 3 + 4` is a statement, and `1 + 2 + 3` is the statement
`1 + 2` with `+ 3` left over. Reading a statement leaves what follows it unread; reading a program
refuses it.
-/

namespace Calculator

/-- The state of parsing: the token in hand, and the scanner that stands behind it. -/
structure Parser where
  scanner : Scanner
  current : Token
  deriving DecidableEq

/-- Steps of parsing. They may fail, and leave the parser where they failed. -/
abbrev Parse := EStateM Fault Parser

/-- Which rule of the grammar a text is read by. -/
inductive Mode where
  /-- One statement. What follows it is left unread. -/
  | statement
  /-- Statements up to the end of the text. -/
  | program
  deriving DecidableEq

namespace Parser

/-- The parser that holds the first token of a text. -/
def ofSource (source : String) : Except Fault Parser :=
  match (Scanner.ofSource source).next with
  | .ok token scanner => .ok ⟨scanner, token⟩
  | .error fault _ => .error fault

/-- The fault of a token in hand that should have been of another kind. -/
def unexpected (parser : Parser) (expected : Token.Kind) : Fault :=
  ⟨.unexpectedToken parser.current.kind expected, parser.current.span⟩

/-- Refuses the token in hand. -/
def refuse (expected : Token.Kind) : Parse Tree := fun parser =>
  .error (parser.unexpected expected) parser

/-- Hands over the current token once the next one is there. Where the scanner fails, the current
token stays in hand. -/
def advance : Parse Token := fun parser =>
  match parser.scanner.next with
  | .ok token scanner => .ok parser.current ⟨scanner, token⟩
  | .error fault scanner => .error fault ⟨scanner, parser.current⟩

/-- Takes a token of the given kind. -/
def expect (kind : Token.Kind) : Parse Token := fun parser =>
  if parser.current.kind = kind then advance parser
  else .error (parser.unexpected kind) parser

/-- A left operand by itself, or joined to a right one by the operator in hand. -/
def extend (operand : Parse Tree) (left : Tree) : Option Operator → Parse Tree
  | none => return left
  | some operator => do
    let token ← advance
    let right ← operand
    return .binary operator token left right

/-- An operand, and a second one if an operator of the level stands between them. -/
def chain (level : Operator.Level) (operand : Parse Tree) : Parse Tree := do
  let left ← operand
  let parser ← get
  extend operand left (level.operator? parser.current.kind)

/-- A factor that begins with a token of the given kind, where `inner` reads the factors inside
it. -/
def factorOf (inner : Parse Tree) : Token.Kind → Parse Tree
  | .integer => do
    let token ← advance
    MonadExcept.ofExcept (Tree.integer token)
  | .leftParen => do
    let _ ← advance
    let expression ← chain .additive (chain .multiplicative inner)
    let _ ← expect .rightParen
    return expression
  | .plus => do
    let token ← advance
    let operand ← inner
    return .unary .plus token operand
  | .minus => do
    let token ← advance
    let operand ← inner
    return .unary .minus token operand
  | .identifier => do
    let token ← advance
    return .identifier token
  | _ => refuse .integer

/-- A factor, where `inner` reads the factors inside it. -/
def factorFrom (inner : Parse Tree) : Parse Tree := fun parser =>
  factorOf inner parser.current.kind parser

/-- A factor around whose innermost one there are fewer others than the bound has characters. With
none there is no factor. -/
def factorWithin : (bound : List Char) → Parse Tree
  | [] => refuse .integer
  | _ :: bound => factorFrom (factorWithin bound)

/-- A literal, a name, a signed factor, or an expression in parentheses. Every factor inside another
stands behind a token of that one, of which all but the one in hand are ahead. So the characters
ahead bound the depth, and the bound is never felt. -/
def factor : Parse Tree := fun parser =>
  factorFrom (factorWithin parser.scanner.rest) parser

/-- One factor, or two with `*` or `/` between them. -/
def term : Parse Tree :=
  chain .multiplicative factor

/-- One term, or two with `+` or `-` between them. -/
def expression : Parse Tree :=
  chain .additive term

/-- `var`, a name, `=` and an expression. -/
def declaration : Parse Tree := do
  let _ ← expect .keyword
  let name ← expect .identifier
  let equals ← expect .equal
  let value ← expression
  return .declaration name equals value

/-- A name, `=` and an expression. -/
def assignment : Parse Tree := do
  let name ← expect .identifier
  let equals ← expect .equal
  let value ← expression
  return .assignment name equals value

/-- A declaration, an assignment or an expression. A name begins an assignment if the first
character behind it, white space and digits apart, is `=`. -/
def statement : Parse Tree := do
  let parser ← get
  if parser.current.isKeyword "var" then declaration
  else if parser.current.kind = .identifier ∧ parser.scanner.peek 0 = some '=' then assignment
  else expression

/-- Statements up to the end of the text, with a semicolon behind each but the last, which may have
one. What comes behind the first semicolon is read by `others`. -/
def statementsFrom (others : Parse (List Tree)) : Parse (List Tree) := do
  if (← get).current.kind = .endOfInput then
    return []
  else
    let first ← statement
    if (← get).current.kind = .endOfInput then
      return [first]
    else
      let _ ← expect .semicolon
      return first :: (← others)

/-- At most as many statements as the bound has characters. -/
def statementsWithin : (bound : List Char) → Parse (List Tree)
  | [] => return []
  | _ :: bound => statementsFrom (statementsWithin bound)

/-- Statements up to the end of the text. Each takes a token, of which all but the one in hand are
ahead. So the characters ahead bound their number, and the bound is never felt. -/
def statements : Parse (List Tree) := fun parser =>
  statementsFrom (statementsWithin parser.scanner.rest) parser

/-- Statements up to the end of the text, as one tree. -/
def program : Parse Tree := do
  let list ← statements
  return .program list ⟨0, (← get).current.span.start⟩

/-- The tree of the rule that the mode names. -/
def tree : Mode → Parse Tree
  | .statement => statement
  | .program => program

end Parser

/-- The tree of a text. -/
def Tree.ofSource (mode : Mode) (source : String) : Except Fault Tree := do
  let parser ← Parser.ofSource source
  match Parser.tree mode parser with
  | .ok tree _ => .ok tree
  | .error fault _ => .error fault

end Calculator

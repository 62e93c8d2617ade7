import Calculator.Tree.Parser.Progress

/-!
# Steps of parsing with their moves

A step of parsing that keeps an account of what it does: which rules it begins, which tokens it
takes, and where the scanner fails. The rules of the grammar are put together from such steps as
they are from those without an account, and `step_tree` says that, but for the account, they are the
same. So `moves` of a rule says what the parser does.
-/

namespace Calculator.Parser

/-- The rules that a call may come back to. -/
inductive Rule where
  | factor
  /-- One more statement of a program. -/
  | statement
  deriving DecidableEq

/-- What a parser does, as far as it matters for its progress. -/
inductive Move where
  | begins (rule : Rule)
  /-- The token in hand is handed over, and the next one is there. -/
  | takes (before after : Parser)
  /-- The scanner has no next token to give. -/
  | fails (before : Parser)
  /-- The rule would go deeper than its bound allows. -/
  | exhausts (rule : Rule)
  deriving DecidableEq

/-- A step of parsing, and what it does where it is taken. -/
structure Noted (α : Type) where
  step : Parse α
  moves : Parser → List Move

namespace Noted

instance : Monad Noted where
  pure value := ⟨pure value, fun _ => []⟩
  bind first next :=
    { step := first.step >>= fun value => (next value).step
      moves := fun parser => first.moves parser ++ match first.step parser with
        | .ok value between => (next value).moves between
        | .error _ _ => [] }

/-! ### The rules with an account -/

def hand : Noted Parser :=
  ⟨get, fun _ => []⟩

def note (move : Move) : Noted Unit :=
  ⟨pure (), fun _ => [move]⟩

def fault {α : Type} (fault : Fault) : Noted α :=
  ⟨throw fault, fun _ => []⟩

def take : Noted Token :=
  { step := advance
    moves := fun parser => match advance parser with
      | .ok _ after => [.takes parser after]
      | .error _ _ => [.fails parser] }

def literal (token : Token) : Noted Tree :=
  ⟨MonadExcept.ofExcept (Tree.integer token), fun _ => []⟩

def expect (kind : Token.Kind) : Noted Token := do
  let parser ← hand
  if parser.current.kind = kind then take else fault (parser.unexpected kind)

def extend (operand : Noted Tree) (left : Tree) : Option Operator → Noted Tree
  | none => return left
  | some operator => do
    let token ← take
    let right ← operand
    return .binary operator token left right

def chain (level : Operator.Level) (operand : Noted Tree) : Noted Tree := do
  let left ← operand
  let parser ← hand
  extend operand left (level.operator? parser.current.kind)

def factorOf (inner : Noted Tree) : Token.Kind → Noted Tree
  | .integer => do
    let token ← take
    literal token
  | .leftParen => do
    let _ ← take
    let expression ← chain .additive (chain .multiplicative inner)
    let _ ← expect .rightParen
    return expression
  | .plus => do
    let token ← take
    let operand ← inner
    return .unary .plus token operand
  | .minus => do
    let token ← take
    let operand ← inner
    return .unary .minus token operand
  | .identifier => do
    let token ← take
    return .identifier token
  | _ => do
    let parser ← hand
    fault (parser.unexpected .integer)

def factorFrom (inner : Noted Tree) : Noted Tree := do
  note (.begins .factor)
  let parser ← hand
  factorOf inner parser.current.kind

def factorWithin : (bound : Nat) → Noted Tree
  | 0 => do
    note (.exhausts .factor)
    let parser ← hand
    fault (parser.unexpected .integer)
  | bound + 1 => factorFrom (factorWithin bound)

/-- A bound of two more than there are characters ahead is not exhausted even where the end of the
text is refused. -/
def factor : Noted Tree := do
  let parser ← hand
  factorWithin (parser.scanner.rest.length + 2)

def expression : Noted Tree :=
  chain .additive (chain .multiplicative factor)

def binding (build : Token → Token → Tree → Tree) : Noted Tree := do
  let name ← expect .identifier
  let equals ← expect .equal
  let value ← expression
  return build name equals value

def statement : Noted Tree := do
  let parser ← hand
  if parser.current.isKeyword "var" then do
    let _ ← expect .keyword
    binding .declaration
  else if parser.current.kind = .identifier ∧ parser.scanner.peek 0 = some '=' then
    binding .assignment
  else expression

def statementsFrom (others : Noted (List Tree)) : Noted (List Tree) := do
  if (← hand).current.kind = .endOfInput then
    return []
  else
    note (.begins .statement)
    let first ← statement
    if (← hand).current.kind = .endOfInput then
      return [first]
    else
      let _ ← expect .semicolon
      return first :: (← others)

def statementsWithin : (bound : Nat) → Noted (List Tree)
  | 0 => do
    note (.exhausts .statement)
    return []
  | bound + 1 => statementsFrom (statementsWithin bound)

def statements : Noted (List Tree) := do
  let parser ← hand
  statementsWithin (parser.scanner.rest.length + 2)

def program : Noted Tree := do
  let list ← statements
  return .program list ⟨0, (← hand).current.span.start⟩

def tree : Mode → Noted Tree
  | .statement => statement
  | .program => program

section
variable {α β : Type} {first : Noted α} {next : α → Noted β} {parser between : Parser} {value : α}
  {fault : Fault}

theorem moves_bind_of_ok (ran : first.step parser = .ok value between) :
    (first >>= next).moves parser = first.moves parser ++ (next value).moves between := by
  simp only [bind, ran]

theorem moves_bind_of_error (ran : first.step parser = .error fault between) :
    (first >>= next).moves parser = first.moves parser := by
  simp only [bind, ran, List.append_nil]

end

/-! ### The rules without it -/

section
variable {α β : Type}

theorem step_bind (first : Noted α) (next : α → Noted β) :
    (first >>= next).step = first.step >>= fun value => (next value).step := rfl

theorem step_hand_bind (next : Parser → Noted β) (parser : Parser) :
    (hand >>= next).step parser = (next parser).step parser := rfl

theorem step_note_bind (move : Move) (next : Unit → Noted β) :
    (note move >>= next).step = (next ()).step := rfl

theorem step_expect (kind : Token.Kind) : (expect kind).step = Parser.expect kind := by
  funext parser
  rw [expect, step_hand_bind, Parser.expect]
  split
  · rfl
  · rfl

theorem step_extend (operand : Noted Tree) (left : Tree) (operator : Option Operator) :
    (extend operand left operator).step = Parser.extend operand.step left operator := by
  cases operator with
  | none => rfl
  | some operator => rfl

theorem step_chain (level : Operator.Level) (operand : Noted Tree) :
    (chain level operand).step = Parser.chain level operand.step := by
  simp only [chain, step_bind, step_extend]
  rfl

theorem step_factorOf (inner : Noted Tree) (kind : Token.Kind) :
    (factorOf inner kind).step = Parser.factorOf inner.step kind := by
  cases kind with
  | leftParen =>
    simp only [factorOf, step_bind, step_chain, step_expect]
    rfl
  | _ => rfl

theorem step_factorFrom (inner : Noted Tree) :
    (factorFrom inner).step = Parser.factorFrom inner.step := by
  funext parser
  rw [factorFrom, step_note_bind, step_hand_bind, step_factorOf, Parser.factorFrom]

theorem step_factorWithin (bound : Nat) :
    (factorWithin bound).step = Parser.factorWithin (List.replicate bound ' ') := by
  induction bound with
  | zero => rfl
  | succ bound ih =>
    rw [factorWithin, step_factorFrom, ih]
    rfl

theorem step_factor : factor.step = Parser.factor := by
  funext parser
  rw [factor, step_hand_bind, step_factorWithin]
  apply factorWithin_eq_factor
  rw [List.length_replicate]
  exact Nat.le_succ_of_le (unread_le parser)

theorem step_expression : expression.step = Parser.expression := by
  rw [expression, step_chain, step_chain, step_factor]
  rfl

theorem step_binding (build : Token → Token → Tree → Tree) :
    (binding build).step = (do
      let name ← Parser.expect .identifier
      let equals ← Parser.expect .equal
      let value ← Parser.expression
      return build name equals value) := by
  simp only [binding, step_bind, step_expect, step_expression]
  rfl

theorem step_statement : statement.step = Parser.statement := by
  funext parser
  rw [statement, Parser.statement, step_hand_bind, get_bind]
  split
  · rw [step_bind, step_expect, step_binding]
    rfl
  · split
    · rw [step_binding]
      rfl
    · rw [step_expression]

theorem step_statementsFrom (others : Noted (List Tree)) :
    (statementsFrom others).step = Parser.statementsFrom others.step := by
  funext parser
  rw [statementsFrom, Parser.statementsFrom, step_hand_bind, get_bind]
  split
  · rfl
  · rw [step_note_bind, step_bind, step_statement]
    refine bind_congr rfl fun first middle _ => ?_
    rw [step_hand_bind, get_bind]
    split
    · rfl
    · rw [step_bind, step_expect]
      rfl

theorem step_statementsWithin (bound : Nat) :
    (statementsWithin bound).step = Parser.statementsWithin (List.replicate bound ' ') := by
  induction bound with
  | zero => rfl
  | succ bound ih =>
    rw [statementsWithin, step_statementsFrom, ih]
    rfl

theorem step_statements : statements.step = Parser.statements := by
  funext parser
  rw [statements, step_hand_bind, step_statementsWithin]
  apply statementsWithin_eq_statements
  rw [List.length_replicate]
  exact Nat.le_succ_of_le (unread_le parser)

/-- But for the account, the rules are those of the parser. -/
theorem step_tree (mode : Mode) : (tree mode).step = Parser.tree mode := by
  cases mode with
  | statement => exact step_statement
  | program =>
    simp only [tree, program, step_bind, step_statements]
    rfl

end

end Noted

end Calculator.Parser

import Calculator.Proofs.Execution

/-!
# Trees without their tokens

`Tree.bare` leaves of a tree its values, names and operators. That is all that evaluation looks at:
by `evaluate_of_bare` trees that are the same in this respect have the same outcome, but for the
place of a fault.
-/

namespace Calculator

/-- A token that has a name and no place. -/
def Token.named (name : String) : Token :=
  ⟨.identifier, name, ⟨0, 0⟩⟩

namespace Tree

mutual

def bare : Tree → Tree
  | .program statements _ => .program (bareAll statements) ⟨0, 0⟩
  | .literal value _ => .literal value (.named "")
  | .binary operator _ left right => .binary operator (.named "") left.bare right.bare
  | .unary sign _ operand => .unary sign (.named "") operand.bare
  | .identifier token => .identifier (.named token.lexeme)
  | .declaration name _ value => .declaration (.named name.lexeme) (.named "") value.bare
  | .assignment name _ value => .assignment (.named name.lexeme) (.named "") value.bare

def bareAll : List Tree → List Tree
  | [] => []
  | statement :: statements => statement.bare :: bareAll statements

end

theorem kind_bare (tree : Tree) : tree.bare.kind = tree.kind := by
  cases tree <;> rfl

/-! ### Expressions -/

/-- The value of an expression, or why it has none. -/
def outcome (env : Environment) (tree : Tree) : Except Fault.Cause Int64 :=
  match tree.value env with
  | .ok value => .ok value
  | .error fault => .error fault.cause

section
variable (env : Environment)

theorem outcome_binary (operator : Operator) (token : Token) (left right : Tree) :
    outcome env (.binary operator token left right) =
      match left.outcome env, right.outcome env with
      | .error cause, _ => .error cause
      | .ok _, .error cause => .error cause
      | .ok leftValue, .ok rightValue =>
        match operator.apply? leftValue rightValue with
        | some result => .ok result
        | none => .error .divisionByZero := by
  unfold outcome
  rw [value_binary]
  cases left.value env with
  | error fault => rfl
  | ok leftValue =>
    cases right.value env with
    | error fault => rfl
    | ok rightValue =>
      dsimp only
      cases operator.apply? leftValue rightValue with
      | none => rfl
      | some result => rfl

theorem outcome_unary (sign : Sign) (token : Token) (operand : Tree) :
    outcome env (.unary sign token operand) = (operand.outcome env).map sign.apply := by
  unfold outcome
  rw [value_unary]
  cases operand.value env with
  | error fault => rfl
  | ok value => rfl

theorem outcome_identifier (token : Token) :
    outcome env (.identifier token) = match env.get? token.lexeme with
      | some value => .ok value
      | none => .error (.undefinedVariable token.lexeme) := by
  unfold outcome
  rw [value]
  cases env.get? token.lexeme with
  | none => rfl
  | some value => rfl

theorem outcome_bare (tree : Tree) : tree.bare.outcome env = tree.outcome env := by
  fun_induction value env tree with
  | case1 => rfl
  | case2 operator token left right second first =>
    show _ = outcome env (.binary operator token left right)
    rw [bare, outcome_binary, outcome_binary, first, second]
  | case3 sign token operand ih =>
    show _ = outcome env (.unary sign token operand)
    rw [bare, outcome_unary, outcome_unary, ih]
  | case4 token | case5 token =>
    rw [bare, outcome_identifier, outcome_identifier, Token.named]
  | case6 | case7 | case8 => rfl

/-! ### Statements -/

theorem adaptExcept_store (name : Token) (expression : Tree) :
    (store name expression).adaptExcept Fault.cause env = match expression.outcome env with
      | .ok value => .ok value (env.bind name.lexeme value)
      | .error cause => .error cause env := by
  rw [EStateM.adaptExcept, store_eq, outcome]
  cases expression.value env with
  | ok value => rfl
  | error fault => rfl

theorem adaptExcept_expression {tree : Tree} (root : tree.kind.IsExpression) :
    tree.execute.adaptExcept Fault.cause env = match tree.outcome env with
      | .ok value => .ok value env
      | .error cause => .error cause env := by
  rw [EStateM.adaptExcept, execute_expression root, outcome]
  cases tree.value env with
  | ok value => rfl
  | error fault => rfl

end

theorem store_bare (name : Token) (expression : Tree) :
    (store (.named name.lexeme) expression.bare).adaptExcept Fault.cause =
      (store name expression).adaptExcept Fault.cause := by
  funext env
  rw [adaptExcept_store, adaptExcept_store, outcome_bare, Token.named]

theorem execute_bare (tree : Tree) :
    tree.bare.execute.adaptExcept Fault.cause = tree.execute.adaptExcept Fault.cause := by
  funext env
  rcases isExpression_or tree with root | ⟨statements, span, rfl⟩ | ⟨name, equals, value, rfl⟩ |
    ⟨name, equals, value, rfl⟩
  · have root' : tree.bare.kind.IsExpression := by rwa [kind_bare]
    rw [adaptExcept_expression env root', adaptExcept_expression env root, outcome_bare]
  · rfl
  · rw [bare, adaptExcept_declaration, adaptExcept_declaration, store_bare, Token.named]
  · rw [bare, adaptExcept_assignment, adaptExcept_assignment, store_bare, Token.named]

/-! ### Programs -/

section
variable {α β σ ε δ : Type} (change : ε → δ)

theorem adaptExcept_bind (first : EStateM ε σ α) (next : α → EStateM ε σ β) :
    (first >>= next).adaptExcept change =
      first.adaptExcept change >>= fun value => (next value).adaptExcept change := by
  funext state
  show EStateM.adaptExcept change (EStateM.bind first next) state =
    EStateM.bind (first.adaptExcept change) (fun value => (next value).adaptExcept change) state
  simp only [EStateM.adaptExcept, EStateM.bind]
  cases first state with
  | error fault after => rfl
  | ok value after => rfl

theorem adaptExcept_map (function : α → β) (step : EStateM ε σ α) :
    (function <$> step).adaptExcept change = function <$> step.adaptExcept change := by
  funext state
  show EStateM.adaptExcept change (EStateM.map function step) state =
    EStateM.map function (step.adaptExcept change) state
  simp only [EStateM.adaptExcept, EStateM.map]
  cases step state with
  | error fault after => rfl
  | ok value after => rfl

end

theorem executeAll_bare (statements : List Tree) :
    (executeAll (bareAll statements)).adaptExcept Fault.cause =
      (executeAll statements).adaptExcept Fault.cause := by
  unfold executeAll
  generalize (none : Option Int64) = last
  induction statements generalizing last with
  | nil => rfl
  | cons statement statements ih =>
    rw [bareAll, List.foldlM_cons, List.foldlM_cons, adaptExcept_bind, adaptExcept_bind,
      adaptExcept_map, adaptExcept_map, execute_bare]
    congr 1
    funext value
    exact ih value

theorem evaluate_bare (tree : Tree) :
    tree.bare.evaluate.adaptExcept Fault.cause = tree.evaluate.adaptExcept Fault.cause := by
  rcases program_or_kind tree with ⟨statements, span, rfl⟩ | root
  · rw [bare, evaluate, evaluate, adaptExcept_bind, adaptExcept_bind, executeAll_bare]
    congr 1
    funext value
    cases value with
    | none => rfl
    | some value => rfl
  · have root' : tree.bare.kind ≠ .program := by rwa [kind_bare]
    rw [evaluate_of_kind root, evaluate_of_kind root', execute_bare]

/-- Trees with the same values, names and operators have the same outcome in every environment. -/
theorem evaluate_of_bare {tree other : Tree} (same : tree.bare = other.bare) :
    tree.evaluate.adaptExcept Fault.cause = other.evaluate.adaptExcept Fault.cause := by
  rw [← evaluate_bare, same, evaluate_bare]

end Tree

end Calculator

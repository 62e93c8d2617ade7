import Calculator.Source
import Calculator.Proofs.Grammar

/-!
# What a statement does

One equation for each way an expression can have a value and a statement can run. A tree of the
grammar is executed by that of its rule.
-/

namespace Calculator

namespace Tree

section
variable (env : Environment)

theorem value_binary (operator : Operator) (token : Token) (left right : Tree) :
    (Tree.binary operator token left right).value env =
      match left.value env, right.value env with
      | .error fault, _ => .error fault
      | .ok _, .error fault => .error fault
      | .ok leftValue, .ok rightValue =>
        match operator.apply? leftValue rightValue with
        | some result => .ok result
        | none => .error ⟨.divisionByZero, right.span⟩ := by
  rw [value]
  cases left.value env with
  | error fault => rfl
  | ok leftValue =>
    cases right.value env with
    | error fault => rfl
    | ok rightValue => rfl

theorem value_unary (sign : Sign) (token : Token) (operand : Tree) :
    (Tree.unary sign token operand).value env = match operand.value env with
      | .error fault => .error fault
      | .ok operandValue => .ok (sign.apply operandValue) := by
  rw [value]
  cases operand.value env with
  | error fault => rfl
  | ok operandValue => rfl

end

section
variable {env : Environment} {operator : Operator} {sign : Sign} {token : Token}
  {left right operand : Tree} {value : Int64} {fault : Fault}

theorem value_binary_ok (h : (Tree.binary operator token left right).value env = .ok value) :
    ∃ leftValue rightValue, left.value env = .ok leftValue ∧ right.value env = .ok rightValue ∧
      operator.apply? leftValue rightValue = some value := by
  rw [value_binary] at h
  split at h
  · cases h
  · cases h
  · rename_i leftValue rightValue first second
    split at h
    · rename_i result applied
      cases h
      exact ⟨leftValue, rightValue, first, second, applied⟩
    · cases h

theorem value_binary_error (h : (Tree.binary operator token left right).value env = .error fault) :
    left.value env = .error fault ∨ ∃ leftValue, left.value env = .ok leftValue ∧
      (right.value env = .error fault ∨ ∃ rightValue, right.value env = .ok rightValue ∧
        operator.apply? leftValue rightValue = none ∧ fault = ⟨.divisionByZero, right.span⟩) := by
  rw [value_binary] at h
  split at h
  · rename_i found first
    cases h
    exact .inl first
  · rename_i leftValue found first second
    cases h
    exact .inr ⟨leftValue, first, .inl second⟩
  · rename_i leftValue rightValue first second
    split at h
    · cases h
    · rename_i none
      cases h
      exact .inr ⟨leftValue, first, .inr ⟨rightValue, second, none, rfl⟩⟩

theorem value_identifier_ok (h : (Tree.identifier token).value env = .ok value) :
    env.get? token.lexeme = some value := by
  rw [Tree.value] at h
  split at h
  · rename_i bound
    cases h
    exact bound
  · cases h

theorem value_identifier_error (h : (Tree.identifier token).value env = .error fault) :
    env.get? token.lexeme = none ∧ fault = ⟨.undefinedVariable token.lexeme, token.span⟩ := by
  rw [Tree.value] at h
  split at h
  · cases h
  · rename_i unbound
    cases h
    exact ⟨unbound, rfl⟩

theorem value_unary_ok (h : (Tree.unary sign token operand).value env = .ok value) :
    ∃ operandValue, operand.value env = .ok operandValue ∧ value = sign.apply operandValue := by
  rw [value_unary] at h
  split at h
  · cases h
  · rename_i operandValue inner
    cases h
    exact ⟨operandValue, inner, rfl⟩

theorem value_unary_error (h : (Tree.unary sign token operand).value env = .error fault) :
    operand.value env = .error fault := by
  rw [value_unary] at h
  split at h
  · rename_i found inner
    cases h
    exact inner
  · cases h

end

section
variable (name equals : Token) (expression : Tree) (env : Environment)

theorem store_eq :
    store name expression env = match expression.value env with
      | .ok value => .ok value (env.bind name.lexeme value)
      | .error fault => .error fault env := by
  show (MonadExcept.ofExcept (expression.value env) >>= fun value => do
    set (env.bind name.lexeme value)
    return value : EStateM Fault Environment Int64) env = _
  cases expression.value env with
  | ok value => rfl
  | error fault => rfl

theorem execute_declaration :
    (Tree.declaration name equals expression).execute env =
      if env.binds name.lexeme then .error ⟨.variableRedeclared name.lexeme, name.span⟩ env
      else store name expression env := by
  show (if env.binds name.lexeme = true then _ else _ : EStateM Fault Environment Int64) env = _
  split
  · rfl
  · rfl

theorem execute_assignment :
    (Tree.assignment name equals expression).execute env =
      if env.binds name.lexeme then store name expression env
      else .error ⟨.undefinedVariable name.lexeme, name.span⟩ env := by
  show (if (!env.binds name.lexeme) = true then _ else _ : EStateM Fault Environment Int64) env = _
  cases env.binds name.lexeme with
  | true => rfl
  | false => rfl

end

/-- The kinds of trees that have a value and change nothing. -/
def Kind.IsExpression (kind : Kind) : Prop :=
  kind = .literal ∨ kind = .identifier ∨ kind = .unary ∨ kind = .binary

theorem isExpression_or (tree : Tree) :
    tree.kind.IsExpression ∨ (∃ statements span, tree = .program statements span) ∨
      (∃ name equals value, tree = .declaration name equals value) ∨
      ∃ name equals value, tree = .assignment name equals value := by
  cases tree with
  | program => exact .inr (.inl ⟨_, _, rfl⟩)
  | declaration => exact .inr (.inr (.inl ⟨_, _, _, rfl⟩))
  | assignment => exact .inr (.inr (.inr ⟨_, _, _, rfl⟩))
  | literal | identifier | unary | binary => exact .inl (by simp [Kind.IsExpression, kind])

theorem execute_expression {tree : Tree} (h : tree.kind.IsExpression) (env : Environment) :
    tree.execute env = match tree.value env with
      | .ok value => .ok value env
      | .error fault => .error fault env := by
  have run : tree.execute env =
      (MonadExcept.ofExcept (tree.value env) : EStateM Fault Environment Int64) env := by
    cases tree with
    | literal | identifier | unary | binary => rfl
    | program | declaration | assignment => simp [Kind.IsExpression, kind] at h
  rw [run]
  cases tree.value env with
  | ok value => rfl
  | error fault => rfl

/-! ### Statements that succeed and statements that fail -/

/-- What there is to a statement that succeeds: its value, and the environment it leaves. -/
inductive Succeeds (env : Environment) (value : Int64) : Tree → Environment → Prop where
  | expression {tree : Tree} (root : tree.kind.IsExpression) (has : tree.value env = .ok value) :
      Succeeds env value tree env
  | declaration {name equals : Token} {expression : Tree} (absent : env.binds name.lexeme = false)
      (has : expression.value env = .ok value) :
      Succeeds env value (.declaration name equals expression) (env.bind name.lexeme value)
  | assignment {name equals : Token} {expression : Tree} (present : env.binds name.lexeme = true)
      (has : expression.value env = .ok value) :
      Succeeds env value (.assignment name equals expression) (env.bind name.lexeme value)

/-- Why a statement fails. -/
inductive Fails (env : Environment) : Tree → Fault → Prop where
  | expression {tree : Tree} {fault : Fault} (root : tree.kind.IsExpression)
      (lacks : tree.value env = .error fault) : Fails env tree fault
  | redeclared {name equals : Token} {expression : Tree} (present : env.binds name.lexeme = true) :
      Fails env (.declaration name equals expression) ⟨.variableRedeclared name.lexeme, name.span⟩
  | declaration {name equals : Token} {expression : Tree} {fault : Fault}
      (absent : env.binds name.lexeme = false) (lacks : expression.value env = .error fault) :
      Fails env (.declaration name equals expression) fault
  | undeclared {name equals : Token} {expression : Tree} (absent : env.binds name.lexeme = false) :
      Fails env (.assignment name equals expression) ⟨.undefinedVariable name.lexeme, name.span⟩
  | assignment {name equals : Token} {expression : Tree} {fault : Fault}
      (present : env.binds name.lexeme = true) (lacks : expression.value env = .error fault) :
      Fails env (.assignment name equals expression) fault
  | nested {statements : List Tree} {span : Span} :
      Fails env (.program statements span) (misplaced (.program statements span))

section
variable {env after : Environment} {statement : Tree} {value : Int64} {fault : Fault}

theorem Succeeds.execute (h : Succeeds env value statement after) :
    statement.execute env = .ok value after := by
  cases h with
  | expression root has => rw [execute_expression root, has]
  | declaration absent has =>
    rw [execute_declaration, absent, if_neg Bool.false_ne_true, store_eq, has]
  | assignment present has => rw [execute_assignment, present, if_pos rfl, store_eq, has]

theorem Fails.execute (h : Fails env statement fault) :
    statement.execute env = .error fault env := by
  cases h with
  | expression root lacks => rw [execute_expression root, lacks]
  | redeclared present => rw [execute_declaration, present, if_pos rfl]
  | declaration absent lacks =>
    rw [execute_declaration, absent, if_neg Bool.false_ne_true, store_eq, lacks]
  | undeclared absent => rw [execute_assignment, absent, if_neg Bool.false_ne_true]
  | assignment present lacks => rw [execute_assignment, present, if_pos rfl, store_eq, lacks]
  | nested => rfl

/-- A statement succeeds or it fails. -/
theorem succeeds_or_fails (statement : Tree) (env : Environment) :
    (∃ value after, Succeeds env value statement after) ∨ ∃ fault, Fails env statement fault := by
  rcases isExpression_or statement with root | ⟨_, _, rfl⟩ | ⟨name, _, inner, rfl⟩ |
    ⟨name, _, inner, rfl⟩
  · cases has : statement.value env with
    | ok value => exact .inl ⟨_, _, .expression root has⟩
    | error fault => exact .inr ⟨_, .expression root has⟩
  · exact .inr ⟨_, .nested⟩
  · cases bound : env.binds name.lexeme with
    | true => exact .inr ⟨_, .redeclared bound⟩
    | false =>
      cases has : inner.value env with
      | ok value => exact .inl ⟨_, _, .declaration bound has⟩
      | error fault => exact .inr ⟨_, .declaration bound has⟩
  · cases bound : env.binds name.lexeme with
    | false => exact .inr ⟨_, .undeclared bound⟩
    | true =>
      cases has : inner.value env with
      | ok value => exact .inl ⟨_, _, .assignment bound has⟩
      | error fault => exact .inr ⟨_, .assignment bound has⟩

/-- A statement that fails leaves the environment as it is. -/
theorem fails_of_execute (h : statement.execute env = .error fault after) :
    after = env ∧ Fails env statement fault := by
  rcases succeeds_or_fails statement env with ⟨result, final, succeeds⟩ | ⟨found, fails⟩
  · rw [succeeds.execute] at h
    cases h
  · rw [fails.execute] at h
    cases h
    exact ⟨rfl, fails⟩

end

/-! ### Statements whose faults are changed -/

section
variable {ε : Type} (change : Fault → ε) (env : Environment)

theorem adaptExcept_declaration (name equals : Token) (expression : Tree) :
    (Tree.declaration name equals expression).execute.adaptExcept change env =
      if env.binds name.lexeme then .error (change ⟨.variableRedeclared name.lexeme, name.span⟩) env
      else (store name expression).adaptExcept change env := by
  rw [EStateM.adaptExcept, execute_declaration]
  cases env.binds name.lexeme with
  | true => rfl
  | false => rfl

theorem adaptExcept_assignment (name equals : Token) (expression : Tree) :
    (Tree.assignment name equals expression).execute.adaptExcept change env =
      if env.binds name.lexeme then (store name expression).adaptExcept change env
      else .error (change ⟨.undefinedVariable name.lexeme, name.span⟩) env := by
  rw [EStateM.adaptExcept, execute_assignment]
  cases env.binds name.lexeme with
  | true => rfl
  | false => rfl

end

/-! ### Trees of the grammar -/

theorem kind_of_derives {category : Grammar.Category} {tokens : List Token} {tree : Tree}
    (h : Grammar.Derives category tokens tree) : tree.kind.IsExpression := by
  induction h with
  | literal => exact .inl rfl
  | name => exact .inr (.inl rfl)
  | signed => exact .inr (.inr (.inl rfl))
  | pair => exact .inr (.inr (.inr rfl))
  | group _ _ _ ih => exact ih
  | single _ ih => exact ih

theorem program_or_kind (tree : Tree) :
    (∃ statements span, tree = .program statements span) ∨ tree.kind ≠ .program := by
  cases tree with
  | program => exact .inl ⟨_, _, rfl⟩
  | _ => exact .inr Kind.noConfusion

theorem evaluate_of_kind {tree : Tree} (h : tree.kind ≠ .program) :
    tree.evaluate = tree.execute := by
  cases tree with
  | program => exact absurd rfl h
  | _ => rfl

theorem kind_of_statement {tokens : List Token} {tree : Tree}
    (h : Grammar.Statement tokens tree) : tree.kind ≠ .program := by
  cases h with
  | declaration | assignment => simp [kind]
  | expression inner =>
    intro program
    have root := kind_of_derives inner
    simp [Kind.IsExpression, program] at root

theorem evaluate_of_statement {tokens : List Token} {tree : Tree}
    (h : Grammar.Statement tokens tree) : tree.evaluate = tree.execute :=
  evaluate_of_kind (kind_of_statement h)

end Tree

theorem evaluate_of_ok {mode : Mode} {source : String} {tree : Tree}
    (h : Tree.ofSource mode source = .ok tree) : evaluate mode source = tree.evaluate := by
  unfold evaluate
  rw [h]
  rfl

end Calculator
